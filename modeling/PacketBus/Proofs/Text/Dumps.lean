import PacketBus.Proofs.Text.Lines

/-! Dumps that show all of their bytes.
Each line of a dump shows the bytes that are its turn and nothing is cut off it, so the bytes can be
read back from the columns of digits.
-/

namespace PacketBus.HexDump

-----------------------------------------------------------------------------------------
-- Cutting into lines
-----------------------------------------------------------------------------------------

/-- As many lines as it takes, by the recursion of the cut. -/
theorem length_chunks {width : Nat} (wide : 0 < width) (bytes : List UInt8)
    : (chunks width bytes).length = (bytes.length + width - 1) / width := by
  fun_induction chunks width bytes with
  | case1 bytes h =>
      rcases h with h | rfl
      · omega
      · rw [List.length_nil, List.length_nil, Nat.div_eq_of_lt (by omega)]
  | case2 bytes h ih =>
      have some : bytes.length ≠ 0 := fun none => h (.inr (List.length_eq_zero_iff.mp none))
      rw [List.length_cons, ih, List.length_drop]
      by_cases last : bytes.length ≤ width
      · rw [Nat.div_eq_of_lt (by omega), Nat.div_eq_of_lt_le (k := 1) (by omega) (by omega)]
      · rw [show bytes.length + width - 1 = (bytes.length - width + width - 1) + width by omega,
          Nat.add_div_right _ wide]

/-- Each line has the bytes behind those of the lines before it, by the recursion of the cut. -/
theorem getElem?_chunks {width : Nat} (wide : 0 < width) (bytes : List UInt8) (k : Nat)
    : (chunks width bytes)[k]?
      = if k * width < bytes.length then some ((bytes.drop (k * width)).take width)
        else none := by
  fun_induction chunks width bytes generalizing k with
  | case1 bytes h =>
      rcases h with h | rfl
      · omega
      · simp
  | case2 bytes h ih =>
      have some : bytes.length ≠ 0 := fun none => h (.inr (List.length_eq_zero_iff.mp none))
      cases k with
      | zero => simp [Nat.pos_of_ne_zero some]
      | succ k =>
          rw [List.getElem?_cons_succ, ih, List.length_drop, List.drop_drop, Nat.succ_mul,
            Nat.add_comm width]
          by_cases more : k * width + width < bytes.length
          · rw [if_pos (by omega), if_pos more]
          · rw [if_neg (by omega), if_neg more]

/-- The bytes of one line of a dump. -/
def Layout.bytesOf (layout : Layout) (bytes : List UInt8) (k : Nat) : List UInt8 :=
  (bytes.drop (k * layout.width)).take layout.width

theorem Layout.length_bytesOf_le (layout : Layout) (bytes : List UInt8) (k : Nat)
    : (layout.bytesOf bytes k).length ≤ layout.width :=
  List.length_take_le _ _

theorem Layout.bytesOf_ne_nil (layout : Layout) {bytes : List UInt8} {k : Nat}
    (begun : k * layout.width < bytes.length)
    : layout.bytesOf bytes k ≠ [] := by
  have wide := width_pos layout
  rw [← List.length_pos_iff, Layout.bytesOf, List.length_take, List.length_drop]
  omega

/-- A line of a dump begins within the bytes, and is made of its own ones. -/
theorem getElem?_lines {layout : Layout} {bytes : List UInt8} (nonempty : bytes ≠ []) (k : Nat)
    : (lines layout bytes)[k]?
      = if k * layout.width < bytes.length then
          some (assemble
            (layout.pieces (layout.address + k * layout.width) (layout.bytesOf bytes k)))
        else none := by
  have shown : bytes.isEmpty = false := by simpa using nonempty
  simp only [lines, shown, Bool.false_eq_true, if_false, List.getElem?_mapIdx,
    getElem?_chunks (width_pos layout)]
  split
  · rfl
  · rfl

theorem getElem?_lines_eq_some_iff {layout : Layout} {bytes : List UInt8} {k : Nat} {line : String}
    (nonempty : bytes ≠ [])
    : (lines layout bytes)[k]? = some line
      ↔ k * layout.width < bytes.length
        ∧ assemble (layout.pieces (layout.address + k * layout.width) (layout.bytesOf bytes k))
          = line := by
  rw [getElem?_lines nonempty]
  split
  · next begun => simp only [begun, true_and, Option.some.injEq]
  · next ended => simp only [ended, false_and, reduceCtorEq]

theorem length_lines {layout : Layout} {bytes : List UInt8} (nonempty : bytes ≠ [])
    : (lines layout bytes).length = (bytes.length + layout.width - 1) / layout.width := by
  have shown : bytes.isEmpty = false := by simpa using nonempty
  rw [lines, shown, if_neg (by decide), List.length_mapIdx, length_chunks (width_pos layout)]

-----------------------------------------------------------------------------------------
-- Reading back
-----------------------------------------------------------------------------------------

/-- The columns of a line in which its digits stand: they begin behind the label and the address,
and there are three for each byte of a full line, without the last. -/
def Layout.digitColumns (layout : Layout) (line : String) : List Char :=
  let behindLabel := line.toList.drop layout.labelText.length
  let behindAddress :=
    if layout.showAddress then (behindLabel.dropWhile (· != ':')).drop 2 else behindLabel
  behindAddress.take (3 * layout.width - 1)

/-- Reads the bytes of a line from its digits. -/
def Layout.readLine? (layout : Layout) (line : String) : Option (List UInt8) :=
  Hex.decode? ((layout.digitColumns line).filter (· != ' '))

theorem ne_of_value? {c other : Char} (digit : (Hex.value? c).isSome = true)
    (none : Hex.value? other = none)
    : (c != other) = true := by
  rw [bne_iff_ne]
  rintro rfl
  rw [none] at digit
  cases digit

/-- Without the blanks only the digits of the bytes are left, by induction on the bytes. -/
theorem filter_digitText (bytes : List UInt8)
    : (digitText bytes).toList.filter (· != ' ') = bytes.flatMap Hex.byteChars := by
  have byteDigits (byte : UInt8)
      : (Hex.ofByte byte).toList.filter (· != ' ') = Hex.byteChars byte := by
    rw [List.filter_eq_self.mpr fun c member =>
      ne_of_value? (value?_of_mem_ofByte member) (by decide), Hex.ofByte, String.toList_ofList]
  induction bytes with
  | nil => simp [digitText]
  | cons byte rest ih =>
      cases rest with
      | nil => simpa [digitText] using byteDigits byte
      | cons next rest =>
          rw [digitText_cons_cons, String.toList_append, String.toList_append, List.filter_append,
            List.filter_append, byteDigits, ih]
          rfl

/-- Behind the label and the address come the digits and the characters. -/
theorem digitColumns_lineText (layout : Layout) (address : Nat) (bytes : List UInt8)
    : layout.digitColumns (layout.lineText address bytes)
      = ((digitText bytes).toList ++ (layout.charText bytes).toList).take
        (3 * layout.width - 1) := by
  have colon (c : Char) (member : c ∈ (Hex.ofNat 4 address).toList) : (c != ':') = true :=
    ne_of_value? (Hex.value?_of_mem_ofNat member) (by decide)
  simp only [Layout.digitColumns, Layout.lineText, String.toList_append, List.append_assoc,
    List.drop_left' String.length_toList]
  congr 1
  cases shown : layout.showAddress with
  | false => simp [Layout.addressText, shown]
  | true =>
      simp only [Layout.addressText, shown, if_true, String.toList_append, List.append_assoc,
        List.dropWhile_append_of_pos colon]
      rfl

/-- The blanks that fill a line up stand for the digits of the bytes that are missing. -/
theorem filter_digitColumns (layout : Layout) (address : Nat) {bytes : List UInt8}
    (nonempty : bytes ≠ []) (short : bytes.length ≤ layout.width)
    : (layout.digitColumns (layout.lineText address bytes)).filter (· != ' ')
      = bytes.flatMap Hex.byteChars := by
  have some : 0 < bytes.length := List.length_pos_iff.mpr nonempty
  have size : (digitText bytes).toList.length ≤ 3 * layout.width - 1 := by
    rw [String.length_toList, length_digitText]
    omega
  have blanks
      : ((layout.charText bytes).toList.take
          (3 * layout.width - 1 - (digitText bytes).toList.length)).filter (· != ' ') = [] := by
    rw [String.length_toList, length_digitText,
      show 3 * layout.width - 1 - (3 * bytes.length - 1) = 3 * (layout.width - bytes.length) by
        omega,
      List.filter_eq_nil_iff]
    intro c member
    simp only [Layout.charText] at member
    split at member
    · rw [String.toList_ofList, List.take_append_of_le_length (by simp)] at member
      rw [List.eq_of_mem_replicate (List.mem_of_mem_take member)]
      decide
    · simp at member
  rw [digitColumns_lineText, List.take_append, List.filter_append, blanks, List.append_nil,
    List.take_of_length_le size, filter_digitText]

theorem readLine?_lineText (layout : Layout) (address : Nat) {bytes : List UInt8}
    (nonempty : bytes ≠ []) (short : bytes.length ≤ layout.width)
    : layout.readLine? (layout.lineText address bytes) = some bytes := by
  rw [Layout.readLine?, filter_digitColumns layout address nonempty short,
    Hex.decode?_flatMap_byteChars]

-----------------------------------------------------------------------------------------
-- Dumps
-----------------------------------------------------------------------------------------

/-- A line has all of its parts, each piece of it has found room, and its bytes can be read. -/
structure Layout.Shows (layout : Layout) (address : Nat) (bytes : List UInt8) (line : String)
    : Prop where
  text : line = layout.lineText address bytes
  fits : line.utf8ByteSize ≤ lineCapacity
  pieces : AllFit (layout.pieces address bytes)
  reads : layout.readLine? line = some bytes

theorem shows_line (layout : Layout) {address : Nat} {bytes : List UInt8}
    (within : address < UInt64.size) (nonempty : bytes ≠ []) (short : bytes.length ≤ layout.width)
    : layout.Shows address bytes (assemble (layout.pieces address bytes)) := by
  rw [assemble_pieces layout within short]
  exact ⟨rfl, utf8ByteSize_lineText_le layout within short, allFit_pieces layout within short,
    readLine?_lineText layout address nonempty short⟩

/-- A line shows the bytes that are its turn at their address. -/
theorem shows_of_getElem? {layout : Layout} {bytes : List UInt8} {k : Nat} {line : String}
    (nonempty : bytes ≠ []) (within : layout.address + k * layout.width < UInt64.size)
    (shown : (lines layout bytes)[k]? = some line)
    : layout.Shows (layout.address + k * layout.width) (layout.bytesOf bytes k) line := by
  obtain ⟨begun, rfl⟩ := (getElem?_lines_eq_some_iff nonempty).mp shown
  exact shows_line layout within (layout.bytesOf_ne_nil begun) (layout.length_bytesOf_le bytes k)

/-- Attempts that all succeed succeed together, by induction on the results. -/
theorem mapM_of_map_eq {α β : Type} {attempt : α → Option β} {items : List α} {results : List β}
    (all : items.map attempt = results.map some)
    : items.mapM attempt = some results := by
  induction results generalizing items with
  | nil =>
      rw [List.map_eq_nil_iff.mp all]
      rfl
  | cons result rest ih =>
      obtain ⟨item, more, rfl, first, later⟩ := List.map_eq_cons_iff.mp all
      simp [List.mapM_cons, first, ih later]

/-- A dump shows each of its bytes and cuts nothing off: it has as many lines as the bytes fill, and
line by line the front of the label, the address, the digits and the characters of the bytes that
are its turn, in a buffer with room for all; read back in order, the digits give the bytes. -/
theorem dumps_are_complete (layout : Layout) {bytes : List UInt8} (nonempty : bytes ≠ [])
    (within : layout.address + bytes.length < UInt64.size)
    : let width := if layout.lineWidth ≤ 0 then 16 else min layout.lineWidth.toNat 32
      let shown := lines layout bytes
      layout.width = width
      ∧ shown.length = (bytes.length + width - 1) / width
      ∧ IsLongestFront 64 layout.label layout.shownLabel
      ∧ (∀ address : Nat, Hex.IsNumber 4 address (Hex.ofNat 4 address).toList)
      ∧ (∀ k line,
          shown[k]? = some line
          → layout.Shows (layout.address + k * width) ((bytes.drop (k * width)).take width) line)
      ∧ (shown.mapM layout.readLine?).map List.flatten = some bytes := by
  intro width shown
  have line {k : Nat} {line : String} (here : shown[k]? = some line)
      : layout.Shows (layout.address + k * layout.width) (layout.bytesOf bytes k) line := by
    have begun := ((getElem?_lines_eq_some_iff nonempty).mp here).1
    exact shows_of_getElem? nonempty (by omega) here
  refine ⟨rfl, length_lines nonempty, isLongestFront_shownLabel layout,
    Hex.isNumber_ofNat (by decide), fun _ _ => line, ?_⟩
  have all : shown.map layout.readLine? = (chunks layout.width bytes).map some := by
    refine List.ext_getElem? ?_
    intro k
    rw [List.getElem?_map, List.getElem?_map, getElem?_chunks (width_pos layout)]
    cases here : shown[k]? with
    | none =>
        rw [getElem?_lines nonempty] at here
        split at here
        · cases here
        · next ended => rw [if_neg ended]; rfl
    | some text =>
        rw [if_pos ((getElem?_lines_eq_some_iff nonempty).mp here).1]
        exact congrArg some (line here).reads
  rw [mapM_of_map_eq all, Option.map_some, flatten_chunks (width_pos layout)]

/-- A label of characters of three bytes is cut within the sixty-four, the address has all of its
digits, and the second line is a short one. -/
theorem dumps_are_complete_behind_a_long_label
    : let label := String.ofList (List.replicate 30 '€')
      let front := String.ofList (List.replicate 21 '€')
      let layout : Layout := { label, address := 18446744073709551600, lineWidth := 4 }
      let bytes : List UInt8 := [0x48, 0x69, 0x00, 0xFF, 0x21]
      lines layout bytes
        = [front ++ ": fffffffffffffff0: 48 69 00 ff Hi..",
            front ++ ": fffffffffffffff4: 21          !"]
      ∧ ((lines layout bytes).mapM layout.readLine?).map List.flatten = some bytes := by
  intro label front layout bytes
  obtain ⟨-, -, -, -, -, reads⟩ :=
    dumps_are_complete layout (show bytes ≠ [] by decide) (by decide)
  exact ⟨by decide +kernel, reads⟩

end PacketBus.HexDump
