import PacketBus.Proofs.Text.Numbers
import PacketBus.Text.HexDump

/-! The lines of a dump as texts of four parts.
The buffer that a line is built in has room for the widest of them, so that no piece is left out.
-/

namespace PacketBus.HexDump

-----------------------------------------------------------------------------------------
-- Sizes of texts
-----------------------------------------------------------------------------------------

theorem utf8ByteSize_ofList_cons (c : Char) (rest : List Char)
    : (String.ofList (c :: rest)).utf8ByteSize
      = c.utf8Size + (String.ofList rest).utf8ByteSize := by
  rw [← List.singleton_append, String.ofList_append, String.utf8ByteSize_append]
  simp

/-- Characters of one byte make a text of as many bytes, by induction on the characters. -/
theorem utf8ByteSize_ofList_of_small {chars : List Char} (small : ∀ c ∈ chars, c.utf8Size = 1)
    : (String.ofList chars).utf8ByteSize = chars.length := by
  induction chars with
  | nil => rfl
  | cons c rest ih =>
      rw [List.forall_mem_cons] at small
      rw [utf8ByteSize_ofList_cons, small.1, ih small.2, List.length_cons, Nat.add_comm]

theorem utf8ByteSize_of_small {text : String} (small : ∀ c ∈ text.toList, c.utf8Size = 1)
    : text.utf8ByteSize = text.length := by
  have size := utf8ByteSize_ofList_of_small small
  rwa [String.ofList_toList, String.length_toList] at size

-----------------------------------------------------------------------------------------
-- The front of a label
-----------------------------------------------------------------------------------------

/-- A text is the longest front of a label that takes at most so many bytes. -/
structure IsLongestFront (room : Nat) (label shown : String) : Prop where
  front : shown.toList <+: label.toList
  fits : shown.utf8ByteSize ≤ room
  longest
    : ∀ other : String,
        other.toList <+: label.toList → other.utf8ByteSize ≤ room
        → other.toList <+: shown.toList

/-- By the recursion of the cut. -/
theorem takeFitting_isPrefix (room : Nat) (chars : List Char)
    : takeFitting room chars <+: chars := by
  fun_induction takeFitting room chars with
  | case1 room => exact List.prefix_rfl
  | case2 room c rest fits ih => exact List.prefix_cons_inj c |>.mpr ih
  | case3 room c rest full => exact List.nil_prefix

/-- By the recursion of the cut. -/
theorem utf8ByteSize_takeFitting_le (room : Nat) (chars : List Char)
    : (String.ofList (takeFitting room chars)).utf8ByteSize ≤ room := by
  fun_induction takeFitting room chars with
  | case1 room => exact Nat.zero_le room
  | case2 room c rest fits ih =>
      rw [utf8ByteSize_ofList_cons]
      omega
  | case3 room c rest full => exact Nat.zero_le room

/-- By the recursion of the cut, for any front that takes no more. -/
theorem prefix_takeFitting {room : Nat} {chars other : List Char} (front : other <+: chars)
    (fits : (String.ofList other).utf8ByteSize ≤ room)
    : other <+: takeFitting room chars := by
  fun_induction takeFitting room chars generalizing other with
  | case1 room => exact front
  | case2 room c rest enough ih =>
      cases other with
      | nil => exact List.nil_prefix
      | cons first more =>
          obtain ⟨rfl, behind⟩ := List.cons_prefix_cons.mp front
          rw [utf8ByteSize_ofList_cons] at fits
          exact List.cons_prefix_cons.mpr ⟨rfl, ih behind (by omega)⟩
  | case3 room c rest full =>
      cases other with
      | nil => exact List.nil_prefix
      | cons first more =>
          obtain ⟨rfl, -⟩ := List.cons_prefix_cons.mp front
          rw [utf8ByteSize_ofList_cons] at fits
          omega

theorem isLongestFront_shownLabel (layout : Layout)
    : IsLongestFront maxLabelSize layout.label layout.shownLabel where
  front := by
    rw [Layout.shownLabel, String.toList_ofList]
    exact takeFitting_isPrefix _ _
  fits := utf8ByteSize_takeFitting_le _ _
  longest other front fits := by
    rw [Layout.shownLabel, String.toList_ofList]
    exact prefix_takeFitting front (by rwa [String.ofList_toList])

-----------------------------------------------------------------------------------------
-- Buffers
-----------------------------------------------------------------------------------------

/-- Every piece of a line fits behind what is made of those before it. -/
def AllFit (pieces : List String) : Prop :=
  ∀ front piece back,
    pieces = front ++ piece :: back
    → (assemble front).utf8ByteSize + piece.utf8ByteSize ≤ lineCapacity

/-- Pieces that have room together all come behind the line, by induction on the pieces. -/
theorem foldl_push {line : String} {pieces : List String}
    (room : line.utf8ByteSize + (String.join pieces).utf8ByteSize ≤ lineCapacity)
    : pieces.foldl push line = line ++ String.join pieces := by
  induction pieces generalizing line with
  | nil => simp
  | cons piece rest ih =>
      rw [String.join_cons, String.utf8ByteSize_append] at room
      have pushed : push line piece = line ++ piece := if_pos (by omega)
      rw [List.foldl_cons, pushed, ih (by rw [String.utf8ByteSize_append]; omega),
        String.join_cons, String.append_assoc]

theorem assemble_of_room {pieces : List String}
    (room : (String.join pieces).utf8ByteSize ≤ lineCapacity)
    : assemble pieces = String.join pieces := by
  rw [assemble, foldl_push (by simpa using room), String.empty_append]

theorem allFit_of_room {pieces : List String}
    (room : (String.join pieces).utf8ByteSize ≤ lineCapacity)
    : AllFit pieces := by
  rintro front piece back rfl
  rw [String.join_append, String.join_cons, String.utf8ByteSize_append,
    String.utf8ByteSize_append] at room
  rw [assemble_of_room (by omega)]
  omega

-----------------------------------------------------------------------------------------
-- Lines
-----------------------------------------------------------------------------------------

/-- The label of a line with what divides it from the rest. -/
def Layout.labelText (layout : Layout) : String :=
  if layout.shownLabel.isEmpty then "" else layout.shownLabel ++ ": "

/-- The address of a line with what divides it from the rest. -/
def Layout.addressText (layout : Layout) (address : Nat) : String :=
  if layout.showAddress then Hex.ofNat 4 address ++ ": " else ""

/-- Bytes as digits. -/
def digitText (bytes : List UInt8) : String :=
  " ".intercalate (bytes.map Hex.ofByte)

/-- Bytes as characters, behind three blanks for each that is missing to a full line and one. -/
def Layout.charText (layout : Layout) (bytes : List UInt8) : String :=
  if layout.showText then
    String.ofList
      (List.replicate (3 * (layout.width - bytes.length) + 1) ' ' ++ bytes.map shownChar)
  else ""

/-- The line of some bytes that begin at an address. -/
def Layout.lineText (layout : Layout) (address : Nat) (bytes : List UInt8) : String :=
  layout.labelText ++ layout.addressText address ++ digitText bytes ++ layout.charText bytes

theorem join_lead (layout : Layout) (address : Nat)
    : String.join (layout.lead address) = layout.labelText ++ layout.addressText address := by
  simp only [Layout.lead, Layout.labelText, Layout.addressText]
  cases layout.shownLabel.isEmpty with
  | true =>
      cases layout.showAddress with
      | true => simp
      | false => simp
  | false =>
      cases layout.showAddress with
      | true => simp [String.append_assoc]
      | false => simp

/-- By induction on the texts. -/
theorem join_intersperse (separator : String) (texts : List String)
    : String.join (texts.intersperse separator) = separator.intercalate texts := by
  induction texts with
  | nil => rfl
  | cons text rest ih =>
      cases rest with
      | nil => simp
      | cons next rest =>
          simp only [List.intersperse_cons_cons, String.join_cons, ih,
            String.intercalate_cons_cons, String.append_assoc]

/-- Three blanks for each, by induction on how many. -/
theorem join_blanks (count : Nat)
    : String.join (List.replicate count "   ") = String.ofList (List.replicate (3 * count) ' ') := by
  induction count with
  | zero => rfl
  | succ count ih =>
      rw [List.replicate_succ, String.join_cons, ih, show 3 * (count + 1) = 3 + 3 * count by omega,
        ← List.replicate_append_replicate, String.ofList_append]
      rfl

/-- By induction on the bytes. -/
theorem join_shownChars (bytes : List UInt8)
    : String.join (bytes.map fun byte => (shownChar byte).toString)
      = String.ofList (bytes.map shownChar) := by
  induction bytes with
  | nil => rfl
  | cons byte rest ih =>
      rw [List.map_cons, String.join_cons, ih, List.map_cons, ← List.singleton_append,
        String.ofList_append]
      simp

theorem join_tail (layout : Layout) (bytes : List UInt8)
    : String.join (layout.tail bytes) = layout.charText bytes := by
  simp only [Layout.tail, Layout.charText]
  split
  · rw [String.join_append, String.join_cons, join_blanks, join_shownChars,
      ← List.replicate_append_replicate, String.ofList_append, String.ofList_append,
      String.append_assoc]
    rfl
  · rfl

theorem join_pieces (layout : Layout) (address : Nat) (bytes : List UInt8)
    : String.join (layout.pieces address bytes) = layout.lineText address bytes := by
  rw [Layout.pieces, String.join_append, String.join_append, join_lead, join_intersperse,
    join_tail]
  rfl

-----------------------------------------------------------------------------------------
-- Widths
-----------------------------------------------------------------------------------------

theorem width_le (layout : Layout)
    : layout.width ≤ maxWidth := by
  simp only [Layout.width, defaultWidth, maxWidth]
  split
  · omega
  · omega

/-- A byte is shown as a character of one byte, by looking at those below the last printable one. -/
theorem utf8Size_shownChar (byte : UInt8)
    : (shownChar byte).utf8Size = 1 := by
  have cases : ∀ n : Fin 127, (Char.ofNat n.val).utf8Size = 1 := by decide
  simp only [shownChar]
  split
  · next printable => exact cases ⟨byte.toNat, printable.2⟩
  · rfl

theorem utf8ByteSize_labelText_le (layout : Layout)
    : layout.labelText.utf8ByteSize ≤ maxLabelSize + 2 := by
  have fits := (isLongestFront_shownLabel layout).fits
  simp only [Layout.labelText]
  split
  · exact Nat.zero_le _
  · rw [String.utf8ByteSize_append]
    exact Nat.add_le_add_right fits 2

/-- An address has as many bytes as digits, sixteen at most. -/
theorem utf8ByteSize_addressText_le (layout : Layout) {address : Nat}
    (within : address < UInt64.size)
    : (layout.addressText address).utf8ByteSize ≤ 18 := by
  have digits : (Hex.ofNat 4 address).utf8ByteSize ≤ 16 := by
    have few : (Nat.toDigits 16 address).length ≤ 16 :=
      (Nat.length_toDigits_le_iff (by decide) (by decide)).mpr within
    rw [utf8ByteSize_of_small fun c member =>
      Hex.utf8Size_of_value? (Hex.value?_of_mem_ofNat member), Hex.length_ofNat]
    omega
  simp only [Layout.addressText]
  split
  · rw [String.utf8ByteSize_append]
    exact Nat.add_le_add_right digits 2
  · exact Nat.zero_le _

theorem digitText_cons_cons (byte next : UInt8) (rest : List UInt8)
    : digitText (byte :: next :: rest) = Hex.ofByte byte ++ " " ++ digitText (next :: rest) := by
  simp [digitText]

/-- By induction on the bytes. -/
theorem length_digitText (bytes : List UInt8)
    : (digitText bytes).length = 3 * bytes.length - 1 := by
  induction bytes with
  | nil => rfl
  | cons byte rest ih =>
      have two (byte : UInt8) : (Hex.ofByte byte).length = 2 := by
        rw [Hex.ofByte, String.length_ofList]
        rfl
      cases rest with
      | nil => simp [digitText, two]
      | cons next rest =>
          have blank : " ".length = 1 := rfl
          rw [digitText_cons_cons, String.length_append, String.length_append, ih, two, blank]
          simp only [List.length_cons]
          omega

theorem value?_of_mem_ofByte {byte : UInt8} {c : Char} (member : c ∈ (Hex.ofByte byte).toList)
    : (Hex.value? c).isSome = true := by
  have bound := byte.toNat_lt
  rw [Hex.ofByte, String.toList_ofList] at member
  simp only [Hex.byteChars, List.mem_cons, List.not_mem_nil, or_false] at member
  rcases member with rfl | rfl
  · rw [Hex.value?_digit (by omega)]
    rfl
  · rw [Hex.value?_digit (by omega)]
    rfl

/-- By induction on the bytes. -/
theorem digit_or_blank_of_mem {bytes : List UInt8} {c : Char}
    (member : c ∈ (digitText bytes).toList)
    : (Hex.value? c).isSome = true ∨ c = ' ' := by
  induction bytes with
  | nil => simp [digitText] at member
  | cons byte rest ih =>
      cases rest with
      | nil => exact .inl (value?_of_mem_ofByte (by simpa [digitText] using member))
      | cons next rest =>
          rw [digitText_cons_cons, String.toList_append, String.toList_append, List.mem_append,
            List.mem_append] at member
          rcases member with (digit | blank) | later
          · exact .inl (value?_of_mem_ofByte digit)
          · exact .inr (by simpa using blank)
          · exact ih later

theorem utf8ByteSize_digitText (bytes : List UInt8)
    : (digitText bytes).utf8ByteSize = 3 * bytes.length - 1 := by
  rw [← length_digitText]
  refine utf8ByteSize_of_small ?_
  intro c member
  rcases digit_or_blank_of_mem member with digit | rfl
  · exact Hex.utf8Size_of_value? digit
  · rfl

theorem utf8ByteSize_charText_le (layout : Layout) (bytes : List UInt8)
    : (layout.charText bytes).utf8ByteSize
      ≤ 3 * (layout.width - bytes.length) + 1 + bytes.length := by
  simp only [Layout.charText]
  split
  · rw [utf8ByteSize_of_small]
    · simp
    · intro c member
      rw [String.toList_ofList, List.mem_append] at member
      rcases member with blank | shown
      · rw [List.eq_of_mem_replicate blank]
        rfl
      · obtain ⟨byte, -, rfl⟩ := List.mem_map.mp shown
        exact utf8Size_shownChar byte
  · exact Nat.zero_le _

/-- There is room for the longest label and address with the most bytes. -/
theorem utf8ByteSize_lineText_le (layout : Layout) {address : Nat} {bytes : List UInt8}
    (within : address < UInt64.size) (short : bytes.length ≤ layout.width)
    : (layout.lineText address bytes).utf8ByteSize ≤ lineCapacity := by
  have label := utf8ByteSize_labelText_le layout
  have number := utf8ByteSize_addressText_le layout within
  have digits := utf8ByteSize_digitText bytes
  have chars := utf8ByteSize_charText_le layout bytes
  have width := width_le layout
  simp only [maxLabelSize, maxWidth] at label width
  simp only [Layout.lineText, String.utf8ByteSize_append, lineCapacity]
  omega

theorem assemble_pieces (layout : Layout) {address : Nat} {bytes : List UInt8}
    (within : address < UInt64.size) (short : bytes.length ≤ layout.width)
    : assemble (layout.pieces address bytes) = layout.lineText address bytes := by
  have room := utf8ByteSize_lineText_le layout within short
  rw [← join_pieces] at room ⊢
  exact assemble_of_room room

theorem allFit_pieces (layout : Layout) {address : Nat} {bytes : List UInt8}
    (within : address < UInt64.size) (short : bytes.length ≤ layout.width)
    : AllFit (layout.pieces address bytes) := by
  have room := utf8ByteSize_lineText_le layout within short
  rw [← join_pieces] at room
  exact allFit_of_room room

end PacketBus.HexDump
