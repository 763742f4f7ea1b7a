import PacketBus.Proofs.Text.Dumps

/-! The column of characters in the lines of a dump.
Blanks stand for the bytes that a line lacks, but not for the digits that its address lacks beside
those of other lines.
-/

namespace PacketBus.HexDump

/-- How many characters of a line stand before those of its bytes. -/
def Layout.charStart (layout : Layout) (address : Nat) : Nat :=
  layout.labelText.length + (layout.addressText address).length + 3 * layout.width

theorem length_addressText (layout : Layout) (address : Nat)
    : (layout.addressText address).length
      = if layout.showAddress then max 4 (Nat.toDigits 16 address).length + 2 else 0 := by
  simp only [Layout.addressText]
  split
  · rw [String.length_append, Hex.length_ofNat]
    rfl
  · rfl

/-- A line ends with the characters of its bytes, behind a blank, and where they begin depends on
nothing else in it but its address. -/
theorem lineText_of_showText {layout : Layout} (shown : layout.showText = true) (address : Nat)
    {bytes : List UInt8} (nonempty : bytes ≠ []) (short : bytes.length ≤ layout.width)
    : ∃ front,
        (layout.lineText address bytes).toList = front ++ ' ' :: bytes.map shownChar
        ∧ front.length + 1 = layout.charStart address := by
  have some : 0 < bytes.length := List.length_pos_iff.mpr nonempty
  refine ⟨layout.labelText.toList ++ (layout.addressText address).toList
    ++ (digitText bytes).toList ++ List.replicate (3 * (layout.width - bytes.length)) ' ', ?_, ?_⟩
  · simp only [Layout.lineText, Layout.charText, shown, if_true, String.toList_append,
      String.toList_ofList, List.replicate_succ', List.append_assoc, List.singleton_append]
  · simp only [List.length_append, String.length_toList, length_digitText, List.length_replicate,
      Layout.charStart]
    omega

/-- A greater number has no fewer digits. -/
theorem length_toDigits_mono {small large : Nat} (le : small ≤ large)
    : (Nat.toDigits 16 small).length ≤ (Nat.toDigits 16 large).length := by
  rw [Nat.length_toDigits_le_iff (by decide) Nat.length_toDigits_pos]
  exact Nat.lt_of_le_of_lt le
    ((Nat.length_toDigits_le_iff (by decide) Nat.length_toDigits_pos).mp (Nat.le_refl _))

/-- The digits of a number that fill an address. -/
def addressDigits (address : Nat) : Nat :=
  max 4 (Nat.toDigits 16 address).length

theorem addressDigits_mono {small large : Nat} (le : small ≤ large)
    : addressDigits small ≤ addressDigits large := by
  have digits := length_toDigits_mono le
  simp only [addressDigits]
  omega

theorem charStart_eq_iff (layout : Layout) (address other : Nat)
    : layout.charStart address = layout.charStart other
      ↔ layout.showAddress = false ∨ addressDigits address = addressDigits other := by
  simp only [Layout.charStart, length_addressText]
  cases layout.showAddress with
  | false => simp
  | true =>
      simp only [if_true, Bool.true_eq_false, false_or, addressDigits]
      omega

/-- In every line the characters end the line behind a blank, and begin where the label, the address
and a full line of digits end. Whether a line is full makes no difference to that, so the columns of
all lines agree exactly if no address is shown or the last one has no more digits than the first, up
to four of them counting as four. -/
theorem characters_line_up_iff {layout : Layout} (shown : layout.showText = true)
    {bytes : List UInt8} (nonempty : bytes ≠ [])
    (within
      : ∀ k < (lines layout bytes).length, layout.address + k * layout.width < UInt64.size)
    : let count := (lines layout bytes).length
      let address (k : Nat) := layout.address + k * layout.width
      (∀ k line,
          (lines layout bytes)[k]? = some line
          → ∃ front,
              line.toList = front ++ ' ' :: (layout.bytesOf bytes k).map shownChar
              ∧ front.length + 1 = layout.charStart (address k))
      ∧ ((∀ j < count, ∀ k < count,
            layout.charStart (address j) = layout.charStart (address k))
          ↔ layout.showAddress = false
            ∨ addressDigits (address (count - 1)) = addressDigits (address 0)) := by
  intro count address
  have wide := width_pos layout
  have some : 0 < count := by
    have bytes : 0 < bytes.length := List.length_pos_iff.mpr nonempty
    simp only [count, length_lines nonempty]
    exact Nat.div_pos (by omega) wide
  refine ⟨?_, ?_, ?_⟩
  · intro k line here
    have before : k < count := (List.getElem?_eq_some_iff.mp here).1
    have begun := ((getElem?_lines_eq_some_iff nonempty).mp here).1
    rw [(shows_of_getElem? nonempty (within k before) here).text]
    exact lineText_of_showText shown (address k) (layout.bytesOf_ne_nil begun)
      (layout.length_bytesOf_le bytes k)
  · intro agree
    exact (charStart_eq_iff ..).mp (agree (count - 1) (by omega) 0 some)
  · intro even j before k before'
    rw [charStart_eq_iff]
    refine even.imp_right ?_
    intro last
    -- All addresses lie between the first and the last, and so do their digits.
    have digits {k : Nat} (before : k < count)
        : addressDigits (address k) = addressDigits (address 0) := by
      have above : address 0 ≤ address k := by simp [address]
      have below : address k ≤ address (count - 1) :=
        Nat.add_le_add_left (Nat.mul_le_mul_right _ (by omega)) _
      have lower := addressDigits_mono above
      have upper := addressDigits_mono below
      omega
    rw [digits before, digits before']

/-- The short line begins its characters one place further on, for its address is the first one of
five digits. -/
theorem characters_line_up_iff_no_digit_is_gained
    : let layout : Layout := { address := 0xFFF8, lineWidth := 8 }
      let bytes : List UInt8 := [0x30, 0x31, 0x32, 0x33, 0x34, 0x35, 0x36, 0x37, 0x38, 0x39]
      lines layout bytes
        = ["fff8: 30 31 32 33 34 35 36 37 01234567", "10000: 38 39                   89"]
      ∧ layout.charStart 0xFFF8 = 30
      ∧ layout.charStart 0x10000 = 31
      ∧ ¬ ∀ j < 2, ∀ k < 2,
          layout.charStart (0xFFF8 + j * 8) = layout.charStart (0xFFF8 + k * 8) := by
  intro layout bytes
  have shown : lines layout bytes
      = ["fff8: 30 31 32 33 34 35 36 37 01234567", "10000: 38 39                   89"] := by
    decide +kernel
  have agree :=
    (characters_line_up_iff (show layout.showText = true from rfl) (show bytes ≠ [] by decide)
      (by rw [shown]; decide)).2
  rw [shown] at agree
  refine ⟨shown, by decide +kernel, by decide +kernel, ?_⟩
  exact fun even => absurd (agree.mp even) (by decide +kernel)

end PacketBus.HexDump
