import PacketBus.Proofs.Frame.Items

/-! The canonical form of a frame.
A receiver takes many forms of one content: any opening byte, delimiters in front of the content,
and any byte behind an escape mark. A sender has one of them, which is the shortest.
-/

namespace PacketBus.Frame

namespace Item

/-- A byte that stands for itself, or an escape mark with the escaped form of a reserved byte. -/
def IsStandard : Item → Prop
  | plain _ _ => True
  | escaped byte => byte = escapedDelimiter ∨ byte = escapedMark

/-- A sender sends no byte as more bytes than any item that stands for it takes. -/
theorem length_stuffByte_le (item : Item)
    : (stuffByte item.value).length ≤ item.wire.length := by
  rw [length_stuffByte]
  cases item with
  | plain byte ordinary => simp [value, wire, escape?_eq_none_iff.mpr ordinary]
  | escaped byte =>
      simp only [wire, List.length_cons, List.length_nil]
      split
      · exact Nat.le_refl 2
      · exact Nat.le_succ 1

/-- Any standard item is the one that a sender sends for its value, and no other item is. -/
theorem isStandard_iff (item : Item)
    : item.IsStandard ↔ item.wire = stuffByte item.value := by
  cases item with
  | plain byte ordinary =>
      simp [IsStandard, wire, value, stuffByte, escape?_eq_none_iff.mpr ordinary]
  | escaped byte =>
      constructor
      · rintro (rfl | rfl)
        · rfl
        · rfl
      · intro sent
        cases reserved : escape? (unescape byte) with
        | none => simp [wire, value, stuffByte, reserved] at sent
        | some form =>
            have same : byte = form := by simpa [wire, value, stuffByte, reserved] using sent
            rw [same]
            exact eq_or_eq_of_escape? reserved

/-- Reading finds the items that were put in front of a delimiter, by induction on these. -/
theorem read_wires (items : List Item) (rest : List UInt8)
    : read (wires items ++ delimiter :: rest) = (items, delimiter :: rest) := by
  induction items with
  | nil =>
      rw [wires_nil, List.nil_append, read.eq_def]
      simp
  | cons item others ih =>
      cases item with
      | plain byte ordinary =>
          rw [wires_cons, wire, List.append_assoc, List.singleton_append, read.eq_def]
          simp [ordinary.1, ordinary.2, ih]
      | escaped byte =>
          have marked : escapeMark ≠ delimiter := by decide
          simp [wire, read, marked, ih]

/-- Items do not begin with a delimiter. -/
theorem head?_wires_ne (items : List Item)
    : (wires items).head? ≠ some delimiter := by
  cases items with
  | nil => simp
  | cons item rest =>
      cases item with
      | plain byte ordinary => simpa [wire] using ordinary.1
      | escaped byte => simp [wire, escapeMark, delimiter]

/-- By induction on the items. -/
theorem length_stuff_le (items : List Item)
    : (stuff (items.map value)).length ≤ (wires items).length := by
  induction items with
  | nil => exact Nat.le_refl 0
  | cons item rest ih =>
      have first := item.length_stuffByte_le
      simp only [List.map_cons, stuff_cons, wires_cons, List.length_append]
      omega

/-- Items are the ones that a sender sends for their values exactly if each is standard: none is
shorter than what the sender sends, so that equal runs agree item by item. -/
theorem wires_eq_stuff_iff (items : List Item)
    : wires items = stuff (items.map value) ↔ ∀ item ∈ items, item.IsStandard := by
  induction items with
  | nil => simp
  | cons item rest ih =>
      rw [List.forall_mem_cons, ← ih, isStandard_iff, List.map_cons, stuff_cons, wires_cons]
      constructor
      · intro same
        have first := item.length_stuffByte_le
        have others := length_stuff_le rest
        have total := congrArg List.length same
        rw [List.length_append, List.length_append] at total
        exact List.append_inj same (by omega)
      · rintro ⟨first, others⟩
        rw [first, others]

end Item

/-- The form in which a sender writes a frame: it opens with a delimiter, the content follows at
once, and the reserved bytes of the content are escaped, and nothing else. -/
structure IsCanonical (input : List UInt8) : Prop where
  opening : input.head? = some delimiter
  content : (input.drop 1).head? ≠ some delimiter
  standard : ∀ item ∈ (Item.read (input.drop 1)).1, item.IsStandard

end PacketBus.Frame
