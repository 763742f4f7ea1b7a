import PacketBus.Toml.Value

/-! Equality of values can be decided, so what a document comes to can be computed.
Values are nested in lists of items and of entries, so these are compared along with them, and the
comparison is complete by induction on all three at once.
-/

namespace PacketBus.Toml

namespace Value

mutual

/-- The values are the same. -/
def isSame : Value → Value → Bool
  | .text content, .text other => content = other
  | .integer number, .integer other => number = other
  | .illegible, .illegible => true
  | .real number, .real other => number = other
  | .boolean truth, .boolean other => truth = other
  | .moment here, .moment other => here = other
  | .array items, .array others => itemsAreSame items others
  | .table entries, .table others => entriesAreSame entries others
  | _, _ => false

/-- The items are the same, one by one. -/
def itemsAreSame : List Value → List Value → Bool
  | [], [] => true
  | item :: items, other :: others => item.isSame other && itemsAreSame items others
  | _, _ => false

/-- The entries are the same, one by one. -/
def entriesAreSame : Table → Table → Bool
  | [], [] => true
  | (key, value) :: entries, (key', other) :: others =>
      key = key' && value.isSame other && entriesAreSame entries others
  | _, _ => false

end

mutual

theorem isSame_iff (value other : Value) : value.isSame other = true ↔ value = other := by
  cases value with
  | array items => cases other <;> simp [isSame, itemsAreSame_iff items]
  | table entries => cases other <;> simp [isSame, entriesAreSame_iff entries]
  | _ => cases other <;> simp [isSame]

theorem itemsAreSame_iff (items others : List Value)
    : itemsAreSame items others = true ↔ items = others := by
  cases items with
  | nil => cases others <;> simp [itemsAreSame]
  | cons item items =>
      cases others with
      | nil => simp [itemsAreSame]
      | cons other others =>
          simp [itemsAreSame, isSame_iff item other, itemsAreSame_iff items others]

theorem entriesAreSame_iff (entries others : Table)
    : entriesAreSame entries others = true ↔ entries = others := by
  cases entries with
  | nil => cases others <;> simp [entriesAreSame]
  | cons entry entries =>
      cases others with
      | nil => simp [entriesAreSame]
      | cons other others =>
          obtain ⟨key, value⟩ := entry
          simp [entriesAreSame, isSame_iff value other.2, entriesAreSame_iff entries others,
            Prod.ext_iff, and_assoc]

end

instance : DecidableEq Value := fun value other => decidable_of_iff _ (isSame_iff value other)

end Value

end PacketBus.Toml
