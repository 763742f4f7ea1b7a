/-! Entries that are found by their keys.
Where no key comes twice, what is found for a key is what stands among the entries, wherever it
stands there; a key is given a new value in its place.
-/

namespace PacketBus

variable {κ α : Type} {entries : List (κ × α)} {key : κ} {value : α}

section Found

variable [BEq κ] [LawfulBEq κ]

theorem isSome_lookup_iff : (entries.lookup key).isSome ↔ key ∈ entries.map Prod.fst := by
  simp only [List.lookup_isSome_iff, List.mem_map, beq_iff_eq]
  simp only [eq_comm]

theorem mem_of_lookup (found : entries.lookup key = some value) : (key, value) ∈ entries := by
  obtain ⟨front, back, split, -⟩ := List.lookup_eq_some_iff.mp found
  rw [split]
  exact List.mem_append_right front List.mem_cons_self

/-- By induction on the entries. -/
theorem lookup_eq_some_iff_mem (distinct : (entries.map Prod.fst).Nodup)
    : entries.lookup key = some value ↔ (key, value) ∈ entries := by
  refine ⟨mem_of_lookup, fun here => ?_⟩
  induction entries with
  | nil => cases here
  | cons entry rest ih =>
      obtain ⟨absent, distinct⟩ := List.nodup_cons.mp distinct
      cases here with
      | head => exact List.lookup_cons_self
      | tail _ behind =>
          have other : key ≠ entry.1 := by
            rintro rfl
            exact absent (List.mem_map.mpr ⟨_, behind, rfl⟩)
          rw [List.lookup_cons, beq_eq_false_iff_ne.mpr other]
          exact ih distinct behind

end Found

section Renamed

variable [DecidableEq κ]

/-- The entries with a new value for a key. -/
def renew (entries : List (κ × α)) (key : κ) (value : α) : List (κ × α) :=
  entries.map fun entry => if entry.1 = key then (key, value) else entry

theorem keys_renew : (renew entries key value).map Prod.fst = entries.map Prod.fst := by
  rw [renew, List.map_map]
  refine List.map_congr_left fun entry _ => ?_
  simp only [Function.comp_apply]
  split
  · rename_i same
    exact same.symm
  · rfl

theorem mem_renew {entry : κ × α} (here : entry ∈ renew entries key value)
    : entry = (key, value) ∨ entry ∈ entries := by
  obtain ⟨old, before, rfl⟩ := List.mem_map.mp here
  split
  · exact .inl rfl
  · exact .inr before

/-- What is found for the key changes, if anything is, by induction on the entries. -/
theorem lookup_renew [BEq κ] [LawfulBEq κ] (other : κ)
    : (renew entries key value).lookup other
      = if other = key then (entries.lookup key).map fun _ => value else entries.lookup other := by
  induction entries with
  | nil => split <;> rfl
  | cons entry rest ih =>
      obtain ⟨first, old⟩ := entry
      rw [renew] at ih ⊢
      by_cases renewed : first = key
      · subst renewed
        by_cases asked : other = first
        · simp [asked]
        · simp [asked, ih, List.lookup_cons, beq_eq_false_iff_ne.mpr asked]
      · by_cases asked : other = key
        · subst asked
          simp [renewed, ih, List.lookup_cons, beq_eq_false_iff_ne.mpr (Ne.symm renewed)]
        · simp only [List.map_cons, if_neg renewed, List.lookup_cons, ih, if_neg asked]

end Renamed

end PacketBus
