import Mathlib.Data.List.Nodup
import PacketBus.Proofs.Lookup
import PacketBus.Toml.Document

/-! No table of a document names a key twice, however deep it stands.
Of a value that is read this holds by induction on the nesting that is allowed, and of the tables
that definitions are put into by induction on the names that lead there.
-/

namespace PacketBus

theorem bind_eq_ok_iff {ε α β : Type} {first : Except ε α} {next : α → Except ε β} {result : β}
    : first >>= next = .ok result ↔ ∃ value, first = .ok value ∧ next value = .ok result := by
  constructor
  · intro done
    cases first with
    | error _ => cases done
    | ok value => exact ⟨value, rfl, done⟩
  · rintro ⟨value, rfl, done⟩
    exact done

theorem map_eq_ok_iff {ε α β : Type} {first : Except ε α} {next : α → β} {result : β}
    : first.map next = .ok result ↔ ∃ value, first = .ok value ∧ next value = result := by
  cases first with
  | error _ => simp only [Except.map, reduceCtorEq, false_and, exists_false]
  | ok value => simp only [Except.map, Except.ok.injEq, exists_eq_left']

theorem mapError_eq_ok_iff {ε δ α : Type} {first : Except ε α} {convert : ε → δ} {result : α}
    : first.mapError convert = .ok result ↔ first = .ok result := by
  cases first with
  | error _ => simp only [Except.mapError, reduceCtorEq]
  | ok value => simp only [Except.mapError, Except.ok.injEq]

namespace Toml

/-- A table that stands somewhere in a value. -/
inductive Value.Holds : Value → Table → Prop where
  | here (entries : Table) : Holds (.table entries) entries
  | entry {entries : Table} {key : String} {value : Value} {table : Table}
      (here : (key, value) ∈ entries) (inside : value.Holds table) : Holds (.table entries) table
  | item {items : List Value} {value : Value} {table : Table}
      (here : value ∈ items) (inside : value.Holds table) : Holds (.array items) table

/-- No table in the value names a key twice. -/
def Value.HasDistinctKeys (value : Value) : Prop :=
  ∀ table, value.Holds table → (table.map Prod.fst).Nodup

theorem hasDistinctKeys_table {entries : Table}
    : (Value.table entries).HasDistinctKeys
      ↔ (entries.map Prod.fst).Nodup ∧ ∀ entry ∈ entries, entry.2.HasDistinctKeys := by
  constructor
  · intro distinct
    exact ⟨distinct entries (.here entries),
      fun entry here table inside => distinct table (.entry here inside)⟩
  · rintro ⟨distinct, values⟩ table inside
    cases inside with
    | here => exact distinct
    | entry here inside => exact values _ here table inside

theorem hasDistinctKeys_array {items : List Value}
    : (Value.array items).HasDistinctKeys ↔ ∀ value ∈ items, value.HasDistinctKeys := by
  constructor
  · exact fun distinct value here table inside => distinct table (.item here inside)
  · intro values table inside
    cases inside with
    | item here inside => exact values _ here table inside

-----------------------------------------------------------------------------------------
-- Definitions
-----------------------------------------------------------------------------------------

theorem entriesToTable_eq_map (entries : Entries)
    : entriesToTable entries = entries.map fun entry => (entry.1, entry.2.toValue) := by
  induction entries with
  | nil => rfl
  | cons entry rest ih =>
      obtain ⟨key, node⟩ := entry
      rw [entriesToTable, ih, List.map_cons]

theorem elementsToValues_eq_map (elements : List Entries)
    : elementsToValues elements
      = elements.map fun entries => .table (entriesToTable entries) := by
  induction elements with
  | nil => rfl
  | cons entries rest ih => rw [elementsToValues, ih, List.map_cons]

/-- What is defined so far names no key twice. -/
def Node.HasDistinctKeys (node : Node) : Prop := node.toValue.HasDistinctKeys

/-- What is defined so far in a table names no key twice. -/
structure Entries.AreDistinct (entries : Entries) : Prop where
  keys : (entries.map Prod.fst).Nodup
  nodes : ∀ entry ∈ entries, entry.2.HasDistinctKeys

theorem hasDistinctKeys_entriesToTable {entries : Entries}
    : (Value.table (entriesToTable entries)).HasDistinctKeys ↔ entries.AreDistinct := by
  have keys : (entriesToTable entries).map Prod.fst = entries.map Prod.fst := by
    rw [entriesToTable_eq_map, List.map_map]
    rfl
  rw [hasDistinctKeys_table, keys, entriesToTable_eq_map, List.forall_mem_map]
  exact ⟨fun ⟨keys, nodes⟩ => ⟨keys, nodes⟩, fun ⟨keys, nodes⟩ => ⟨keys, nodes⟩⟩

theorem hasDistinctKeys_tables {elements : List Entries}
    : (Node.tables elements).HasDistinctKeys ↔ ∀ entries ∈ elements, entries.AreDistinct := by
  rw [Node.HasDistinctKeys, Node.toValue, hasDistinctKeys_array, elementsToValues_eq_map,
    List.forall_mem_map]
  simp only [hasDistinctKeys_entriesToTable]

namespace Entries

variable {entries changed inner : Entries} {made origin : Origin}

theorem areDistinct_nil : AreDistinct [] := ⟨List.nodup_nil, List.forall_mem_nil _⟩

theorem AreDistinct.put (distinct : entries.AreDistinct) (key : String) {node : Node}
    (inside : node.HasDistinctKeys) : (entries.put key node).AreDistinct := by
  rw [Entries.put]
  split
  · have keys : (renew entries key node).map Prod.fst = entries.map Prod.fst := keys_renew
    refine ⟨keys ▸ distinct.keys, fun entry here => ?_⟩
    obtain rfl | before := mem_renew here
    · exact inside
    · exact distinct.nodes entry before
  · rename_i unknown
    have absent : key ∉ entries.map Prod.fst := fun here => unknown (isSome_lookup_iff.mpr here)
    refine ⟨?_, fun entry here => ?_⟩
    · rw [List.map_append]
      exact List.nodup_append_comm.mp (List.nodup_cons.mpr ⟨absent, distinct.keys⟩)
    · obtain before | last := List.mem_append.mp here
      · exact distinct.nodes entry before
      · rw [List.mem_singleton.mp last]
        exact inside

theorem AreDistinct.putTable (distinct : entries.AreDistinct) (key : String)
    (inside : inner.AreDistinct) : (entries.put key (.table origin inner)).AreDistinct :=
  distinct.put key (hasDistinctKeys_entriesToTable.mpr inside)

theorem AreDistinct.putElement (distinct : entries.AreDistinct) (key : String)
    {front : List Entries} (before : ∀ entries ∈ front, entries.AreDistinct)
    (inside : inner.AreDistinct) : (entries.put key (.tables (front ++ [inner]))).AreDistinct := by
  refine distinct.put key (hasDistinctKeys_tables.mpr fun element here => ?_)
  obtain first | last := List.mem_append.mp here
  · exact before element first
  · rw [List.mem_singleton.mp last]
    exact inside

theorem AreDistinct.table (distinct : entries.AreDistinct) {key : String}
    (found : entries.lookup key = some (.table origin inner)) : inner.AreDistinct :=
  hasDistinctKeys_entriesToTable.mp (distinct.nodes _ (mem_of_lookup found))

theorem AreDistinct.elements (distinct : entries.AreDistinct) {key : String}
    {elements : List Entries} (found : entries.lookup key = some (.tables elements))
    : ∀ entries ∈ elements, entries.AreDistinct :=
  hasDistinctKeys_tables.mp (distinct.nodes _ (mem_of_lookup found))

/-- By induction on the names that lead to the table that is changed. -/
theorem AreDistinct.within {change : Origin → Entries → Except Refusal Entries}
    (keeps
      : ∀ {origin entries changed},
          AreDistinct entries → change origin entries = .ok changed → changed.AreDistinct)
    {path : List String} (distinct : entries.AreDistinct)
    (done : entries.within made change path origin = .ok changed) : changed.AreDistinct := by
  induction path generalizing origin entries changed with
  | nil => exact keeps distinct done
  | cons name path ih =>
      rw [Entries.within] at done
      split at done
      · obtain ⟨inner, led, put⟩ := bind_eq_ok_iff.mp done
        cases put
        exact distinct.putTable name (ih areDistinct_nil led)
      · rename_i found
        split at done
        · cases done
        · obtain ⟨inner, led, put⟩ := bind_eq_ok_iff.mp done
          cases put
          exact distinct.putTable name (ih (distinct.table found) led)
      · rename_i elements found
        have before := distinct.elements found
        have last : AreDistinct (elements.getLastD []) := by
          rw [List.getLastD_eq_getLast?]
          cases ends : elements.getLast? with
          | none => exact areDistinct_nil
          | some element => exact before element (List.mem_of_getLast? ends)
        obtain ⟨inner, led, put⟩ := bind_eq_ok_iff.mp done
        cases put
        refine distinct.putElement name (fun element here => ?_) (ih last led)
        exact before element (elements.dropLast_subset here)
      · cases done

theorem AreDistinct.assign {assignment : Assignment} (inside : assignment.value.HasDistinctKeys)
    (distinct : entries.AreDistinct) (done : entries.assign assignment = .ok changed)
    : changed.AreDistinct := by
  refine distinct.within (fun distinct done => ?_) done
  split at done
  · cases done
  · split at done
    · cases done
    · cases done
      exact distinct.put _ inside

/-- By induction on the assignments. -/
theorem AreDistinct.assignAll {assignments : List Assignment}
    (inside : ∀ assignment ∈ assignments, assignment.value.HasDistinctKeys)
    (distinct : entries.AreDistinct) (done : entries.assignAll assignments = .ok changed)
    : changed.AreDistinct := by
  induction assignments generalizing entries with
  | nil =>
      cases done
      exact distinct
  | cons first rest ih =>
      obtain ⟨inside, others⟩ := List.forall_mem_cons.mp inside
      obtain ⟨middle, assigned, done⟩ := bind_eq_ok_iff.mp done
      exact ih others (distinct.assign inside assigned) done

theorem AreDistinct.define {part : Section}
    (inside : ∀ assignment ∈ part.assignments, assignment.value.HasDistinctKeys)
    (distinct : entries.AreDistinct) (done : entries.define part = .ok changed)
    : changed.AreDistinct := by
  rw [Entries.define] at done
  split at done
  · refine distinct.within (fun distinct done => ?_) done
    rw [openTable] at done
    split at done
    · obtain ⟨inner, assigned, put⟩ := bind_eq_ok_iff.mp done
      cases put
      exact distinct.putTable _ (areDistinct_nil.assignAll inside assigned)
    · rename_i found
      obtain ⟨inner, assigned, put⟩ := bind_eq_ok_iff.mp done
      cases put
      exact distinct.putTable _ ((distinct.table found).assignAll inside assigned)
    · cases done
  · refine distinct.within (fun distinct done => ?_) done
    rw [openElement] at done
    split at done
    · obtain ⟨inner, assigned, put⟩ := bind_eq_ok_iff.mp done
      cases put
      exact distinct.putElement _ (List.forall_mem_nil _)
        (areDistinct_nil.assignAll inside assigned)
    · rename_i found
      obtain ⟨inner, assigned, put⟩ := bind_eq_ok_iff.mp done
      cases put
      exact distinct.putElement _ (distinct.elements found)
        (areDistinct_nil.assignAll inside assigned)
    · cases done

end Entries

-----------------------------------------------------------------------------------------
-- Readings
-----------------------------------------------------------------------------------------

/-- Whatever is read has a property. -/
def Reads {α : Type} (property : α → Prop) (reader : List Char → Reading α) : Prop :=
  ∀ {text value rest}, reader text = .ok (value, rest) → property value

/-- By induction on the text that is left. -/
theorem reads_items {property : Value → Prop} {item : List Char → Reading Value}
    (reads : Reads property item)
    : Reads (fun values => ∀ value ∈ values, property value) (items item) := by
  intro text values rest done
  fun_induction items item text generalizing values rest with
  | case1 | case3 | case4 | case7 | case8 => cases done
  | case2 =>
      cases done
      exact List.forall_mem_nil _
  | case5 text start _ _ value behind read =>
      cases done
      exact List.forall_mem_singleton.mpr (reads read)
  | case6 text start _ _ value behind read _ _ _ ih =>
      obtain ⟨others, read', same⟩ := map_eq_ok_iff.mp done
      cases same
      exact List.forall_mem_cons.mpr ⟨reads read, ih read'⟩

theorem reads_assignment {property : Value → Prop}
    {skip : List Char → Except Refusal (List Char)} {item : List Char → Reading Value}
    (reads : Reads property item)
    : Reads (fun first => property first.value) (assignment skip item) := by
  intro text first rest done
  obtain ⟨_, _, done⟩ := bind_eq_ok_iff.mp done
  obtain ⟨_, _, done⟩ := bind_eq_ok_iff.mp done
  obtain ⟨_, _, done⟩ := bind_eq_ok_iff.mp done
  obtain ⟨_, _, done⟩ := bind_eq_ok_iff.mp done
  obtain ⟨_, read, done⟩ := bind_eq_ok_iff.mp done
  cases done
  exact reads read

/-- By induction on the text that is left. -/
theorem reads_assignments {property : Value → Prop} {item : List Char → Reading Value}
    (reads : Reads property item)
    : Reads (fun entries => ∀ entry ∈ entries, property entry.value) (assignments item) := by
  intro text entries rest done
  fun_induction assignments item text generalizing entries rest with
  | case1 | case3 | case4 | case7 | case8 => cases done
  | case2 =>
      cases done
      exact List.forall_mem_nil _
  | case5 text start _ _ first behind read =>
      cases done
      exact List.forall_mem_singleton.mpr (reads_assignment reads read)
  | case6 text start _ _ first behind read _ _ _ ih =>
      obtain ⟨others, read', same⟩ := map_eq_ok_iff.mp done
      cases same
      exact List.forall_mem_cons.mpr ⟨reads_assignment reads read, ih read'⟩

/-- A value that is neither a table nor an array. -/
def Value.IsSingle : Value → Prop
  | .table _ | .array _ => False
  | _ => True

theorem Value.IsSingle.hasDistinctKeys {value : Value} (single : value.IsSingle)
    : value.HasDistinctKeys := by
  intro table inside
  cases inside <;> cases single

theorem isSingle_of_number {text : List Char} {value : Value} (read : number? text = some value)
    : value.IsSingle := by
  have based {base : Nat} {isDigit : Char → Bool} {digits : List Char}
      (read : based? base isDigit digits = some value)
      : value.IsSingle := by
    rw [based?.eq_def] at read
    split at read
    · cases read
      trivial
    · obtain ⟨run, _, rfl⟩ := Option.map_eq_some_iff.mp read
      trivial
  rw [number?.eq_def] at read
  split at read
  · exact based read
  · exact based read
  · exact based read
  · split at read
    · cases read
      trivial
    · cases read
      trivial
    · split at read
      · obtain ⟨real, _, rfl⟩ := Option.map_eq_some_iff.mp read
        trivial
      · rw [whole?] at read
        split at read
        · cases read
          trivial
        · split at read
          · cases read
            trivial
          · cases read

theorem isSingle_of_bareValue {text : List Char} {value : Value}
    (read : bareValue? text = some value) : value.IsSingle := by
  rw [bareValue?] at read
  split at read
  · cases read
    trivial
  · split at read
    · cases read
      trivial
    · split at read
      · obtain ⟨moment, _, rfl⟩ := Option.map_eq_some_iff.mp read
        trivial
      · obtain ⟨moment, _, rfl⟩ := Option.map_eq_some_iff.mp read
        trivial
      · exact isSingle_of_number read

theorem reads_simpleValue : Reads Value.IsSingle simpleValue := by
  intro text value rest done
  have quoted {read : Reading String}
      (done : read.map (fun read => (Value.text read.1, read.2)) = .ok (value, rest))
      : value.IsSingle := by
    obtain ⟨_, _, same⟩ := map_eq_ok_iff.mp done
    cases same
    trivial
  simp only [simpleValue] at done
  split at done
  · exact quoted done
  · exact quoted done
  · exact quoted done
  · exact quoted done
  · simp only [bareValue] at done
    split at done
    · rename_i read
      cases done
      exact isSingle_of_bareValue read
    · cases done

/-- By induction on the nesting that is allowed. -/
theorem reads_value (nesting : Nat) : Reads Value.HasDistinctKeys (value nesting) := by
  induction nesting with
  | zero =>
      intro text read rest done
      simp only [value] at done
      split at done
      · cases done
      · cases done
      · exact (reads_simpleValue done).hasDistinctKeys
  | succ nesting ih =>
      intro text read rest done
      simp only [value] at done
      split at done
      · obtain ⟨values, items, same⟩ := map_eq_ok_iff.mp done
        cases same
        exact hasDistinctKeys_array.mpr (reads_items ih items)
      · split at done
        · cases done
        · rename_i entries behind assigned
          obtain ⟨table, defined, same⟩ := map_eq_ok_iff.mp done
          cases same
          obtain ⟨inner, made, rfl⟩ := map_eq_ok_iff.mp defined
          exact hasDistinctKeys_entriesToTable.mpr
            (Entries.areDistinct_nil.assignAll (reads_assignments ih assigned) made)
      · exact (reads_simpleValue done).hasDistinctKeys

-----------------------------------------------------------------------------------------
-- Documents
-----------------------------------------------------------------------------------------

/-- The value of a statement, if it has one, names no key twice. -/
def Statement.HasDistinctKeys : Statement → Prop
  | .header _ => True
  | .assignment first => first.value.HasDistinctKeys

theorem hasDistinctKeys_of_statement {text rest : List Char} {first : Statement}
    (done : statement text = .ok (first, rest)) : first.HasDistinctKeys := by
  rw [statement.eq_def] at done
  split at done
  · obtain ⟨_, _, done⟩ := bind_eq_ok_iff.mp done
    obtain ⟨_, _, done⟩ := bind_eq_ok_iff.mp done
    obtain ⟨_, _, done⟩ := bind_eq_ok_iff.mp done
    cases done
    trivial
  · obtain ⟨_, _, done⟩ := bind_eq_ok_iff.mp done
    obtain ⟨_, _, done⟩ := bind_eq_ok_iff.mp done
    cases done
    trivial
  · obtain ⟨_, read, done⟩ := bind_eq_ok_iff.mp done
    cases done
    exact reads_assignment (reads_value maxNesting) read

/-- By induction on the text that is left. -/
theorem hasDistinctKeys_of_statements {text : List Char} {all : List Statement}
    (done : statements text = .ok all) : ∀ first ∈ all, first.HasDistinctKeys := by
  fun_induction statements text generalizing all with
  | case1 | case3 | case4 | case6 => cases done
  | case2 =>
      cases done
      exact List.forall_mem_nil _
  | case5 text start _ _ first behind read _ _ _ ih =>
      obtain ⟨others, read', same⟩ := map_eq_ok_iff.mp done
      cases same
      exact List.forall_mem_cons.mpr ⟨hasDistinctKeys_of_statement read, ih read'⟩

/-- By induction on the statements. -/
theorem hasDistinctKeys_sections {all : List Statement}
    (distinct : ∀ first ∈ all, first.HasDistinctKeys)
    : (∀ assignment ∈ (sections all).1, assignment.value.HasDistinctKeys)
      ∧ ∀ part ∈ (sections all).2,
          ∀ assignment ∈ part.assignments, assignment.value.HasDistinctKeys := by
  induction all with
  | nil => exact ⟨List.forall_mem_nil _, List.forall_mem_nil _⟩
  | cons first rest ih =>
      obtain ⟨here, others⟩ := List.forall_mem_cons.mp distinct
      obtain ⟨before, parts⟩ := ih others
      cases first with
      | assignment first => exact ⟨List.forall_mem_cons.mpr ⟨here, before⟩, parts⟩
      | header header =>
          exact ⟨List.forall_mem_nil _, List.forall_mem_cons.mpr ⟨before, parts⟩⟩

/-- By induction on the sections. -/
theorem Entries.AreDistinct.defineAll {entries changed : Entries} {parts : List Section}
    (inside : ∀ part ∈ parts, ∀ assignment ∈ part.assignments, assignment.value.HasDistinctKeys)
    (distinct : entries.AreDistinct) (done : parts.foldlM Entries.define entries = .ok changed)
    : changed.AreDistinct := by
  induction parts generalizing entries with
  | nil =>
      cases done
      exact distinct
  | cons part rest ih =>
      obtain ⟨here, others⟩ := List.forall_mem_cons.mp inside
      obtain ⟨middle, opened, done⟩ := bind_eq_ok_iff.mp done
      exact ih others (distinct.define here opened) done

/-- No table of a document, or inside it, names a key twice. -/
theorem hasDistinctKeys_of_parse {text : String} {table : Table} (done : parse text = .ok table)
    : (Value.table table).HasDistinctKeys := by
  obtain ⟨all, read, done⟩ := bind_eq_ok_iff.mp done
  obtain ⟨top, assigned, done⟩ := bind_eq_ok_iff.mp done
  obtain ⟨entries, defined, done⟩ := bind_eq_ok_iff.mp done
  cases done
  obtain ⟨before, parts⟩ := hasDistinctKeys_sections (hasDistinctKeys_of_statements read)
  have distinct : top.AreDistinct := Entries.areDistinct_nil.assignAll before assigned
  exact hasDistinctKeys_entriesToTable.mpr (distinct.defineAll parts defined)

/-- What a reader of documents is relied on for: no table that it reads, nor a table inside it,
names a key twice. -/
structure IsReader (read : Reader) : Prop where
  distinct : ∀ text table, read text = .ok table → (Value.table table).HasDistinctKeys

theorem isReader_parse
    : IsReader parse :=
  ⟨fun _ _ => hasDistinctKeys_of_parse⟩

end Toml

end PacketBus
