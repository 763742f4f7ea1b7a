import PacketBus.Toml.Key
import PacketBus.Toml.Value

/-! Defining the tables of a document.
No name is defined twice: a table that a header or a dotted key has defined is never opened again by
a definition of another kind, and finished values are never added to.
-/

namespace PacketBus.Toml

/-- How a table came to be. -/
inductive Origin where
  /-- A header named a table inside it. -/
  | implied
  /-- A dotted key led through it. -/
  | dotted
  /-- A header named it, or it is the document itself. -/
  | defined
  deriving DecidableEq, Repr

/-- A part of a document that is still being defined. -/
inductive Node where
  | value (value : Value)
  | table (origin : Origin) (entries : List (String × Node))
  /-- Tables under one header, to the last of which further definitions belong. -/
  | tables (elements : List (List (String × Node)))
  deriving Repr

/-- The entries of a table that is being defined. -/
abbrev Entries := List (String × Node)

/-- Sets the node of a key, in the place it has or behind all others. -/
def Entries.put (entries : Entries) (key : String) (node : Node) : Entries :=
  if (entries.lookup key).isSome then
    entries.map fun entry => if entry.1 = key then (key, node) else entry
  else entries ++ [(key, node)]

/-- Changes the table that names lead to from a table of some origin. Missing tables on the way are
made with the origin `made`; a key may not lead through a table that a header has defined. -/
def Entries.within (made : Origin) (change : Origin → Entries → Except Refusal Entries)
    : List String → Origin → Entries → Except Refusal Entries
  | [], origin, entries => change origin entries
  | name :: path, _, entries =>
      match entries.lookup name with
      | none => do
          let inner ← within made change path made []
          return entries.put name (.table made inner)
      | some (.table origin inner) =>
          if made = .dotted ∧ origin = .defined then .error (.duplicateKey name)
          else do
            let inner ← within made change path origin inner
            return entries.put name (.table origin inner)
      | some (.tables elements) => do
          let inner ← within made change path .defined (elements.getLastD [])
          return entries.put name (.tables (elements.dropLast ++ [inner]))
      | some (.value _) => .error (.duplicateKey name)

/-- A value and the key it is assigned to. -/
structure Assignment where
  key : Key
  value : Value
  deriving Repr

/-- Adds a value under a key that is not defined yet. The table it goes to is one that only dotted
keys have made, or the table at hand if the key has a single name. -/
def Entries.assign (entries : Entries) (assignment : Assignment) : Except Refusal Entries :=
  let key := assignment.key
  let add (origin : Origin) (entries : Entries) : Except Refusal Entries :=
    if !key.parents.isEmpty && origin ≠ .dotted then .error (.duplicateKey key.last)
    else if (entries.lookup key.last).isSome then .error (.duplicateKey key.last)
    else .ok (entries.put key.last (.value assignment.value))
  entries.within .dotted add key.parents .defined

/-- Adds several values in order. -/
def Entries.assignAll (entries : Entries) (assignments : List Assignment)
    : Except Refusal Entries :=
  assignments.foldlM assign entries

/-- Which table a header opens. -/
inductive Header where
  /-- A table of its own. -/
  | table (key : Key)
  /-- A further table under a shared name. -/
  | element (key : Key)
  deriving DecidableEq, Repr

/-- A header and the assignments below it. -/
structure Section where
  header : Header
  assignments : List Assignment
  deriving Repr

/-- Defines the table of a header. A table that is only implied so far keeps what is in it. -/
def Entries.openTable (assignments : List Assignment) (name : String) (entries : Entries)
    : Except Refusal Entries := do
  match entries.lookup name with
  | none => return entries.put name (.table .defined (← assignAll [] assignments))
  | some (.table .implied inner) =>
      return entries.put name (.table .defined (← assignAll inner assignments))
  | some _ => .error (.duplicateKey name)

/-- Adds a table under a shared name. -/
def Entries.openElement (assignments : List Assignment) (name : String) (entries : Entries)
    : Except Refusal Entries := do
  match entries.lookup name with
  | none => return entries.put name (.tables [← assignAll [] assignments])
  | some (.tables elements) =>
      return entries.put name (.tables (elements ++ [← assignAll [] assignments]))
  | some _ => .error (.duplicateKey name)

/-- Defines what stands under one header. -/
def Entries.define (entries : Entries) (part : Section) : Except Refusal Entries :=
  match part.header with
  | .table key =>
      entries.within .implied (fun _ => openTable part.assignments key.last) key.parents .defined
  | .element key =>
      entries.within .implied (fun _ => openElement part.assignments key.last) key.parents
        .defined

mutual

/-- The value of a node once everything is defined. -/
def Node.toValue : Node → Value
  | .value value => value
  | .table _ entries => .table (entriesToTable entries)
  | .tables elements => .array (elementsToValues elements)

/-- The values of entries. -/
def entriesToTable : List (String × Node) → List (String × Value)
  | [] => []
  | (key, node) :: rest => (key, node.toValue) :: entriesToTable rest

/-- The values of tables under one header. -/
def elementsToValues : List (List (String × Node)) → List Value
  | [] => []
  | entries :: rest => .table (entriesToTable entries) :: elementsToValues rest

end

/-- A table from assignments alone, as braces hold them. -/
def tableOfAssignments (assignments : List Assignment) : Except Refusal Table :=
  (Entries.assignAll [] assignments).map entriesToTable

end PacketBus.Toml
