import Mathlib.Data.Set.Card
import PacketBus.Command
import PacketBus.Proofs.Lookup

/-! A table of names is a map with room for so many commands.
One registration either renames a command in its place, or takes a free place, or is refused; what
several of them leave follows by induction. Any map that keeps the names shows the same.
-/

namespace PacketBus

namespace NameTable

variable {names named : NameTable} {command : UInt8} {name : String}

-----------------------------------------------------------------------------------------
-- One registration
-----------------------------------------------------------------------------------------

/-- The commands that are named. -/
def commands (names : NameTable) : List UInt8 := names.entries.map Prod.fst

theorem isSome_name?_iff : (names.name? command).isSome ↔ command ∈ names.commands :=
  isSome_lookup_iff

theorem size_eq_length_commands (names : NameTable) : names.size = names.commands.length :=
  List.length_map _ |>.symm

theorem size_of_same_commands (kept : named.commands = names.commands)
    : named.size = names.size := by
  rw [size_eq_length_commands, kept, size_eq_length_commands]

theorem size_of_further_command (added : named.commands = names.commands ++ [command])
    : named.size = names.size + 1 := by
  rw [size_eq_length_commands, added, List.length_append, size_eq_length_commands,
    List.length_singleton]

/-- The command has the name, and the other commands have theirs. -/
def IsNamed (names : NameTable) (command : UInt8) (name : String) (named : NameTable) : Prop :=
  ∀ other, named.name? other = if other = command then some name else names.name? other

/-- What a registration may come to. -/
inductive Registers (names : NameTable) (command : UInt8) (name : String)
    : Except Full NameTable → Prop where
  /-- A command that has a name keeps its place. -/
  | renamed (named : NameTable) (known : (names.name? command).isSome)
      (isNamed : names.IsNamed command name named) (commands_eq : named.commands = names.commands)
      (capacity_eq : named.capacity = names.capacity)
      : Registers names command name (.ok named)
  /-- A new command comes behind all others. -/
  | added (named : NameTable) (new : names.name? command = none)
      (room : names.size < names.capacity) (isNamed : names.IsNamed command name named)
      (commands_eq : named.commands = names.commands ++ [command])
      (capacity_eq : named.capacity = names.capacity)
      : Registers names command name (.ok named)
  | refused (new : names.name? command = none) (full : names.capacity ≤ names.size)
      : Registers names command name (.error .full)

theorem registers_insert (names : NameTable) (command : UInt8) (name : String)
    : names.Registers command name (names.insert command name) := by
  rw [insert]
  split
  · rename_i known
    refine .renamed _ known ?_ keys_renew rfl
    intro other
    obtain ⟨old, found⟩ := Option.isSome_iff_exists.mp known
    rw [name?] at found
    refine (lookup_renew other).trans ?_
    rw [found, Option.map_some]
    rfl
  · rename_i unknown
    have new := Option.not_isSome_iff_eq_none.mp unknown
    split
    · rename_i room
      refine .added _ new room ?_ ?_ rfl
      · intro other
        rw [name?, List.lookup_append, List.lookup_cons, List.lookup_nil]
        by_cases same : other = command
        · subst same
          rw [name?] at new
          simp [new]
        · simp [same, beq_eq_false_iff_ne.mpr same, name?]
      · rw [commands, List.map_append]
        rfl
    · rename_i none
      exact .refused new (Nat.not_lt.mp none)

theorem insert_eq_full_iff
    : names.insert command name = .error .full
      ↔ names.name? command = none ∧ names.capacity ≤ names.size := by
  have outcome := names.registers_insert command name
  generalize names.insert command name = result at outcome
  cases outcome with
  | renamed _ known => simp [Option.isSome_iff_ne_none.mp known]
  | added _ _ room => simp [room]
  | refused new full => simp [new, full]

theorem insert_of_named (known : (names.name? command).isSome)
    : ∃ named, names.insert command name = .ok named ∧ names.IsNamed command name named
        ∧ named.size = names.size := by
  have outcome := names.registers_insert command name
  generalize names.insert command name = result at outcome
  cases outcome with
  | renamed named _ isNamed kept => exact ⟨named, rfl, isNamed, size_of_same_commands kept⟩
  | added _ new => exact absurd new (Option.isSome_iff_ne_none.mp known)
  | refused new => exact absurd new (Option.isSome_iff_ne_none.mp known)

-----------------------------------------------------------------------------------------
-- Several registrations
-----------------------------------------------------------------------------------------

/-- The table behind a registration, whether it is refused or not. -/
def register (names : NameTable) (call : UInt8 × String) : NameTable :=
  match names.insert call.1 call.2 with
  | .ok named => named
  | .error _ => names

/-- The table behind several registrations. -/
def registerAll (names : NameTable) (calls : List (UInt8 × String)) : NameTable :=
  calls.foldl register names

/-- The registrations that are not refused, in their order. -/
def accepted (names : NameTable) : List (UInt8 × String) → List (UInt8 × String)
  | [] => []
  | call :: calls =>
      match names.insert call.1 call.2 with
      | .ok named => call :: named.accepted calls
      | .error _ => names.accepted calls

theorem register_of_taken (taken : names.insert command name = .ok named)
    : names.register (command, name) = named := by
  simp only [register, taken]

theorem register_of_refused {cause : Full} (refused : names.insert command name = .error cause)
    : names.register (command, name) = names := by
  simp only [register, refused]

/-- No command is named twice, and there is a place for each. -/
structure IsSound (names : NameTable) : Prop where
  distinct : names.commands.Nodup
  within : names.size ≤ names.capacity

theorem isSound_ofCapacity {capacity : Nat} (room : 0 < capacity)
    : (ofCapacity capacity).IsSound :=
  ⟨List.nodup_singleton _, room⟩

/-- A sound table with as many places and no fewer names. -/
structure Grows (names named : NameTable) : Prop where
  isSound : named.IsSound
  capacity_eq : named.capacity = names.capacity
  size_le : names.size ≤ named.size

theorem IsSound.register (sound : names.IsSound) (call : UInt8 × String)
    : names.Grows (names.register call) := by
  have outcome := names.registers_insert call.1 call.2
  rw [NameTable.register]
  generalize names.insert call.1 call.2 = result at outcome
  cases outcome with
  | refused => exact ⟨sound, rfl, Nat.le_refl _⟩
  | renamed named _ _ kept room =>
      have same := size_of_same_commands kept
      refine ⟨⟨kept ▸ sound.distinct, ?_⟩, room, same.ge⟩
      rw [same, room]
      exact sound.within
  | added named new free _ added room =>
      have more := size_of_further_command added
      have absent : call.1 ∉ names.commands := by
        rw [← isSome_name?_iff, new]
        exact Bool.false_ne_true
      refine ⟨⟨?_, ?_⟩, room, ?_⟩
      · rw [added]
        exact List.nodup_append_comm.mp (List.nodup_cons.mpr ⟨absent, sound.distinct⟩)
      · rw [more, room]
        exact free
      · rw [more]
        exact Nat.le_succ _

/-- By induction on the registrations. -/
theorem IsSound.registerAll (sound : names.IsSound) (calls : List (UInt8 × String))
    : names.Grows (names.registerAll calls) := by
  induction calls generalizing names with
  | nil => exact ⟨sound, rfl, Nat.le_refl _⟩
  | cons call calls ih =>
      have first := sound.register call
      have rest := ih first.isSound
      exact ⟨rest.isSound, rest.capacity_eq.trans first.capacity_eq,
        first.size_le.trans rest.size_le⟩

theorem isNamed_of_taken (taken : names.insert command name = .ok named)
    : names.IsNamed command name named := by
  have outcome := names.registers_insert command name
  rw [taken] at outcome
  cases outcome with
  | renamed _ _ isNamed => exact isNamed
  | added _ _ _ isNamed => exact isNamed

/-- A command has the name of the last registration of it that was not refused, or else the one that
it had before all of them, by induction on the registrations. -/
theorem name?_registerAll (names : NameTable) (calls : List (UInt8 × String)) (command : UInt8)
    : (names.registerAll calls).name? command
      = ((names.accepted calls).reverse.lookup command).or (names.name? command) := by
  induction calls generalizing names with
  | nil => rfl
  | cons call calls ih =>
      obtain ⟨first, name⟩ := call
      change ((names.register (first, name)).registerAll calls).name? command = _
      rw [ih, accepted]
      cases outcome : names.insert first name with
      | error _ => rw [register_of_refused outcome]
      | ok named =>
          rw [register_of_taken outcome, isNamed_of_taken outcome command]
          simp only [List.reverse_cons, List.lookup_append, Option.or_assoc]
          by_cases same : command = first
          · simp [same]
          · simp [same, List.lookup_cons, beq_eq_false_iff_ne.mpr same]

theorem name?_ofCapacity (capacity : Nat) (command : UInt8)
    : (ofCapacity capacity).name? command = Command.baseName? command := by
  rw [name?, ofCapacity, List.lookup_cons, List.lookup_nil, Command.baseName?]
  by_cases same : command = Command.ping
  · simp [same]
  · simp [same, beq_eq_false_iff_ne.mpr same]

/-- The size counts the commands that have a name. -/
theorem IsSound.size_eq_ncard (sound : names.IsSound)
    : names.size = {command | (names.name? command).isSome}.ncard := by
  have members
      : {command | (names.name? command).isSome} = (names.commands.toFinset : Set UInt8) := by
    simp only [isSome_name?_iff, List.coe_toFinset]
  rw [members, Set.ncard_coe_finset, List.toFinset_card_of_nodup sound.distinct,
    size_eq_length_commands]

end NameTable

-----------------------------------------------------------------------------------------
-- Any map that keeps the names
-----------------------------------------------------------------------------------------

/-- What is asked of a map that keeps the names of commands. An insertion tells whether the entry
was taken, and leaves a map in either case. -/
class NameMap (M : Type) where
  empty : M
  insert : M → UInt8 → String → Bool × M
  get? : M → UInt8 → Option String
  size : M → Nat

namespace NameMap

/-- A map takes up to so many keys and gives a key that it has a new value. An entry that is refused
leaves what the map shows as it is. -/
class IsBounded (M : Type) [NameMap M] (room : outParam Nat) : Prop where
  get?_empty (key : UInt8) : get? (empty : M) key = none
  size_empty : size (empty : M) = 0
  insert_taken (map : M) (key : UInt8) (value : String)
    : (insert map key value).1 = ((get? map key).isSome || decide (size map < room))
  get?_insert (map : M) (key : UInt8) (value : String) (other : UInt8)
    : get? (insert map key value).2 other
      = if (insert map key value).1 ∧ other = key then some value else get? map other
  size_insert (map : M) (key : UInt8) (value : String)
    : size (insert map key value).2
      = if (insert map key value).1 ∧ get? map key = none then size map + 1 else size map

/-- The map of a new table. -/
def seeded {M : Type} [NameMap M] : M := (insert empty Command.ping "PING").2

/-- The map behind several registrations. -/
def registerAll {M : Type} [NameMap M] (map : M) (calls : List (UInt8 × String)) : M :=
  calls.foldl (fun map call => (insert map call.1 call.2).2) map

/-- The map shows what the table does. -/
structure Shows {M : Type} [NameMap M] (map : M) (names : NameTable) : Prop where
  get?_eq (command : UInt8) : get? map command = names.name? command
  size_eq : size map = names.size

variable {M : Type} [NameMap M] {room : Nat} [IsBounded M room] {map : M} {names : NameTable}

theorem shows_seeded (some : 0 < room) : Shows (seeded : M) (NameTable.ofCapacity room) := by
  have taken : (insert (empty : M) Command.ping "PING").1 = true := by
    rw [IsBounded.insert_taken, IsBounded.size_empty, decide_eq_true some, Bool.or_true]
  refine ⟨fun command => ?_, ?_⟩
  · rw [seeded, IsBounded.get?_insert, taken, IsBounded.get?_empty, NameTable.name?_ofCapacity,
      Command.baseName?]
    simp only [true_and]
  · rw [seeded, IsBounded.size_insert, taken, IsBounded.get?_empty, IsBounded.size_empty]
    rfl

/-- A map and a table that show the same take the same registrations and show the same behind
them. -/
theorem Shows.insert (shows : Shows map names) (bounded : names.capacity = room) (command : UInt8)
    (name : String)
    : (insert map command name).1 = (names.insert command name).isOk
      ∧ Shows (insert map command name).2 (names.register (command, name)) := by
  have taken := IsBounded.insert_taken map command name
  have seen := IsBounded.get?_insert map command name
  have counted := IsBounded.size_insert map command name
  rw [shows.get?_eq, shows.size_eq, ← bounded] at taken
  simp only [shows.get?_eq, shows.size_eq] at seen counted
  have outcome := names.registers_insert command name
  rw [NameTable.register]
  generalize names.insert command name = result at outcome
  cases outcome with
  | renamed named known isNamed kept =>
      rw [known, Bool.true_or] at taken
      refine ⟨taken, fun other => ?_, ?_⟩
      · simp only [seen, taken, true_and, isNamed other]
      · rw [counted, if_neg fun new => Option.isSome_iff_ne_none.mp known new.2,
          NameTable.size_of_same_commands kept]
  | added named new free isNamed added =>
      rw [new, Option.isSome_none, Bool.false_or, decide_eq_true free] at taken
      refine ⟨taken, fun other => ?_, ?_⟩
      · simp only [seen, taken, true_and, isNamed other]
      · rw [counted, if_pos ⟨taken, new⟩, NameTable.size_of_further_command added]
  | refused new full =>
      rw [new, Option.isSome_none, Bool.false_or, decide_eq_false (Nat.not_lt.mpr full)] at taken
      refine ⟨taken, fun other => ?_, ?_⟩
      · simp only [seen, taken, Bool.false_eq_true, false_and, if_false]
      · simp only [counted, taken, Bool.false_eq_true, false_and, if_false]

/-- By induction on the registrations. -/
theorem Shows.registerAll (shows : Shows map names) (sound : names.IsSound)
    (bounded : names.capacity = room) (calls : List (UInt8 × String))
    : Shows (registerAll map calls) (names.registerAll calls) := by
  induction calls generalizing map names with
  | nil => exact shows
  | cons call calls ih =>
      have grows := sound.register call
      exact ih (shows.insert bounded call.1 call.2).2 grows.isSound
        (grows.capacity_eq.trans bounded)

/-- The entries of a table with so many places. -/
structure Slots (room : Nat) where
  entries : List (UInt8 × String)

def Slots.table {room : Nat} (slots : Slots room) : NameTable := ⟨room, slots.entries⟩

instance {room : Nat} : NameMap (Slots room) where
  empty := ⟨[]⟩
  insert slots key value :=
    match slots.table.insert key value with
    | .ok named => (true, ⟨named.entries⟩)
    | .error _ => (false, slots)
  get? slots key := slots.table.name? key
  size slots := slots.table.size

/-- A table is itself a map of this kind. -/
instance {room : Nat} : IsBounded (Slots room) room where
  get?_empty _ := rfl
  size_empty := rfl
  insert_taken slots key value := by
    have outcome := slots.table.registers_insert key value
    simp only [insert, get?, size]
    generalize slots.table.insert key value = result at outcome
    cases outcome with
    | renamed _ known => simp [known]
    | added _ new free => simpa [new] using (show slots.table.size < room from free)
    | refused new full => simpa [new] using (show room ≤ slots.table.size from full)
  get?_insert slots key value other := by
    have outcome := slots.table.registers_insert key value
    simp only [insert, get?]
    generalize slots.table.insert key value = result at outcome
    cases outcome with
    | renamed _ _ isNamed => exact (isNamed other).trans (by simp)
    | added _ _ _ isNamed => exact (isNamed other).trans (by simp)
    | refused => simp
  size_insert slots key value := by
    have outcome := slots.table.registers_insert key value
    simp only [insert, get?, size]
    generalize slots.table.insert key value = result at outcome
    cases outcome with
    | renamed _ known _ kept =>
        exact (NameTable.size_of_same_commands kept).trans
          (by simp [Option.isSome_iff_ne_none.mp known])
    | added _ new _ _ added => exact (NameTable.size_of_further_command added).trans (by simp [new])
    | refused => simp

end NameMap

namespace NameTable

/-- A command has the name that its last registration has given it, of those that were not refused,
and else the one that every device knows. A registration is refused exactly if the command is new
and all places are taken, and then nothing is changed; a command that has a name is always renamed.
The size is how many commands are named, at least one and at most as many as there are places.
Whatever map keeps the names takes the same registrations and shows the same. -/
theorem names_are_a_bounded_map {capacity : Nat} (room : 0 < capacity)
    (calls : List (UInt8 × String))
    : let names := (ofCapacity capacity).registerAll calls
      (∀ command,
          names.name? command
            = (((ofCapacity capacity).accepted calls).reverse.lookup command).or
                (Command.baseName? command))
        ∧ (∀ command name,
            names.insert command name = .error .full
              ↔ names.name? command = none ∧ names.size = capacity)
        ∧ (∀ command name,
            names.insert command name = .error .full → names.register (command, name) = names)
        ∧ (∀ command name,
            (names.name? command).isSome
              → ∃ renamed, names.insert command name = .ok renamed
                  ∧ names.IsNamed command name renamed ∧ renamed.size = names.size)
        ∧ names.size = {command | (names.name? command).isSome}.ncard
        ∧ 1 ≤ names.size ∧ names.size ≤ capacity
        ∧ ∀ (M : Type) [NameMap M] [NameMap.IsBounded M capacity],
            let kept : M := NameMap.registerAll NameMap.seeded calls
            NameMap.Shows kept names
              ∧ ∀ command name,
                  (NameMap.insert kept command name).1 = (names.insert command name).isOk
                    ∧ NameMap.Shows (NameMap.insert kept command name).2
                        (names.register (command, name)) := by
  intro names
  have start := isSound_ofCapacity room
  obtain ⟨sound, places, more⟩ := start.registerAll calls
  change names.capacity = capacity at places
  have within : names.size ≤ capacity := places ▸ sound.within
  refine ⟨?_, ?_, ?_, ?_, sound.size_eq_ncard, more, within, ?_⟩
  · intro command
    rw [name?_registerAll, name?_ofCapacity]
  · intro command name
    rw [insert_eq_full_iff, places]
    exact and_congr_right fun _ => ⟨within.antisymm, Eq.ge⟩
  · exact fun command name refused => register_of_refused refused
  · exact fun command name known => insert_of_named known
  · intro M _ _ kept
    have shows : NameMap.Shows kept names :=
      (NameMap.shows_seeded room).registerAll start rfl calls
    exact ⟨shows, shows.insert places⟩

/-- A table of two places: the second command is named and fills it, a third one is refused, and
then the first and the second are renamed. -/
theorem names_are_a_bounded_map_of_a_full_table
    : let calls := [(0x10, "READ"), (0x11, "WRITE"), (Command.ping, "HELLO"), (0x10, "FETCH")]
      let names := (ofCapacity 2).registerAll calls
      (ofCapacity 2).accepted calls
          = [(0x10, "READ"), (Command.ping, "HELLO"), (0x10, "FETCH")]
        ∧ names.name? 0x10 = some "FETCH" ∧ names.name? Command.ping = some "HELLO"
        ∧ names.name? 0x11 = none
        ∧ names.insert 0x12 "RESET" = .error .full
        ∧ names.size = {command | (names.name? command).isSome}.ncard
        ∧ NameMap.Shows (NameMap.registerAll (NameMap.seeded : NameMap.Slots 2) calls) names := by
  intro calls names
  obtain ⟨named, refused, -, -, counted, -, -, maps⟩ :=
    names_are_a_bounded_map (show 0 < 2 by decide) calls
  have taken : (ofCapacity 2).accepted calls
      = [(0x10, "READ"), (Command.ping, "HELLO"), (0x10, "FETCH")] := by
    decide
  rw [taken] at named
  exact ⟨taken, named 0x10, named Command.ping, named 0x11,
    (refused 0x12 "RESET").mpr ⟨named 0x12, by decide⟩, counted, (maps (NameMap.Slots 2)).1⟩

end NameTable

end PacketBus
