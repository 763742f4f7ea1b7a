import PacketBus.Proofs.Toml.Keys
import PacketBus.Settings.Host

/-! The fields that a document gives, and the settings they come to.
What a document holds under a key is told by the entries of its table, or by the places of an array,
and never by an order. Settings are read exactly if whatever is held gives a field, and they are the
defaults with the fields that are given put over them.
-/

namespace PacketBus

open Toml (Table Value)

-----------------------------------------------------------------------------------------
-- Fields put over settings
-----------------------------------------------------------------------------------------

namespace Settings

/-- Settings of a link, each of which may be missing. -/
structure LinkFields where
  debug? : Option Bool := none
  responseTimeout? : Option UInt32 := none
  retries? : Option UInt8 := none
  deriving DecidableEq, Repr

/-- Settings of the host tools, each of which may be missing. -/
structure HostFields where
  address? : Option String := none
  serial? : Option String := none
  baud? : Option UInt32 := none
  link? : Option LinkFields := none
  logFilter? : Option String := none
  deriving DecidableEq, Repr

end Settings

open Settings (LinkFields HostFields)

/-- The settings with the fields that are there put over them. -/
def LinkSettings.overlay (settings : LinkSettings) (fields : LinkFields) : LinkSettings where
  debug := fields.debug?.getD settings.debug
  responseTimeout := fields.responseTimeout?.getD settings.responseTimeout
  retries := fields.retries?.getD settings.retries

/-- The settings with the fields that are there put over them, inside the section of the link one by
one as well. -/
def HostSettings.overlay (settings : HostSettings) (fields : HostFields) : HostSettings where
  address := fields.address?.getD settings.address
  serial? := fields.serial?.or settings.serial?
  baud := fields.baud?.getD settings.baud
  link := fields.link?.elim settings.link settings.link.overlay
  logFilter := fields.logFilter?.getD settings.logFilter

-----------------------------------------------------------------------------------------
-- Values of a type
-----------------------------------------------------------------------------------------

namespace Toml.Value

/-- The value that a number of 32 bits is written as. -/
def ofWord32 (number : UInt32) : Value := .integer number.toNat

/-- The value that a number of 8 bits is written as. -/
def ofWord8 (number : UInt8) : Value := .integer number.toNat

variable {value : Value}

theorem text?_eq_some_iff {content : String}
    : value.text? = some content ↔ value = .text content := by
  cases value <;> simp [text?]

theorem boolean?_eq_some_iff {truth : Bool}
    : value.boolean? = some truth ↔ value = .boolean truth := by
  cases value <;> simp [boolean?]

theorem natBelow?_eq_some_iff {bound number : Nat}
    : value.natBelow? bound = some number ↔ number < bound ∧ value = .integer number := by
  cases value with
  | integer whole =>
      simp only [natBelow?, Option.ite_none_right_eq_some, Option.some.injEq, integer.injEq]
      omega
  | _ => simp [natBelow?]

theorem word32?_eq_some_iff {number : UInt32}
    : value.word32? = some number ↔ value = .ofWord32 number := by
  rw [word32?, Option.map_eq_some_iff]
  constructor
  · rintro ⟨whole, read, rfl⟩
    obtain ⟨small, rfl⟩ := natBelow?_eq_some_iff.mp read
    rw [ofWord32, UInt32.toNat_ofNat_of_lt' small]
  · rintro rfl
    exact ⟨number.toNat, natBelow?_eq_some_iff.mpr ⟨number.toNat_lt, rfl⟩, UInt32.ofNat_toNat⟩

theorem word8?_eq_some_iff {number : UInt8}
    : value.word8? = some number ↔ value = .ofWord8 number := by
  rw [word8?, Option.map_eq_some_iff]
  constructor
  · rintro ⟨whole, read, rfl⟩
    obtain ⟨small, rfl⟩ := natBelow?_eq_some_iff.mp read
    rw [ofWord8, UInt8.toNat_ofNat_of_lt' small]
  · rintro rfl
    exact ⟨number.toNat, natBelow?_eq_some_iff.mpr ⟨number.toNat_lt, rfl⟩, UInt8.ofNat_toNat⟩

end Toml.Value

namespace Settings

-----------------------------------------------------------------------------------------
-- One field
-----------------------------------------------------------------------------------------

/-- Nothing is held and the field is missing, or just the value is held that it is written as. -/
def Gives {α : Type} (held : Value → Prop) (write : α → Value) (field? : Option α) : Prop :=
  ∀ value, held value ↔ field?.map write = some value

variable {α β : Type} {held : Value → Prop} {write : α → Value} {found? : Option Value}

theorem gives_iff (found : ∀ value, found? = some value ↔ held value) {field? : Option α}
    : Gives held write field? ↔ found? = field?.map write := by
  rw [Option.ext_iff]
  exact forall_congr' fun value => by rw [found value]

/-- A field can be given if whatever is held is a value of its type. -/
theorem exists_gives_iff (found : ∀ value, found? = some value ↔ held value)
    : (∃ field?, Gives held write field?)
      ↔ ∀ value, held value → ∃ field, value = write field := by
  simp only [gives_iff found, ← found]
  cases found? with
  | none =>
      refine ⟨fun _ value none => ?_, fun _ => ⟨none, rfl⟩⟩
      cases none
  | some value =>
      constructor
      · rintro ⟨field?, written⟩ _ ⟨⟩
        cases field? with
        | none => cases written
        | some field => exact ⟨field, Option.some.inj written⟩
      · intro typed
        obtain ⟨field, written⟩ := typed value rfl
        exact ⟨some field, congrArg some written⟩

/-- A field is read exactly if it can be given, and one that is missing keeps its default. -/
theorem readField_eq_ok_iff {read? : Value → Option β} {lift : α → β}
    (reads
      : ∀ value result,
          read? value = some result ↔ ∃ field, value = write field ∧ lift field = result)
    {key : String} {default result : β}
    : readField key read? default found? = .ok result
      ↔ ∃ field? : Option α, found? = field?.map write
          ∧ (field?.map lift).getD default = result := by
  cases found? with
  | none =>
      constructor
      · intro done
        exact ⟨none, rfl, Except.ok.inj done⟩
      · rintro ⟨field?, missing, rfl⟩
        rw [Option.map_eq_none_iff.mp missing.symm]
        rfl
  | some value =>
      constructor
      · intro done
        rw [readField] at done
        cases read : read? value with
        | none =>
            rw [read] at done
            cases done
        | some value' =>
            rw [read] at done
            cases done
            obtain ⟨field, rfl, lifted⟩ := (reads _ _).mp read
            exact ⟨some field, rfl, lifted⟩
      · rintro ⟨field?, written, rfl⟩
        obtain ⟨field, rfl, rfl⟩ := Option.map_eq_some_iff.mp written.symm
        rw [readField, (reads _ (lift field)).mpr ⟨field, rfl, rfl⟩]
        rfl

theorem readField_of_reads {read? : Value → Option α}
    (reads : ∀ value field, read? value = some field ↔ value = write field)
    {key : String} {default result : α}
    : readField key read? default found? = .ok result
      ↔ ∃ field? : Option α, found? = field?.map write ∧ field?.getD default = result := by
  have lifted
      : readField key read? default found? = .ok result
        ↔ ∃ field? : Option α, found? = field?.map write
            ∧ (field?.map id).getD default = result :=
    readField_eq_ok_iff fun value field => (reads value field).trans (by simp)
  simpa only [Option.map_id, id_eq] using lifted

-----------------------------------------------------------------------------------------
-- The section of a link
-----------------------------------------------------------------------------------------

/-- What a section holds under a key: a table by its entries, an array by its items, which stand for
the keys in their order. -/
inductive Holds : Value → String → Value → Prop where
  | entry {entries : Table} {key : String} {value : Value} (here : (key, value) ∈ entries)
      : Holds (.table entries) key value
  | item {items : List Value} {place : Nat} {key : String} {value : Value}
      (named : LinkSettings.keys[place]? = some key) (here : items[place]? = some value)
      : Holds (.array items) key value

/-- A value that may be a section: a table, an array, or a moment, which holds nothing. -/
def IsSection : Value → Prop
  | .table _ | .array _ | .moment _ => True
  | _ => False

/-- Just these fields are held by a section. -/
structure LinkFields.AreIn (fields : LinkFields) (part : Value) : Prop where
  debug : Gives (Holds part "debug") .boolean fields.debug?
  responseTimeout : Gives (Holds part "response_timeout_ms") .ofWord32 fields.responseTimeout?
  retries : Gives (Holds part "max_retries") .ofWord8 fields.retries?

theorem holds_table {entries : Table} {key : String} {value : Value}
    : Holds (.table entries) key value ↔ (key, value) ∈ entries :=
  ⟨fun | .entry here => here, .entry⟩

theorem holds_array {items : List Value} {place : Nat} {key : String} {value : Value}
    (named : LinkSettings.keys[place]? = some key)
    : Holds (.array items) key value ↔ items[place]? = some value := by
  refine ⟨?_, .item named⟩
  intro held
  cases held with
  | @item _ other _ _ named' here =>
      have same : other = place :=
        (List.getElem?_inj (List.getElem?_eq_some_iff.mp named').1 (by decide)).mp
          (named'.trans named.symm)
      exact same ▸ here

/-- The value that a section holds under a key. -/
def held? (part : Value) (key : String) : Option Value :=
  match part with
  | .table entries => entries.lookup key
  | .array items => items[LinkSettings.keys.idxOf key]?
  | _ => none

theorem held?_eq_some_iff {part value : Value} {key : String} (distinct : part.HasDistinctKeys)
    (known : key ∈ LinkSettings.keys) : held? part key = some value ↔ Holds part key value := by
  cases part with
  | table entries =>
      exact (lookup_eq_some_iff_mem (Toml.hasDistinctKeys_table.mp distinct).1).trans
        holds_table.symm
  | array items => exact (holds_array (List.getElem?_idxOf known)).symm
  | _ =>
      constructor
      · intro none
        cases none
      · intro held
        cases held

/-- The fields of a link are read one by one. -/
theorem ofFields_eq_ok_iff {debug? timeout? retries? : Option Value} {settings : LinkSettings}
    : LinkSettings.ofFields debug? timeout? retries? = .ok settings
      ↔ ∃ fields : LinkFields,
          debug? = fields.debug?.map .boolean
          ∧ timeout? = fields.responseTimeout?.map .ofWord32
          ∧ retries? = fields.retries?.map .ofWord8
          ∧ ({} : LinkSettings).overlay fields = settings := by
  simp only [LinkSettings.ofFields, bind_eq_ok_iff,
    readField_of_reads fun _ _ => Value.boolean?_eq_some_iff,
    readField_of_reads fun _ _ => Value.word32?_eq_some_iff,
    readField_of_reads fun _ _ => Value.word8?_eq_some_iff]
  constructor
  · rintro ⟨_, ⟨debug, rfl, rfl⟩, _, ⟨timeout, rfl, rfl⟩, _, ⟨retries, rfl, rfl⟩, done⟩
    exact ⟨⟨debug, timeout, retries⟩, rfl, rfl, rfl, Except.ok.inj done⟩
  · rintro ⟨⟨debug, timeout, retries⟩, rfl, rfl, rfl, rfl⟩
    exact ⟨_, ⟨debug, rfl, rfl⟩, _, ⟨timeout, rfl, rfl⟩, _, ⟨retries, rfl, rfl⟩, rfl⟩

/-- The entries under keys that are not asked for hold only numbers that can be held. -/
def OthersReadable (known : List String) (table : Table) : Prop :=
  ∀ entry ∈ table, entry.1 ∉ known → entry.2.isReadable = true

theorem checkOthers_eq_ok_iff {known : List String} {table : Table} {done : Unit}
    : checkOthers known table = .ok done ↔ OthersReadable known table := by
  have others : OthersReadable known table
      ↔ (table.find? fun entry => !known.contains entry.1 && !entry.2.isReadable) = none := by
    simp [OthersReadable, List.find?_eq_none]
  rw [others, checkOthers]
  split
  · rename_i none
    simp only [none]
  · rename_i some
    simp only [some, reduceCtorEq]

/-- A section is read exactly if it gives fields. -/
theorem ofValue_eq_ok_iff {part : Value} (distinct : part.HasDistinctKeys) {settings : LinkSettings}
    : LinkSettings.ofValue part = .ok settings
      ↔ IsSection part
        ∧ (∀ entries, part = .table entries → OthersReadable LinkSettings.keys entries)
        ∧ ∃ fields : LinkFields,
            fields.AreIn part ∧ ({} : LinkSettings).overlay fields = settings := by
  have given {α : Type} (write : α → Value) {key : String} (known : key ∈ LinkSettings.keys)
      (field? : Option α)
      : held? part key = field?.map write ↔ Gives (Holds part key) write field? :=
    (gives_iff fun value => held?_eq_some_iff distinct known).symm
  have read
      : LinkSettings.ofFields (held? part "debug") (held? part "response_timeout_ms")
            (held? part "max_retries")
          = .ok settings
        ↔ ∃ fields : LinkFields,
            fields.AreIn part ∧ ({} : LinkSettings).overlay fields = settings := by
    rw [ofFields_eq_ok_iff]
    refine exists_congr fun fields => ?_
    rw [given _ (by decide), given _ (by decide), given _ (by decide)]
    exact ⟨fun ⟨debug, timeout, retries, same⟩ => ⟨⟨debug, timeout, retries⟩, same⟩,
      fun ⟨⟨debug, timeout, retries⟩, same⟩ => ⟨debug, timeout, retries, same⟩⟩
  cases part with
  | table entries =>
      simp only [LinkSettings.ofValue, LinkSettings.ofTable, bind_eq_ok_iff, checkOthers_eq_ok_iff,
        IsSection, true_and, Value.table.injEq, forall_eq', exists_const]
      exact and_congr_right fun _ => read
  | array items =>
      simp only [IsSection, true_and, reduceCtorEq, false_implies, implies_true]
      exact read
  | moment moment =>
      simp only [IsSection, true_and, reduceCtorEq, false_implies, implies_true]
      exact read
  | _ => simp [LinkSettings.ofValue, IsSection]

-----------------------------------------------------------------------------------------
-- The whole document
-----------------------------------------------------------------------------------------

/-- Just these fields of the link are held by the section of a document, if it has one. -/
inductive LinkIsIn (table : Table) : Option LinkFields → Prop where
  | missing (absent : ∀ part, ("bus", part) ∉ table) : LinkIsIn table none
  | given {part : Value} {fields : LinkFields} (here : ("bus", part) ∈ table)
      (isSection : IsSection part) (areIn : fields.AreIn part) : LinkIsIn table (some fields)

/-- Just these fields are held by a document. -/
structure HostFields.AreIn (fields : HostFields) (table : Table) : Prop where
  address : Gives (fun value => ("address", value) ∈ table) .text fields.address?
  serial : Gives (fun value => ("serial", value) ∈ table) .text fields.serial?
  baud : Gives (fun value => ("baud", value) ∈ table) .ofWord32 fields.baud?
  link : LinkIsIn table fields.link?
  logFilter : Gives (fun value => ("log_filter", value) ∈ table) .text fields.logFilter?

/-- Entries that are not asked for, outside the section of the link and inside it, hold only numbers
that can be held. -/
structure IsReadable (table : Table) : Prop where
  outside : OthersReadable HostSettings.keys table
  inside
    : ∀ entries, ("bus", .table entries) ∈ table → OthersReadable LinkSettings.keys entries

/-- The section of the link is read exactly if it gives fields, and its defaults stand for one that
is missing. -/
theorem link_eq_ok_iff {table : Table} (distinct : (Value.table table).HasDistinctKeys)
    {link : LinkSettings}
    : (table.lookup "bus").elim (.ok {}) LinkSettings.ofValue = .ok link
      ↔ (∀ entries, ("bus", .table entries) ∈ table → OthersReadable LinkSettings.keys entries)
        ∧ ∃ fields? : Option LinkFields, LinkIsIn table fields?
            ∧ fields?.elim {} ({} : LinkSettings).overlay = link := by
  obtain ⟨keys, inside⟩ := Toml.hasDistinctKeys_table.mp distinct
  have looked (part : Value) : table.lookup "bus" = some part ↔ ("bus", part) ∈ table :=
    lookup_eq_some_iff_mem keys
  cases found : table.lookup "bus" with
  | none =>
      have absent (part : Value) : ("bus", part) ∉ table := by
        rw [← looked, found]
        exact (Option.some_ne_none part).symm
      constructor
      · intro done
        exact ⟨fun entries here => (absent _ here).elim, none, .missing absent, Except.ok.inj done⟩
      · rintro ⟨-, _, held, rfl⟩
        cases held with
        | missing => rfl
        | given here => exact (absent _ here).elim
  | some part =>
      have here := (looked part).mp found
      have only {other : Value} (there : ("bus", other) ∈ table) : other = part :=
        Option.some.inj (((looked other).mpr there).symm.trans found)
      rw [Option.elim_some, ofValue_eq_ok_iff (inside _ here)]
      constructor
      · rintro ⟨isSection, readable, fields, areIn, rfl⟩
        exact ⟨fun entries there => readable entries (only there).symm, some fields,
          .given here isSection areIn, rfl⟩
      · rintro ⟨readable, _, held, rfl⟩
        cases held with
        | missing absent => exact (absent part here).elim
        | given there isSection areIn =>
            obtain rfl := only there
            exact ⟨isSection, fun entries same => readable entries (same ▸ here), _, areIn, rfl⟩

/-- A document is read exactly if it gives fields. -/
theorem ofTable_eq_ok_iff {table : Table} (distinct : (Value.table table).HasDistinctKeys)
    {settings : HostSettings}
    : HostSettings.ofTable table = .ok settings
      ↔ IsReadable table
        ∧ ∃ fields : HostFields,
            fields.AreIn table ∧ ({} : HostSettings).overlay fields = settings := by
  obtain ⟨keys, inside⟩ := Toml.hasDistinctKeys_table.mp distinct
  have given {α : Type} (write : α → Value) (key : String) (field? : Option α)
      : table.lookup key = field?.map write
        ↔ Gives (fun value => (key, value) ∈ table) write field? :=
    (gives_iff fun value => lookup_eq_some_iff_mem keys).symm
  have serial (value : Value) (result : Option String)
      : value.text?.map some = some result
        ↔ ∃ content, value = .text content ∧ some content = result := by
    simp only [Option.map_eq_some_iff, Value.text?_eq_some_iff]
  simp only [HostSettings.ofTable, bind_eq_ok_iff, checkOthers_eq_ok_iff,
    readField_of_reads fun _ _ => Value.text?_eq_some_iff, readField_eq_ok_iff serial,
    readField_of_reads fun _ _ => Value.word32?_eq_some_iff, link_eq_ok_iff distinct, given]
  constructor
  · rintro ⟨_, outside, _, ⟨address, addressIn, rfl⟩, _, ⟨serial, serialIn, rfl⟩, _,
      ⟨baud, baudIn, rfl⟩, _, ⟨inside, link, linkIn, rfl⟩, _, ⟨logFilter, logFilterIn, rfl⟩, done⟩
    refine ⟨⟨outside, inside⟩, ⟨address, serial, baud, link, logFilter⟩,
      ⟨addressIn, serialIn, baudIn, linkIn, logFilterIn⟩, ?_⟩
    cases serial with
    | none => exact Except.ok.inj done
    | some line => exact Except.ok.inj done
  · rintro ⟨⟨outside, inside⟩, fields, ⟨address, serial, baud, link, logFilter⟩, rfl⟩
    refine ⟨(), outside, _, ⟨_, address, rfl⟩, _, ⟨_, serial, rfl⟩, _, ⟨_, baud, rfl⟩, _,
      ⟨inside, _, link, rfl⟩, _, ⟨_, logFilter, rfl⟩, ?_⟩
    rw [HostSettings.overlay]
    cases fields.serial? with
    | none => rfl
    | some line => rfl

end Settings

end PacketBus
