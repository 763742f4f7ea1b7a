import Mathlib.Logic.Relation
import PacketBus.Proofs.Port.Record
import PacketBus.Proofs.Settings.Fields
import PacketBus.Proofs.Toml.Equality
import PacketBus.Settings.File

/-! Settings read from a document are the defaults with the fields of the document put over them.
Which documents give settings is told by the values under the keys that are asked for, and what they
give depends on nothing else: neither on the order of the keys, nor on other keys, nor on whether
the section of the link is a table or an array.
-/

namespace PacketBus

open Toml (Table Value)

namespace Settings

-----------------------------------------------------------------------------------------
-- Documents that fit
-----------------------------------------------------------------------------------------

/-- What a section holds under the keys of the fields are values of their types. -/
structure FitsLink (part : Value) : Prop where
  isSection : IsSection part
  debug : ∀ value, Holds part "debug" value → ∃ truth, value = .boolean truth
  responseTimeout
    : ∀ value, Holds part "response_timeout_ms" value → ∃ number, value = .ofWord32 number
  retries : ∀ value, Holds part "max_retries" value → ∃ number, value = .ofWord8 number

/-- What a document holds under the keys of the fields are values of their types. -/
structure FitsHost (table : Table) : Prop where
  address : ∀ value, ("address", value) ∈ table → ∃ content, value = .text content
  serial : ∀ value, ("serial", value) ∈ table → ∃ content, value = .text content
  baud : ∀ value, ("baud", value) ∈ table → ∃ number, value = .ofWord32 number
  link : ∀ part, ("bus", part) ∈ table → FitsLink part
  logFilter : ∀ value, ("log_filter", value) ∈ table → ∃ content, value = .text content

theorem fitsLink_iff {part : Value} (distinct : part.HasDistinctKeys)
    : FitsLink part ↔ IsSection part ∧ ∃ fields : LinkFields, fields.AreIn part := by
  have given {α : Type} (write : α → Value) {key : String} (known : key ∈ LinkSettings.keys)
      : (∃ field?, Gives (Holds part key) write field?)
        ↔ ∀ value, Holds part key value → ∃ field, value = write field :=
    exists_gives_iff fun value => held?_eq_some_iff distinct known
  constructor
  · rintro ⟨isSection, debug, timeout, retries⟩
    obtain ⟨debug?, debug⟩ := (given .boolean (by decide)).mpr debug
    obtain ⟨timeout?, timeout⟩ := (given .ofWord32 (by decide)).mpr timeout
    obtain ⟨retries?, retries⟩ := (given .ofWord8 (by decide)).mpr retries
    exact ⟨isSection, ⟨debug?, timeout?, retries?⟩, debug, timeout, retries⟩
  · rintro ⟨isSection, fields, debug, timeout, retries⟩
    exact ⟨isSection, (given _ (by decide)).mp ⟨_, debug⟩, (given _ (by decide)).mp ⟨_, timeout⟩,
      (given _ (by decide)).mp ⟨_, retries⟩⟩

theorem fitsHost_iff {table : Table} (distinct : (Value.table table).HasDistinctKeys)
    : FitsHost table ↔ ∃ fields : HostFields, fields.AreIn table := by
  obtain ⟨keys, inside⟩ := Toml.hasDistinctKeys_table.mp distinct
  have looked (key : String) (value : Value)
      : table.lookup key = some value ↔ (key, value) ∈ table :=
    lookup_eq_some_iff_mem keys
  have given {α : Type} (write : α → Value) (key : String)
      : (∃ field?, Gives (fun value => (key, value) ∈ table) write field?)
        ↔ ∀ value, (key, value) ∈ table → ∃ field, value = write field :=
    exists_gives_iff (looked key)
  constructor
  · rintro ⟨address, serial, baud, link, logFilter⟩
    obtain ⟨address?, address⟩ := (given .text _).mpr address
    obtain ⟨serial?, serial⟩ := (given .text _).mpr serial
    obtain ⟨baud?, baud⟩ := (given .ofWord32 _).mpr baud
    obtain ⟨logFilter?, logFilter⟩ := (given .text _).mpr logFilter
    have linkIn : ∃ link?, LinkIsIn table link? := by
      cases found : table.lookup "bus" with
      | none =>
          refine ⟨none, .missing fun part here => ?_⟩
          rw [(looked _ part).mpr here] at found
          cases found
      | some part =>
          have here := (looked _ part).mp found
          obtain ⟨isSection, fields, areIn⟩ := (fitsLink_iff (inside _ here)).mp (link part here)
          exact ⟨some fields, .given here isSection areIn⟩
    obtain ⟨link?, linkIn⟩ := linkIn
    exact ⟨⟨address?, serial?, baud?, link?, logFilter?⟩, address, serial, baud, linkIn, logFilter⟩
  · rintro ⟨⟨_, _, _, _, _⟩, address, serial, baud, link, logFilter⟩
    refine ⟨(given _ _).mp ⟨_, address⟩, (given _ _).mp ⟨_, serial⟩, (given _ _).mp ⟨_, baud⟩, ?_,
      (given _ _).mp ⟨_, logFilter⟩⟩
    intro part here
    cases link with
    | missing absent => exact (absent part here).elim
    | given there isSection areIn =>
        have same := Option.some.inj (((looked _ _).mpr here).symm.trans ((looked _ _).mpr there))
        exact same ▸ (fitsLink_iff (inside _ there)).mpr ⟨isSection, _, areIn⟩

-----------------------------------------------------------------------------------------
-- Documents that are alike
-----------------------------------------------------------------------------------------

/-- Two values hold the same under the keys of the fields, or are the same. -/
inductive LinkAlike (part : Value) : Value → Prop where
  | refl : LinkAlike part part
  | sections {other : Value} (here : IsSection part) (there : IsSection other)
      (held : ∀ key ∈ LinkSettings.keys, ∀ value, Holds part key value ↔ Holds other key value)
      : LinkAlike part other

/-- Two documents hold the same under the keys of the fields, up to sections that are alike. -/
structure HostAlike (table other : Table) : Prop where
  plain
    : ∀ key ∈ HostSettings.keys, key ≠ "bus" → ∀ value, (key, value) ∈ table ↔ (key, value) ∈ other
  link
    : ∀ part, ("bus", part) ∈ table → ∃ alike, ("bus", alike) ∈ other ∧ LinkAlike part alike
  back
    : ∀ part, ("bus", part) ∈ other → ∃ alike, ("bus", alike) ∈ table ∧ LinkAlike alike part

theorem LinkAlike.symm {part other : Value} (alike : LinkAlike part other)
    : LinkAlike other part := by
  cases alike with
  | refl => exact .refl
  | sections here there held =>
      exact .sections there here fun key known value => (held key known value).symm

theorem HostAlike.symm {table other : Table} (alike : HostAlike table other)
    : HostAlike other table where
  plain key known outside value := (alike.plain key known outside value).symm
  link part here :=
    let ⟨there, found, same⟩ := alike.back part here
    ⟨there, found, same.symm⟩
  back part here :=
    let ⟨there, found, same⟩ := alike.link part here
    ⟨there, found, same.symm⟩

theorem LinkAlike.trans {first second third : Value} (before : LinkAlike first second)
    (after : LinkAlike second third) : LinkAlike first third := by
  cases before with
  | refl => exact after
  | sections here middle held =>
      cases after with
      | refl => exact .sections here middle held
      | sections _ there held' =>
          exact .sections here there fun key known value =>
            (held key known value).trans (held' key known value)

theorem HostAlike.trans {first second third : Table} (before : HostAlike first second)
    (after : HostAlike second third) : HostAlike first third where
  plain key known outside value :=
    (before.plain key known outside value).trans (after.plain key known outside value)
  link part here :=
    let ⟨middle, between, same⟩ := before.link part here
    let ⟨there, found, same'⟩ := after.link middle between
    ⟨there, found, same.trans same'⟩
  back part here :=
    let ⟨middle, between, same⟩ := after.back part here
    let ⟨there, found, same'⟩ := before.back middle between
    ⟨there, found, same'.trans same⟩

/-- The order of keys has no part. -/
theorem hostAlike_of_perm {table other : Table} (perm : table.Perm other)
    : HostAlike table other where
  plain _ _ _ _ := perm.mem_iff
  link part here := ⟨part, perm.mem_iff.mp here, .refl⟩
  back part here := ⟨part, perm.mem_iff.mpr here, .refl⟩

theorem linkAlike_of_perm {entries other : Table} (perm : entries.Perm other)
    : LinkAlike (.table entries) (.table other) :=
  .sections trivial trivial fun _ _ _ => holds_table.trans (perm.mem_iff.trans holds_table.symm)

/-- Entries under other keys have no part. -/
theorem hostAlike_append {table others : Table}
    (unknown : ∀ entry ∈ others, entry.1 ∉ HostSettings.keys)
    : HostAlike table (table ++ others) where
  plain key known _ value := by
    rw [List.mem_append]
    exact (or_iff_left fun here => unknown _ here known).symm
  link part here := ⟨part, List.mem_append_left _ here, .refl⟩
  back part here := by
    obtain before | behind := List.mem_append.mp here
    · exact ⟨part, before, .refl⟩
    · exact (unknown _ behind (show "bus" ∈ HostSettings.keys by decide)).elim

theorem linkAlike_append {entries others : Table}
    (unknown : ∀ entry ∈ others, entry.1 ∉ LinkSettings.keys)
    : LinkAlike (.table entries) (.table (entries ++ others)) := by
  refine .sections trivial trivial fun key known value => ?_
  rw [holds_table, holds_table, List.mem_append]
  exact (or_iff_left fun here => unknown _ here known).symm

/-- A section may stand for one that is alike. -/
theorem hostAlike_of_link {front back : Table} {part other : Value} (alike : LinkAlike part other)
    : HostAlike (front ++ ("bus", part) :: back) (front ++ ("bus", other) :: back) := by
  have replaced {part other : Value} (alike : LinkAlike part other) (found : Value)
      (here : ("bus", found) ∈ front ++ ("bus", part) :: back)
      : ∃ same, ("bus", same) ∈ front ++ ("bus", other) :: back ∧ LinkAlike found same := by
    rw [List.mem_append, List.mem_cons] at here
    obtain before | taken | behind := here
    · exact ⟨found, List.mem_append_left _ before, .refl⟩
    · cases taken
      exact ⟨other, List.mem_append_right _ List.mem_cons_self, alike⟩
    · exact ⟨found, List.mem_append_right _ (List.mem_cons_of_mem _ behind), .refl⟩
  refine ⟨fun key _ outside value => ?_, replaced alike, fun found here => ?_⟩
  · have different (there : Value) : (key, value) ≠ ("bus", there) :=
      fun same => outside (Prod.mk.inj same).1
    simp only [List.mem_append, List.mem_cons, different, false_or]
  · obtain ⟨same, there, alike'⟩ := replaced alike.symm found here
    exact ⟨same, there, alike'.symm⟩

/-- An array is a table of the same values, whatever items it has behind them. -/
theorem linkAlike_array (items : List Value)
    : LinkAlike (.array items) (.table (LinkSettings.keys.zip items)) := by
  refine .sections trivial trivial fun key known value => ?_
  rw [holds_table, List.mem_iff_getElem?]
  simp only [List.getElem?_zip_eq_some]
  constructor
  · intro held
    cases held with
    | item named here => exact ⟨_, named, here⟩
  · rintro ⟨place, named, here⟩
    exact .item named here

/-- Items behind those of the fields have no part. -/
theorem linkAlike_items {items others : List Value}
    (enough : LinkSettings.keys.length ≤ items.length)
    : LinkAlike (.array items) (.array (items ++ others)) := by
  refine .sections trivial trivial fun key known value => ?_
  have before : LinkSettings.keys.idxOf key < items.length :=
    Nat.lt_of_lt_of_le (List.idxOf_lt_length_of_mem known) enough
  have named := List.getElem?_idxOf known
  rw [holds_array named, holds_array named, List.getElem?_append_left before]

/-- A change of a section that has no part in what it gives. -/
inductive LinkChange : Value → Value → Prop where
  | order {entries other : Table} (perm : entries.Perm other)
      : LinkChange (.table entries) (.table other)
  | unknown {entries others : Table} (unknown : ∀ entry ∈ others, entry.1 ∉ LinkSettings.keys)
      : LinkChange (.table entries) (.table (entries ++ others))
  | behind {items others : List Value} (enough : LinkSettings.keys.length ≤ items.length)
      : LinkChange (.array items) (.array (items ++ others))
  | named (items : List Value) : LinkChange (.array items) (.table (LinkSettings.keys.zip items))

/-- A change of a document that has no part in what it gives. -/
inductive HostChange : Table → Table → Prop where
  | order {table other : Table} (perm : table.Perm other) : HostChange table other
  | unknown {table others : Table} (unknown : ∀ entry ∈ others, entry.1 ∉ HostSettings.keys)
      : HostChange table (table ++ others)
  | link {front back : Table} {part other : Value} (change : LinkChange part other)
      : HostChange (front ++ ("bus", part) :: back) (front ++ ("bus", other) :: back)

theorem LinkChange.alike {part other : Value} (change : LinkChange part other)
    : LinkAlike part other := by
  cases change with
  | order perm => exact linkAlike_of_perm perm
  | unknown unknown => exact linkAlike_append unknown
  | behind enough => exact linkAlike_items enough
  | named items => exact linkAlike_array items

theorem HostChange.alike {table other : Table} (change : HostChange table other)
    : HostAlike table other := by
  cases change with
  | order perm => exact hostAlike_of_perm perm
  | unknown unknown => exact hostAlike_append unknown
  | link change => exact hostAlike_of_link change.alike

/-- Documents that such changes lead to, there and back, are alike, by induction on the changes. -/
theorem hostAlike_of_changes {table other : Table}
    (changes : Relation.EqvGen HostChange table other)
    : HostAlike table other := by
  induction changes with
  | rel _ _ change => exact change.alike
  | refl table => exact hostAlike_of_perm (.refl table)
  | symm _ _ _ alike => exact alike.symm
  | trans _ _ _ _ _ before after => exact before.trans after

theorem LinkAlike.isSection {part other : Value} (alike : LinkAlike part other)
    (isSection : IsSection part) : IsSection other := by
  cases alike with
  | refl => exact isSection
  | sections _ there => exact there

theorem LinkAlike.areIn {part other : Value} (alike : LinkAlike part other) {fields : LinkFields}
    (areIn : fields.AreIn part) : fields.AreIn other := by
  cases alike with
  | refl => exact areIn
  | sections _ _ held =>
      have holds {key : String} (known : key ∈ LinkSettings.keys) (value : Value) :=
        (held key known value).symm
      exact ⟨fun value => (holds (by decide) value).trans (areIn.debug value),
        fun value => (holds (by decide) value).trans (areIn.responseTimeout value),
        fun value => (holds (by decide) value).trans (areIn.retries value)⟩

theorem HostAlike.linkIsIn {table other : Table} (alike : HostAlike table other)
    {link? : Option LinkFields} (isIn : LinkIsIn table link?) : LinkIsIn other link? := by
  cases isIn with
  | missing absent =>
      refine .missing fun part here => ?_
      obtain ⟨there, found, -⟩ := alike.back part here
      exact absent there found
  | given here isSection areIn =>
      obtain ⟨there, found, parts⟩ := alike.link _ here
      exact .given found (parts.isSection isSection) (parts.areIn areIn)

theorem HostAlike.areIn {table other : Table} (alike : HostAlike table other) {fields : HostFields}
    (areIn : fields.AreIn table) : fields.AreIn other := by
  have holds {key : String} (known : key ∈ HostSettings.keys ∧ key ≠ "bus") (value : Value) :=
    (alike.plain key known.1 known.2 value).symm
  exact ⟨fun value => (holds (by decide) value).trans (areIn.address value),
    fun value => (holds (by decide) value).trans (areIn.serial value),
    fun value => (holds (by decide) value).trans (areIn.baud value),
    alike.linkIsIn areIn.link,
    fun value => (holds (by decide) value).trans (areIn.logFilter value)⟩

end Settings

-----------------------------------------------------------------------------------------
-- Reading a document
-----------------------------------------------------------------------------------------

theorem Toml.entriesReadable_iff {entries : Table}
    : Toml.entriesReadable entries = true ↔ ∀ entry ∈ entries, entry.2.isReadable = true := by
  induction entries with
  | nil => simp [Toml.entriesReadable]
  | cons entry rest ih => simp [Toml.entriesReadable, ih]

/-- The text parses to a table, which is one of values in its own right: every number in it,
wherever it stands and whether settings ask for it or not, is one and can be held. -/
structure Settings.IsDocument (read : Toml.Reader) (text : String) (table : Table) : Prop where
  parsed : read text = .ok table
  readable : Toml.entriesReadable table = true

/-- The text gives settings. They ask for less than a table of values does: the items of an array
behind those of the fields are not looked at, so their numbers may be ones that cannot be held. -/
structure Settings.GivesSettings (read : Toml.Reader) (text : String) (table : Table) : Prop where
  parsed : read text = .ok table
  readable : Settings.IsReadable table
  fits : Settings.FitsHost table

/-- If every number can be held, so can those under keys that are not asked for. -/
theorem Settings.IsDocument.isReadable {read : Toml.Reader} {text : String} {table : Table}
    (document : IsDocument read text table) : IsReadable table := by
  have every := Toml.entriesReadable_iff.mp document.readable
  refine ⟨fun entry here _ => every entry here, fun entries here entry inside _ => ?_⟩
  have within : Toml.entriesReadable entries = true := every _ here
  exact Toml.entriesReadable_iff.mp within entry inside

namespace HostSettings

open Settings

variable {read : Toml.Reader} {text : String} {table : Table}

/-- Settings are read, or the cause is told as one of bad settings. -/
theorem ofText_cases (read : Toml.Reader) (text : String)
    : (∃ settings, ofText text read = .ok settings)
      ∨ ∃ cause, ofText text read = .error (.badSettings cause) := by
  rw [ofText]
  cases parse text read with
  | ok settings => exact .inl ⟨settings, rfl⟩
  | error failure => exact .inr ⟨failure.message, rfl⟩

/-- Settings are read exactly from a table that gives fields, with no number under a key that is not
asked for that cannot be held. -/
theorem ofText_eq_ok_iff (reader : Toml.IsReader read) {settings : HostSettings}
    : ofText text read = .ok settings
      ↔ ∃ table, read text = .ok table ∧ IsReadable table
          ∧ ∃ fields : HostFields,
              fields.AreIn table ∧ ({} : HostSettings).overlay fields = settings := by
  rw [ofText, mapError_eq_ok_iff, parse]
  cases parsed : read text with
  | error refusal =>
      constructor
      · intro done
        cases done
      · rintro ⟨table, none, -⟩
        cases none
  | ok table =>
      have given
          : ofTable table = .ok settings
            ↔ IsReadable table
              ∧ ∃ fields : HostFields,
                  fields.AreIn table ∧ ({} : HostSettings).overlay fields = settings :=
        ofTable_eq_ok_iff (reader.distinct _ _ parsed)
      constructor
      · intro done
        exact ⟨table, rfl, given.mp done⟩
      · rintro ⟨_, ⟨⟩, fields⟩
        exact given.mpr fields

/-- A text gives settings exactly if what it holds under the keys of the fields are values of their
types. -/
theorem exists_ofText_iff (reader : Toml.IsReader read)
    : (∃ settings, ofText text read = .ok settings) ↔ ∃ table, GivesSettings read text table := by
  simp only [ofText_eq_ok_iff reader]
  constructor
  · rintro ⟨settings, table, parsed, readable, fields, areIn, -⟩
    exact ⟨table, parsed, readable,
      (fitsHost_iff (reader.distinct _ _ parsed)).mpr ⟨fields, areIn⟩⟩
  · rintro ⟨table, parsed, readable, fits⟩
    obtain ⟨fields, areIn⟩ := (fitsHost_iff (reader.distinct _ _ parsed)).mp fits
    exact ⟨_, table, parsed, readable, fields, areIn, rfl⟩

/-- A document gives the defaults with the fields that it holds put over them, and nothing else. -/
theorem ofText_of_document (reader : Toml.IsReader read) (document : IsDocument read text table)
    (settings : HostSettings)
    : ofText text read = .ok settings
      ↔ ∃ fields : HostFields,
          fields.AreIn table ∧ settings = ({} : HostSettings).overlay fields := by
  rw [ofText_eq_ok_iff reader]
  constructor
  · rintro ⟨other, parsed, -, fields, areIn, rfl⟩
    obtain rfl := Except.ok.inj (parsed.symm.trans document.parsed)
    exact ⟨fields, areIn, rfl⟩
  · rintro ⟨fields, areIn, rfl⟩
    exact ⟨table, document.parsed, document.isReadable, fields, areIn, rfl⟩

/-- Documents that are alike give the same settings. -/
theorem ofText_of_alike (reader : Toml.IsReader read) (document : IsDocument read text table)
    {other : String} {alike : Table} (document' : IsDocument read other alike)
    (same : HostAlike table alike) (settings : HostSettings)
    : ofText other read = .ok settings ↔ ofText text read = .ok settings := by
  rw [ofText_of_document reader document, ofText_of_document reader document']
  exact exists_congr fun fields => and_congr_left fun _ => ⟨same.symm.areIn, same.areIn⟩

/-- However documents are read, as long as no key comes twice, settings are read from one exactly if
what it holds under the keys of the fields are values of their types, in the section of the link as
well as outside it, and they are the defaults with just these fields put over them, one by one. A
document that holds the same under these keys gives the same settings; so does one with its keys in
another order, with entries under other keys, with items behind those of the fields, and with a
table of the same values for an array, however many of these changes are made. A text that gives no
settings is reported as one of bad settings. -/
theorem documents_overlay_defaults {read : Toml.Reader} (reader : Toml.IsReader read)
    {text : String} {table : Table} (document : IsDocument read text table)
    : ((∃ settings, ofText text read = .ok settings) ↔ FitsHost table)
      ∧ (∀ settings,
          ofText text read = .ok settings
            ↔ ∃ fields : HostFields,
                fields.AreIn table ∧ settings = ({} : HostSettings).overlay fields)
      ∧ (∀ other alike,
          IsDocument read other alike → HostAlike table alike
            → ∀ settings, ofText other read = .ok settings ↔ ofText text read = .ok settings)
      ∧ (∀ other changed,
          IsDocument read other changed → Relation.EqvGen HostChange table changed
            → ∀ settings, ofText other read = .ok settings ↔ ofText text read = .ok settings)
      ∧ ∀ other,
          (¬∃ table, GivesSettings read other table)
            → ∃ cause, ofText other read = .error (.badSettings cause) := by
  refine ⟨?_, ofText_of_document reader document,
    fun other alike document' same => ofText_of_alike reader document document' same,
    fun other changed document' changes =>
      ofText_of_alike reader document document' (hostAlike_of_changes changes),
    fun other unfit => ?_⟩
  · rw [exists_ofText_iff reader]
    constructor
    · rintro ⟨other, parsed, -, fits⟩
      exact Except.ok.inj (parsed.symm.trans document.parsed) ▸ fits
    · exact fun fits => ⟨table, document.parsed, document.isReadable, fits⟩
  · rw [← exists_ofText_iff reader] at unfit
    exact (ofText_cases read other).resolve_left unfit

/-- A section of one item keeps the defaults of the other fields, and so does a table of that field
behind an entry that is not asked for. A number past its bound is refused. -/
theorem documents_overlay_defaults_of_a_partial_section
    : ∃ table changed,
        IsDocument Toml.parse "bus = [true]" table
        ∧ IsDocument Toml.parse "x = 1\n[bus]\ndebug = true" changed
        ∧ Relation.EqvGen HostChange table changed
        ∧ FitsHost table
        ∧ ofText "bus = [true]" = .ok { link := { debug := true } }
        ∧ ofText "x = 1\n[bus]\ndebug = true" = .ok { link := { debug := true } }
        ∧ ∃ cause, ofText "baud = 4294967296" = .error (.badSettings cause) := by
  have parsed : Toml.parse "bus = [true]" = .ok [("bus", .array [.boolean true])] := by
    decide +kernel
  have parsedChanged
      : Toml.parse "x = 1\n[bus]\ndebug = true"
        = .ok [("x", .integer 1), ("bus", .table [("debug", .boolean true)])] := by
    decide +kernel
  have parsedLarge : Toml.parse "baud = 4294967296" = .ok [("baud", .integer 4294967296)] := by
    decide +kernel
  have document : IsDocument Toml.parse "bus = [true]" _ := ⟨parsed, by decide⟩
  have documentChanged : IsDocument Toml.parse "x = 1\n[bus]\ndebug = true" _ :=
    ⟨parsedChanged, by decide⟩
  have named : HostChange [("bus", .array [.boolean true])]
      [("bus", .table [("debug", .boolean true)])] :=
    @HostChange.link [] [] _ _ (.named [.boolean true])
  have behind : HostChange [("bus", .table [("debug", .boolean true)])]
      [("bus", .table [("debug", .boolean true)]), ("x", .integer 1)] :=
    @HostChange.unknown _ [("x", .integer 1)] (by decide)
  have turned : HostChange [("bus", .table [("debug", .boolean true)]), ("x", .integer 1)]
      [("x", .integer 1), ("bus", .table [("debug", .boolean true)])] :=
    .order (.swap _ _ _)
  have changes := (((Relation.EqvGen.rel _ _ named).trans _ _ _ (.rel _ _ behind)).trans _ _ _
    (.rel _ _ turned))
  obtain ⟨fits, given, _, same, refused⟩ :=
    documents_overlay_defaults Toml.isReader_parse document
  have read : ofText "bus = [true]" = .ok { link := { debug := true } } := by
    refine (given _).mpr ⟨{ link? := some { debug? := some true } }, ?_, rfl⟩
    have inTable
        : LinkFields.AreIn { debug? := some true } (.table [("debug", .boolean true)]) := by
      constructor <;> simp [Gives, holds_table, eq_comm]
    have inArray := (linkAlike_array [.boolean true]).symm.areIn inTable
    refine ⟨?_, ?_, ?_, .given (.head _) trivial inArray, ?_⟩ <;> simp [Gives]
  have readChanged := (same _ _ documentChanged changes _).mpr read
  refine ⟨_, _, document, documentChanged, changes, fits.mp ⟨_, read⟩, read, readChanged,
    refused _ ?_⟩
  rintro ⟨table, other, -, fits⟩
  obtain rfl := Except.ok.inj (other.symm.trans parsedLarge)
  obtain ⟨number, large⟩ := fits.baud _ List.mem_cons_self
  have bound := number.toNat_lt
  rw [Value.ofWord32, Value.integer.injEq] at large
  omega

end HostSettings

end PacketBus
