import PacketBus.Frame.Wire

/-! The content of a frame as a list of items, each sent as one byte or as an escaped pair.
Every run of bytes splits into the items before its first delimiter that is not escaped and the
bytes behind them, so what a receiver does is told item by item.
-/

namespace PacketBus.Frame

theorem escape?_eq_none_iff {byte : UInt8}
    : escape? byte = none ↔ byte ≠ delimiter ∧ byte ≠ escapeMark := by
  unfold escape?
  split
  · next isDelimiter => simp [isDelimiter]
  · next notDelimiter =>
      split
      · next isMark => simp [isMark]
      · next notMark => simp [notDelimiter, notMark]

/-- What follows an escape mark needs no escape itself, in both cases. -/
theorem escape?_of_escape? {byte escaped : UInt8} (h : escape? byte = some escaped)
    : escape? escaped = none := by
  unfold escape? at h
  split at h
  · cases h
    rfl
  · split at h
    · cases h
      rfl
    · cases h

/-- Only two bytes ever follow the escape mark of a sender. -/
theorem eq_or_eq_of_escape? {byte escaped : UInt8} (h : escape? byte = some escaped)
    : escaped = escapedDelimiter ∨ escaped = escapedMark := by
  unfold escape? at h
  split at h
  · cases h
    exact .inl rfl
  · split at h
    · cases h
      exact .inr rfl
    · cases h

/-- One item of the content of a frame: a byte that stands for itself, or any byte behind an
escape mark. -/
inductive Item where
  | plain (byte : UInt8) (ordinary : byte ≠ delimiter ∧ byte ≠ escapeMark)
  | escaped (byte : UInt8)

namespace Item

/-- The bytes that make up the item. -/
def wire : Item → List UInt8
  | plain byte _ => [byte]
  | escaped byte => [escapeMark, byte]

/-- The byte that the item stands for. -/
def value : Item → UInt8
  | plain byte _ => byte
  | escaped byte => unescape byte

/-- The bytes that make up a list of items. -/
def wires (items : List Item) : List UInt8 :=
  items.flatMap wire

@[simp] theorem wires_nil
    : wires [] = [] :=
  rfl

@[simp] theorem wires_cons (item : Item) (rest : List Item)
    : wires (item :: rest) = item.wire ++ wires rest :=
  List.flatMap_cons

@[simp] theorem wires_append (front back : List Item)
    : wires (front ++ back) = wires front ++ wires back :=
  List.flatMap_append

/-- The item as which a sender sends a byte. -/
def ofByte (byte : UInt8) : Item :=
  match reserved : escape? byte with
  | some escapedForm => escaped escapedForm
  | none => plain byte (escape?_eq_none_iff.mp reserved)

theorem wire_ofByte (byte : UInt8)
    : (ofByte byte).wire = stuffByte byte := by
  unfold ofByte stuffByte
  split
  · next reserved => simp only [reserved, wire]
  · next reserved => simp only [reserved, wire]

@[simp] theorem value_ofByte (byte : UInt8)
    : (ofByte byte).value = byte := by
  unfold ofByte
  split
  · next reserved => exact unescape_escape? reserved
  · rfl

/-- Stuffing sends each byte as its item, by induction on the run. -/
theorem wires_ofByte (bytes : List UInt8)
    : wires (bytes.map ofByte) = stuff bytes := by
  induction bytes with
  | nil => rfl
  | cons byte rest ih => simp only [List.map_cons, wires_cons, stuff_cons, wire_ofByte, ih]

@[simp] theorem values_ofByte (bytes : List UInt8)
    : (bytes.map ofByte).map value = bytes := by
  simp [Function.comp_def]

/-- Reads a run up to its first delimiter that is not escaped: the items before it, and the bytes
behind these. An escape mark at the end of the run is left unread. -/
def read : List UInt8 → List Item × List UInt8
  | [] => ([], [])
  | byte :: rest =>
      if isDelimiter : byte = delimiter then ([], byte :: rest)
      else if isMark : byte = escapeMark then
        match rest with
        | [] => ([], [byte])
        | next :: rest => (escaped next :: (read rest).1, (read rest).2)
      else (plain byte ⟨isDelimiter, isMark⟩ :: (read rest).1, (read rest).2)

/-- Reading loses no byte, by the cases of `read`. -/
theorem wires_read (bytes : List UInt8)
    : wires (read bytes).1 ++ (read bytes).2 = bytes := by
  fun_induction read bytes with
  | case1 => rfl
  | case2 => rfl
  | case3 => rfl
  | case4 next rest isDelimiter ih => simpa [wire] using ih
  | case5 byte rest isDelimiter isMark ih => simpa [wire] using ih

/-- Reading stops at a delimiter, at the end of the run, or at an escape mark that ends it. -/
theorem read_stops (bytes : List UInt8)
    : (∃ rest, (read bytes).2 = delimiter :: rest)
      ∨ (read bytes).2 = []
      ∨ (read bytes).2 = [escapeMark] := by
  fun_induction read bytes with
  | case1 => exact .inr (.inl rfl)
  | case2 rest => exact .inl ⟨rest, rfl⟩
  | case3 => exact .inr (.inr rfl)
  | case4 next rest isDelimiter ih => exact ih
  | case5 byte rest isDelimiter isMark ih => exact ih

end Item

end PacketBus.Frame
