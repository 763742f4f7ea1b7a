/-! Bytes and numbers in lower-case hexadecimal.
A byte is always two digits, so a run of bytes reads back exactly as it was written.
-/

namespace PacketBus.Hex

/-- The digit for a value below sixteen. -/
def digit (value : Nat) : Char :=
  if value < 10 then Char.ofNat (48 + value) else Char.ofNat (87 + value)

/-- The value of a lower-case digit. -/
def value? (c : Char) : Option Nat :=
  if '0' ≤ c ∧ c ≤ '9' then some (c.toNat - 48)
  else if 'a' ≤ c ∧ c ≤ 'f' then some (c.toNat - 87)
  else none

/-- A byte as its two digits, the high one first. -/
def byteChars (byte : UInt8) : List Char :=
  [digit (byte.toNat / 16), digit (byte.toNat % 16)]

/-- A byte as text. -/
def ofByte (byte : UInt8) : String :=
  String.ofList (byteChars byte)

/-- A byte as text behind the mark of a hexadecimal number, as in 0x0f. -/
def marked (byte : UInt8) : String :=
  "0x" ++ ofByte byte

/-- A run of bytes as text without separators. -/
def ofBytes (bytes : List UInt8) : String :=
  String.ofList (bytes.flatMap byteChars)

/-- A number with at least `width` digits, filled up with zeros on the left. -/
def ofNat (width value : Nat) : String :=
  let digits := Nat.toDigits 16 value
  String.ofList (List.replicate (width - digits.length) '0' ++ digits)

/-- Reads digits two by two; an odd digit at the end or another character is refused. -/
def decode? : List Char → Option (List UInt8)
  | [] => some []
  | [_] => none
  | high :: low :: rest =>
      match value? high, value? low with
      | some h, some l => (decode? rest).map (UInt8.ofNat (16 * h + l) :: ·)
      | _, _ => none

/-- Reads the text of a run of bytes. -/
def toBytes? (text : String) : Option (List UInt8) :=
  decode? text.toList

/-- Each digit reads back as its value, by looking at the sixteen cases. -/
theorem value?_digit {value : Nat} (h : value < 16)
    : value? (digit value) = some value := by
  have cases : ∀ n : Fin 16, value? (digit n.val) = some n.val := by decide
  exact cases ⟨value, h⟩

theorem decode?_byteChars_append (byte : UInt8) (rest : List Char)
    : decode? (byteChars byte ++ rest) = (decode? rest).map (byte :: ·) := by
  have bound := byte.toNat_lt
  simp only [byteChars, List.cons_append, List.nil_append, decode?,
    value?_digit (show byte.toNat / 16 < 16 by omega),
    value?_digit (show byte.toNat % 16 < 16 by omega)]
  rw [show 16 * (byte.toNat / 16) + byte.toNat % 16 = byte.toNat by omega]
  simp

/-- A written run of bytes reads back, by induction on the run. -/
theorem decode?_flatMap_byteChars (bytes : List UInt8)
    : decode? (bytes.flatMap byteChars) = some bytes := by
  induction bytes with
  | nil => rfl
  | cons byte rest ih => simp [List.flatMap_cons, decode?_byteChars_append, ih]

theorem toBytes?_ofBytes (bytes : List UInt8)
    : toBytes? (ofBytes bytes) = some bytes := by
  simp [toBytes?, ofBytes, decode?_flatMap_byteChars]

end PacketBus.Hex
