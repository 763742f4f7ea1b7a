/-! The values of a document.
A table is a list of entries in the order they were defined, and no key comes twice in one.
-/

namespace PacketBus.Toml

/-- A number with a point or an exponent. -/
inductive Real where
  /-- The digits as a whole number, times ten to the exponent. -/
  | decimal (isNegative : Bool) (digits : Nat) (exponent : Int)
  | infinity (isNegative : Bool)
  | notANumber
  deriving DecidableEq, Repr

/-- A day of the calendar. -/
structure Date where
  year : Nat
  month : Nat
  day : Nat
  deriving DecidableEq, Repr

/-- A time of day; seconds may be left out. -/
structure Time where
  hour : Nat
  minute : Nat
  second : Nat := 0
  nanosecond : Nat := 0
  deriving DecidableEq, Repr

/-- A date, a time of day, or both, possibly with the distance from universal time in minutes. -/
structure Moment where
  date? : Option Date := none
  time? : Option Time := none
  offset? : Option Int := none
  deriving DecidableEq, Repr

/-- A value of a document. -/
inductive Value where
  | text (text : String)
  | integer (value : Int)
  /-- A whole number by its outline whose digits give no number. -/
  | illegible
  | real (value : Real)
  | boolean (value : Bool)
  | moment (value : Moment)
  | array (items : List Value)
  | table (entries : List (String × Value))
  deriving Repr

/-- The entries of a table. -/
abbrev Table := List (String × Value)

/-- The least number that every double is below, once rounded. -/
def doubleLimit : Nat := 1 <<< 1024 - 1 <<< 970

/-- The number does not round to infinity as a double. Numbers far from the limit are told by their
count of digits, so no large power is formed for them. -/
def Real.fitsDouble : Real → Bool
  | infinity _ | notANumber => true
  | decimal _ digits exponent =>
      let magnitude := (Nat.toDigits 10 digits).length + exponent
      if digits = 0 then true
      else if magnitude < 300 then true
      else if 320 < magnitude then false
      else if 0 ≤ exponent then digits * Nat.pow 10 exponent.toNat < doubleLimit
      else digits < doubleLimit * Nat.pow 10 (-exponent).toNat

/-- The number can be held in 128 bits, with or without a sign. -/
def fitsWideInteger (value : Int) : Bool :=
  -(1 <<< 127) ≤ value && value < 1 <<< 128

mutual

/-- Every number inside the value is one, and can be held by a machine. -/
def Value.isReadable : Value → Bool
  | .integer value => fitsWideInteger value
  | .illegible => false
  | .real value => value.fitsDouble
  | .array items => allReadable items
  | .table entries => entriesReadable entries
  | .text _ | .boolean _ | .moment _ => true

/-- Every item is readable. -/
def allReadable : List Value → Bool
  | [] => true
  | item :: rest => item.isReadable && allReadable rest

/-- Every entry has a readable value. -/
def entriesReadable : List (String × Value) → Bool
  | [] => true
  | (_, value) :: rest => value.isReadable && entriesReadable rest

end

end PacketBus.Toml
