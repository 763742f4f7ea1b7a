import PacketBus.Toml.Document

/-! Reading one field of settings out of a document.
A field that is absent keeps its default, and one that is present must hold a value of its type.
-/

namespace PacketBus

namespace Toml.Value

/-- The text of a string. -/
def text? : Value → Option String
  | .text content => some content
  | _ => none

/-- The truth value of a boolean. -/
def boolean? : Value → Option Bool
  | .boolean value => some value
  | _ => none

/-- The number of an integer between zero and a bound, which is left out. -/
def natBelow? (bound : Nat) : Value → Option Nat
  | .integer value => if 0 ≤ value ∧ value < bound then some value.toNat else none
  | _ => none

/-- The number of an integer that fits 32 bits. -/
def word32? (value : Value) : Option UInt32 := (value.natBelow? UInt32.size).map UInt32.ofNat

/-- The number of an integer that fits 8 bits. -/
def word8? (value : Value) : Option UInt8 := (value.natBelow? UInt8.size).map UInt8.ofNat

end Toml.Value

namespace Settings

open Toml (Table Value)

/-- Why a document gives no settings. -/
inductive Failure where
  | document (refusal : Toml.Refusal)
  /-- The value of a field is of another type or out of its range. -/
  | field (key : String)
  /-- A value that is not needed holds a number that no machine can hold. -/
  | unreadable (key : String)
  deriving DecidableEq, Repr

/-- The cause in words. -/
def Failure.message : Failure → String
  | document refusal => refusal.message
  | field key => "invalid value for " ++ key
  | unreadable key => "number out of range in " ++ key

/-- What a value gives for a field, or the default if there is no value. -/
def readField {α : Type} (key : String) (read? : Value → Option α) (default : α)
    : Option Value → Except Failure α
  | none => .ok default
  | some value => (read? value).elim (.error (.field key)) .ok

/-- The entries with other keys have to be readable, though they are not needed. -/
def checkOthers (known : List String) (table : Table) : Except Failure Unit :=
  match table.find? fun entry => !known.contains entry.1 && !entry.2.isReadable with
  | none => .ok ()
  | some entry => .error (.unreadable entry.1)

end Settings

end PacketBus
