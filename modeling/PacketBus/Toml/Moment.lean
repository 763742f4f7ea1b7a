import PacketBus.Toml.Value

/-! Dates and times of a document.
A date and a time are parted by a letter or one blank, and only both together may have an offset.
-/

namespace PacketBus.Toml

/-- The number that two digits give. -/
def twoDigits? (tens ones : Char) : Option Nat :=
  if tens.isDigit && ones.isDigit then some (10 * (tens.toNat - 48) + (ones.toNat - 48)) else none

/-- A year with a twenty-ninth of February. -/
def isLeapYear (year : Nat) : Bool :=
  year % 4 = 0 && (year % 100 ≠ 0 || year % 400 = 0)

/-- How many days a month has. -/
def daysInMonth (year month : Nat) : Nat :=
  if month = 2 then if isLeapYear year then 29 else 28
  else if month = 4 ∨ month = 6 ∨ month = 9 ∨ month = 11 then 30
  else 31

/-- A date that the calendar has. -/
def Date.isValid (date : Date) : Bool :=
  1 ≤ date.month && date.month ≤ 12 && 1 ≤ date.day
    && date.day ≤ daysInMonth date.year date.month

/-- A time that a day has, leap seconds included. -/
def Time.isValid (time : Time) : Bool :=
  time.hour ≤ 23 && time.minute ≤ 59 && time.second ≤ 60

/-- Reads a date at the front of a text. -/
def date? : List Char → Option (Date × List Char)
  | a :: b :: c :: d :: '-' :: e :: f :: '-' :: g :: h :: rest => do
      let century ← twoDigits? a b
      let year ← twoDigits? c d
      let month ← twoDigits? e f
      let day ← twoDigits? g h
      let date : Date := ⟨100 * century + year, month, day⟩
      if date.isValid then some (date, rest) else none
  | _ => none

/-- The nanoseconds that the digits behind the point of a second give; further digits are left
out. -/
def nanoseconds (digits : List Char) : Nat :=
  ((digits ++ List.replicate 9 '0').take 9).foldl (fun value c => 10 * value + (c.toNat - 48)) 0

/-- Reads the seconds of a time, if it has any. -/
def seconds? : List Char → Option ((Nat × Nat) × List Char)
  | ':' :: a :: b :: '.' :: rest => do
      let second ← twoDigits? a b
      let digits := rest.takeWhile Char.isDigit
      if digits.isEmpty then none
      else some ((second, nanoseconds digits), rest.dropWhile Char.isDigit)
  | ':' :: a :: b :: rest => (twoDigits? a b).map fun second => ((second, 0), rest)
  | ':' :: _ => none
  | rest => some ((0, 0), rest)

/-- Reads a time at the front of a text. -/
def time? : List Char → Option (Time × List Char)
  | a :: b :: ':' :: c :: d :: rest => do
      let hour ← twoDigits? a b
      let minute ← twoDigits? c d
      let ((second, nanosecond), rest) ← seconds? rest
      let time : Time := ⟨hour, minute, second, nanosecond⟩
      if time.isValid then some (time, rest) else none
  | _ => none

/-- Minutes from universal time, if the whole text is an offset. -/
def offset? : List Char → Option Int
  | ['Z'] | ['z'] => some 0
  | [sign, a, b, ':', c, d] => do
      let hours ← twoDigits? a b
      let minutes ← twoDigits? c d
      if 23 < hours ∨ 59 < minutes then none
      else if sign = '+' then some (60 * hours + minutes)
      else if sign = '-' then some (-(60 * hours + minutes))
      else none
  | _ => none

/-- A time with an offset or without one, behind a date. -/
def timeBehind? (date : Date) (text : List Char) : Option Moment := do
  let (time, rest) ← time? text
  if rest.isEmpty then some { date? := some date, time? := some time }
  else some { date? := some date, time? := some time, offset? := some (← offset? rest) }

/-- A moment, if the whole text is one. -/
def moment? (text : List Char) : Option Moment :=
  match date? text with
  | some (date, []) => some { date? := some date }
  | some (date, mark :: rest) =>
      if mark = 'T' || mark = 't' || mark = ' ' then timeBehind? date rest else none
  | none =>
      match time? text with
      | some (time, []) => some { time? := some time }
      | _ => none

end PacketBus.Toml
