import PacketBus.Toml.Value

/-! Numbers of a document.
Digits may be parted by single underscores, and only a lone zero may begin with zero. A whole number
is told by its outline alone, and one whose digits give no number is refused only where it is read.
-/

namespace PacketBus.Toml

/-- The digits of a run in which single underscores may stand between two digits. -/
def digitRun (isDigit : Char → Bool) : List Char → Option (List Char)
  | [] => none
  | [c] => if isDigit c then some [c] else none
  | c :: '_' :: rest => if isDigit c then (digitRun isDigit rest).map (c :: ·) else none
  | c :: rest => if isDigit c then (digitRun isDigit rest).map (c :: ·) else none

/-- The value of a digit in a base up to sixteen. -/
def digitValue (c : Char) : Nat :=
  if c.isDigit then c.toNat - 48 else if c.isUpper then c.toNat - 55 else c.toNat - 87

/-- The number that digits give in a base. -/
def natOfDigits (base : Nat) (digits : List Char) : Nat :=
  digits.foldl (fun value c => base * value + digitValue c) 0

/-- A hexadecimal digit of either case. -/
def isHexDigit (c : Char) : Bool :=
  c.isDigit || ('a' ≤ c && c ≤ 'f') || ('A' ≤ c && c ≤ 'F')

/-- The digits of a decimal number without needless zeros in front. -/
def wholeDigits? (text : List Char) : Option (List Char) :=
  match digitRun Char.isDigit text with
  | some ('0' :: _ :: _) => none
  | digits? => digits?

/-- Every underscore stands between two digits, one of which may have come before the text. -/
def underscoresPart (isDigit : Char → Bool) (behindDigit : Bool) : List Char → Bool
  | [] => true
  | ['_'] => false
  | '_' :: c :: rest => behindDigit && isDigit c && underscoresPart isDigit true rest
  | c :: rest => underscoresPart isDigit (isDigit c) rest

/-- The text behind a sign has the outline of a whole number: digits in front, an underscore behind
them, and digits of any base around every underscore. -/
def hasWholeOutline (text : List Char) : Bool :=
  (text.dropWhile Char.isDigit).head? = some '_' && text.head? ≠ some '0' && !text.contains ' '
    && underscoresPart isHexDigit false text

/-- A sign, and the text behind it. -/
def takeSign : List Char → Option Bool × List Char
  | '+' :: rest => (some false, rest)
  | '-' :: rest => (some true, rest)
  | text => (none, text)

/-- The text before and behind the first character of a kind, if there is one. -/
def splitAtFirst (isMark : Char → Bool) (text : List Char) : List Char × Option (List Char) :=
  match text.dropWhile (!isMark ·) with
  | [] => (text, none)
  | _ :: rest => (text.takeWhile (!isMark ·), some rest)

/-- A whole number behind its sign. -/
def signed (isNegative : Bool) (value : Nat) : Int :=
  if isNegative then -value else value

/-- An exponent with or without a sign; it may begin with zeros. -/
def exponent? (text : List Char) : Option Int :=
  let (sign?, digits) := takeSign text
  (digitRun Char.isDigit digits).map fun run => signed (sign?.getD false) (natOfDigits 10 run)

/-- A decimal number with a point or an exponent. -/
def real? (sign? : Option Bool) (text : List Char) : Option Real := do
  let (mantissa, power?) := splitAtFirst (fun c => c = 'e' || c = 'E') text
  let (whole, fraction?) := splitAtFirst (· = '.') mantissa
  let wholeRun ← wholeDigits? whole
  let fraction ← fraction?.elim (some []) (digitRun Char.isDigit)
  let power ← power?.elim (some 0) exponent?
  some
    (.decimal (sign?.getD false) (natOfDigits 10 (wholeRun ++ fraction)) (power - fraction.length))

/-- A whole number in base ten. -/
def whole? (sign? : Option Bool) (text : List Char) : Option Value :=
  match wholeDigits? text with
  | some run => some (.integer (signed (sign?.getD false) (natOfDigits 10 run)))
  | none => if hasWholeOutline text then some .illegible else none

/-- A whole number in another base, behind the mark of its base. -/
def based? (base : Nat) (isDigit : Char → Bool) : List Char → Option Value
  | [] => some .illegible
  | digits => (digitRun isDigit digits).map (.integer <| natOfDigits base ·)

/-- A number, if the whole text is one. A number in another base has no sign. -/
def number? (text : List Char) : Option Value :=
  match text with
  | '0' :: 'x' :: digits => based? 16 isHexDigit digits
  | '0' :: 'o' :: digits => based? 8 (fun c => '0' ≤ c && c ≤ '7') digits
  | '0' :: 'b' :: digits => based? 2 (fun c => c = '0' || c = '1') digits
  | _ =>
      match takeSign text with
      | (sign?, ['i', 'n', 'f']) => some (.real (.infinity (sign?.getD false)))
      | (_, ['n', 'a', 'n']) => some (.real .notANumber)
      | (sign?, unsigned) =>
          if unsigned.any fun c => c = '.' || c = 'e' || c = 'E' then
            (real? sign? unsigned).map .real
          else whole? sign? unsigned

end PacketBus.Toml
