/-! What may stand between the parts of a document, and why a document is refused.
Blanks separate parts on one line; in brackets, in braces and between statements, line breaks and
comments do too.
-/

namespace PacketBus.Toml

/-- Why a document is refused. -/
inductive Refusal where
  /-- Something else has to stand here. -/
  | unexpected (expected : String)
  /-- The document ends inside a string. -/
  | unterminatedString
  /-- A character that may not stand in a comment or a string. -/
  | controlCharacter
  | unknownEscape
  /-- An escape gives a number that is no character. -/
  | noCharacter
  /-- A bare value that is none of the known forms. -/
  | unknownValue (text : String)
  | duplicateKey (key : String)
  /-- Brackets or keys are nested too deeply. -/
  | tooDeep
  deriving DecidableEq, Repr

/-- The refusal in words. -/
def Refusal.message : Refusal → String
  | unexpected expected => "expected " ++ expected
  | unterminatedString => "unterminated string"
  | controlCharacter => "control character"
  | unknownEscape => "unknown escape"
  | noCharacter => "escape of no character"
  | unknownValue text => "unknown value: " ++ text
  | duplicateKey key => "duplicate key: " ++ key
  | tooDeep => "nested too deeply"

/-- What was read at the front of a text, and the text behind it. -/
abbrev Reading (α : Type) := Except Refusal (α × List Char)

/-- A blank within a line. -/
def isBlank (c : Char) : Bool := c = ' ' || c = '\t'

/-- A character that may stand as itself in a comment or a string. -/
def isPlain (c : Char) : Bool := c = '\t' || (' ' ≤ c && c ≠ '\x7f')

/-- Leaves out blanks. -/
def skipBlanks (text : List Char) : List Char := text.dropWhile isBlank

/-- Leaves out blanks, line breaks and comments. -/
def skipGaps (inComment : Bool) : List Char → Except Refusal (List Char)
  | [] => .ok []
  | '\n' :: rest => skipGaps false rest
  | '\r' :: '\n' :: rest => skipGaps false rest
  | c :: rest =>
      if inComment then if isPlain c then skipGaps true rest else .error .controlCharacter
      else if isBlank c then skipGaps false rest
      else if c = '#' then skipGaps true rest
      else .ok (c :: rest)

/-- Leaves out what may follow a statement on its line, and the line break. -/
def endOfLine (text : List Char) : Except Refusal (List Char) :=
  let rest :=
    match skipBlanks text with
    | '#' :: comment => comment.dropWhile isPlain
    | other => other
  match rest with
  | [] => .ok []
  | '\n' :: next => .ok next
  | '\r' :: '\n' :: next => .ok next
  | _ => .error (.unexpected "end of line")

/-- Takes one character that has to stand here. -/
def expect (c : Char) : List Char → Except Refusal (List Char)
  | [] => .error (.unexpected c.toString)
  | d :: rest => if d = c then .ok rest else .error (.unexpected c.toString)

end PacketBus.Toml
