import PacketBus.Toml.Text

/-! Keys of a document: bare or quoted names joined by points.
The names before the last one lead to the table that the last one stands in.
-/

namespace PacketBus.Toml

/-- A dotted key. -/
structure Key where
  parents : List String
  last : String
  deriving DecidableEq, Repr

/-- The most names that may lead to the table of a key. -/
def maxParents : Nat := 79

/-- A character of a bare name. -/
def isBare (c : Char) : Bool := c.isAlphanum || c = '-' || c = '_'

/-- Reads one name. -/
def name (text : List Char) : Reading String :=
  match text with
  | '"' :: rest => asText (basic rest)
  | '\'' :: rest => asText (literal rest)
  | _ =>
      let bare := text.takeWhile isBare
      if bare.isEmpty then .error (.unexpected "a key")
      else .ok (String.ofList bare, text.dropWhile isBare)

/-- Reads names joined by points; a point has to be followed by less than stood before it. -/
def names (text : List Char) : Reading (List String) :=
  match name text with
  | .error refusal => .error refusal
  | .ok (first, rest) =>
      match skipBlanks rest with
      | '.' :: behind =>
          if (skipBlanks behind).length < text.length then
            (names (skipBlanks behind)).map fun read => (first :: read.1, read.2)
          else .error (.unexpected "a key")
      | rest => .ok ([first], rest)
termination_by text.length

/-- Reads a dotted key and the blanks behind it. -/
def key (text : List Char) : Except Refusal (Key × List Char) := do
  let (names, rest) ← names text
  if maxParents < names.length - 1 then .error .tooDeep
  else .ok (⟨names.dropLast, names.getLastD ""⟩, rest)

end PacketBus.Toml
