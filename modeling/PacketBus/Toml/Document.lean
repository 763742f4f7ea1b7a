import PacketBus.Toml.Definition
import PacketBus.Toml.Moment
import PacketBus.Toml.Number

/-! Reading a document into its table.
Values nest only so far, so reading a value is by recursion on the nesting still allowed, and every
statement or item read leaves less text than stood before it.
-/

namespace PacketBus.Toml

/-- How deep brackets may be nested. -/
def maxNesting : Nat := 80

/-- A character that ends a word of a bare value. -/
def endsWord (c : Char) : Bool :=
  isBlank c || "\r\n#,=[]\x7b\x7d".toList.contains c

/-- A character that a further word of a bare value may begin with. -/
def startsWord (c : Char) : Bool :=
  !endsWord c && c ≠ '.' && c ≠ '"' && c ≠ '\''

/-- A bare value, if the whole text is one. A run of digits that is followed by a dash or a colon
begins a moment. -/
def bareValue? (text : List Char) : Option Value :=
  if text = "true".toList then some (.boolean true)
  else if text = "false".toList then some (.boolean false)
  else
    match text.takeWhile Char.isDigit, text.dropWhile Char.isDigit with
    | _ :: _, '-' :: _ | _ :: _, ':' :: _ => (moment? text).map .moment
    | _, _ => number? text

/-- The words of a bare value at the front of a text, with the blanks between them. -/
def takeBare (text : List Char) : List Char × List Char :=
  let word := text.takeWhile (!endsWord ·)
  let rest := text.dropWhile (!endsWord ·)
  let next := skipBlanks rest
  if _h : next.length < text.length ∧ next.head?.any startsWord then
    let (words, behind) := takeBare next
    (word ++ rest.takeWhile isBlank ++ words, behind)
  else (word, rest)
termination_by text.length
decreasing_by exact _h.1

/-- Reads a bare value. -/
def bareValue (text : List Char) : Reading Value :=
  let (bare, rest) := takeBare text
  match bareValue? bare with
  | some value => .ok (value, rest)
  | none => .error (.unknownValue (String.ofList bare))

/-- Reads items up to the closing bracket; the last one may be followed by a comma. -/
def items (item : List Char → Reading Value) (text : List Char) : Reading (List Value) :=
  match skipGaps false text with
  | .error refusal => .error refusal
  | .ok (']' :: rest) => .ok ([], rest)
  | .ok start =>
      match item start with
      | .error refusal => .error refusal
      | .ok (value, behind) =>
          match skipGaps false behind with
          | .error refusal => .error refusal
          | .ok (']' :: rest) => .ok ([value], rest)
          | .ok (',' :: rest) =>
              if rest.length < text.length then
                (items item rest).map fun read => (value :: read.1, read.2)
              else .error (.unexpected "an item")
          | .ok _ => .error (.unexpected "a comma or a bracket")
termination_by text.length

/-- Reads an assignment whose value `item` reads. What `skip` leaves out may stand on both sides of
the equals sign, but not inside the key. -/
def assignment (skip : List Char → Except Refusal (List Char)) (item : List Char → Reading Value)
    (text : List Char)
    : Except Refusal (Assignment × List Char) := do
  let (key, rest) ← key text
  let (value, rest) ← item (← skip (← expect '=' (← skip rest)))
  return (⟨key, value⟩, rest)

/-- Reads assignments up to the closing brace; the last one may be followed by a comma. Between the
braces line breaks and comments may stand wherever blanks may, except inside a key. -/
def assignments (item : List Char → Reading Value) (text : List Char)
    : Reading (List Assignment) :=
  match skipGaps false text with
  | .error refusal => .error refusal
  | .ok ('\x7d' :: rest) => .ok ([], rest)
  | .ok start =>
      match assignment (skipGaps false) item start with
      | .error refusal => .error refusal
      | .ok (first, behind) =>
          match skipGaps false behind with
          | .error refusal => .error refusal
          | .ok ('\x7d' :: rest) => .ok ([first], rest)
          | .ok (',' :: rest) =>
              if rest.length < text.length then
                (assignments item rest).map fun read => (first :: read.1, read.2)
              else .error (.unexpected "a key")
          | .ok _ => .error (.unexpected "a comma or a brace")
termination_by text.length

/-- Reads a value that begins with neither a bracket nor a brace. -/
def simpleValue (text : List Char) : Reading Value :=
  let asValue : Reading String → Reading Value := Except.map fun read => (.text read.1, read.2)
  match text with
  | '"' :: '"' :: '"' :: rest => asValue (asText (multiBasic false (skipFirstLineBreak rest)))
  | '\'' :: '\'' :: '\'' :: rest => asValue (asText (multiLiteral (skipFirstLineBreak rest)))
  | '"' :: rest => asValue (asText (basic rest))
  | '\'' :: rest => asValue (asText (literal rest))
  | _ => bareValue text

/-- Reads a value with brackets nested at most as deep as the first argument says. -/
def value : Nat → List Char → Reading Value
  | 0 => fun text =>
      match text with
      | '[' :: _ | '\x7b' :: _ => .error .tooDeep
      | _ => simpleValue text
  | nesting + 1 => fun text =>
      match text with
      | '[' :: rest => (items (value nesting) rest).map fun read => (.array read.1, read.2)
      | '\x7b' :: rest =>
          match assignments (value nesting) rest with
          | .error refusal => .error refusal
          | .ok (entries, rest) => (tableOfAssignments entries).map (.table ·, rest)
      | _ => simpleValue text

/-- A line of a document. -/
inductive Statement where
  | header (header : Header)
  | assignment (assignment : Assignment)
  deriving Repr

/-- Reads a header or an assignment. -/
def statement (text : List Char) : Except Refusal (Statement × List Char) := do
  match text with
  | '[' :: '[' :: rest =>
      let (key, rest) ← key (skipBlanks rest)
      let rest ← expect ']' (← expect ']' rest)
      return (.header (.element key), rest)
  | '[' :: rest =>
      let (key, rest) ← key (skipBlanks rest)
      return (.header (.table key), ← expect ']' rest)
  | _ =>
      let (first, rest) ← assignment (fun rest => .ok (skipBlanks rest)) (value maxNesting) text
      return (.assignment first, rest)

/-- Reads all statements of a document, each on its own line. -/
def statements (text : List Char) : Except Refusal (List Statement) :=
  match skipGaps false text with
  | .error refusal => .error refusal
  | .ok [] => .ok []
  | .ok start =>
      match statement start with
      | .error refusal => .error refusal
      | .ok (first, behind) =>
          match endOfLine behind with
          | .error refusal => .error refusal
          | .ok rest =>
              if rest.length < text.length then (statements rest).map (first :: ·)
              else .error (.unexpected "a statement")
termination_by text.length

/-- The assignments before the first header, and the sections that the headers open. -/
def sections : List Statement → List Assignment × List Section
  | [] => ([], [])
  | .assignment first :: rest =>
      let (assignments, parts) := sections rest
      (first :: assignments, parts)
  | .header header :: rest =>
      let (assignments, parts) := sections rest
      ([], ⟨header, assignments⟩ :: parts)

/-- The text without a mark of byte order at its front. -/
def skipByteOrderMark : List Char → List Char
  | '\ufeff' :: rest => rest
  | text => text

/-- What reads the table of a document out of its text. -/
abbrev Reader := String → Except Refusal Table

/-- The table of a document. -/
def parse (text : String) : Except Refusal Table := do
  let (assignments, parts) := sections (← statements (skipByteOrderMark text.toList))
  let top ← Entries.assignAll [] assignments
  return entriesToTable (← parts.foldlM Entries.define top)

end PacketBus.Toml
