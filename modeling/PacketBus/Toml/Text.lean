import PacketBus.Toml.Blank

/-! Strings of a document, in one line or several, with escapes or without.
Each reader starts behind the opening quotes and ends behind the closing ones.
-/

namespace PacketBus.Toml

/-- The value of a hexadecimal digit of either case. -/
def hexDigit? (c : Char) : Option Nat :=
  if '0' ≤ c ∧ c ≤ '9' then some (c.toNat - 48)
  else if 'a' ≤ c ∧ c ≤ 'f' then some (c.toNat - 87)
  else if 'A' ≤ c ∧ c ≤ 'F' then some (c.toNat - 55)
  else none

/-- The character whose code point the digits give. -/
def codePoint (digits : List Char) : Except Refusal Char :=
  match digits.mapM hexDigit? with
  | none => .error .unknownEscape
  | some values =>
      let number := values.foldl (16 * · + ·) 0
      if number.isValidChar then .ok (Char.ofNat number) else .error .noCharacter

/-- The character that a one-letter escape stands for. -/
def letterEscape? (c : Char) : Option Char :=
  match c with
  | 'b' => some '\x08'
  | 't' => some '\t'
  | 'n' => some '\n'
  | 'f' => some '\x0c'
  | 'r' => some '\r'
  | 'e' => some '\x1b'
  | '"' => some '"'
  | '\\' => some '\\'
  | _ => none

/-- Reads one escape behind its backslash. -/
def escaped : List Char → Reading Char
  | 'x' :: a :: b :: rest => (codePoint [a, b]).map (·, rest)
  | 'u' :: a :: b :: c :: d :: rest => (codePoint [a, b, c, d]).map (·, rest)
  | 'U' :: a :: b :: c :: d :: e :: f :: g :: h :: rest =>
      (codePoint [a, b, c, d, e, f, g, h]).map (·, rest)
  | c :: rest =>
      match letterEscape? c with
      | some meant => .ok (meant, rest)
      | none => .error .unknownEscape
  | [] => .error .unterminatedString

/-- What is left behind an escape is shorter than what stood there. -/
theorem length_escaped {text rest : List Char} {c : Char} (h : escaped text = .ok (c, rest))
    : rest.length < text.length := by
  have mapped {digits : List Char} {back : List Char}
      (e : (codePoint digits).map (·, back) = .ok (c, rest))
      : back = rest := by
    cases found : codePoint digits with
    | error refusal => simp [found, Except.map] at e
    | ok meant =>
        simp only [found, Except.map, Except.ok.injEq, Prod.mk.injEq] at e
        exact e.2
  unfold escaped at h
  split at h
  · rw [← mapped h]
    simp only [List.length_cons]
    omega
  · rw [← mapped h]
    simp only [List.length_cons]
    omega
  · rw [← mapped h]
    simp only [List.length_cons]
    omega
  · split at h
    · cases h
      simp
    · cases h
  · cases h

/-- Puts characters in front of a string that was read. -/
def prepend (front : List Char) : Reading (List Char) → Reading (List Char) :=
  Except.map fun read => (front ++ read.1, read.2)

/-- Reads a string in one line without escapes. -/
def literal : List Char → Reading (List Char)
  | [] => .error .unterminatedString
  | '\'' :: rest => .ok ([], rest)
  | c :: rest => if isPlain c then prepend [c] (literal rest) else .error .controlCharacter

/-- Reads a string in one line. -/
def basic (text : List Char) : Reading (List Char) :=
  match text with
  | [] => .error .unterminatedString
  | '"' :: rest => .ok ([], rest)
  | '\\' :: rest =>
      match _h : escaped rest with
      | .ok (c, next) => prepend [c] (basic next)
      | .error refusal => .error refusal
  | c :: rest => if isPlain c then prepend [c] (basic rest) else .error .controlCharacter
termination_by text.length
decreasing_by
  · have := length_escaped _h
    simp only [List.length_cons]
    omega
  · simp

/-- Reads a string of several lines without escapes. Up to two quotes may stand before the three
that close it. -/
def multiLiteral : List Char → Reading (List Char)
  | [] => .error .unterminatedString
  | '\'' :: '\'' :: '\'' :: '\'' :: '\'' :: rest => .ok (['\'', '\''], rest)
  | '\'' :: '\'' :: '\'' :: '\'' :: rest => .ok (['\''], rest)
  | '\'' :: '\'' :: '\'' :: rest => .ok ([], rest)
  | '\r' :: '\n' :: rest => prepend ['\r', '\n'] (multiLiteral rest)
  | c :: rest =>
      if isPlain c || c = '\n' then prepend [c] (multiLiteral rest)
      else .error .controlCharacter

/-- The text begins with blanks and a line break. -/
def startsWithLineBreak (text : List Char) : Bool :=
  match skipBlanks text with
  | '\n' :: _ => true
  | '\r' :: '\n' :: _ => true
  | _ => false

/-- Reads a string of several lines. A backslash at the end of a line leaves out everything up to
the next character that is neither a blank nor a line break. -/
def multiBasic (isSkipping : Bool) (text : List Char) : Reading (List Char) :=
  match text with
  | [] => .error .unterminatedString
  | '"' :: '"' :: '"' :: '"' :: '"' :: rest => .ok (['"', '"'], rest)
  | '"' :: '"' :: '"' :: '"' :: rest => .ok (['"'], rest)
  | '"' :: '"' :: '"' :: rest => .ok ([], rest)
  | '\n' :: rest =>
      if isSkipping then multiBasic true rest else prepend ['\n'] (multiBasic false rest)
  | '\r' :: '\n' :: rest =>
      if isSkipping then multiBasic true rest else prepend ['\r', '\n'] (multiBasic false rest)
  | '\\' :: rest =>
      if startsWithLineBreak rest then multiBasic true rest
      else
        match _h : escaped rest with
        | .ok (c, next) => prepend [c] (multiBasic false next)
        | .error refusal => .error refusal
  | c :: rest =>
      if isSkipping && isBlank c then multiBasic true rest
      else if isPlain c then prepend [c] (multiBasic false rest)
      else .error .controlCharacter
termination_by text.length
decreasing_by
  all_goals simp only [List.length_cons]
  all_goals try have := length_escaped _h
  all_goals omega

/-- Leaves out a line break that directly follows the opening quotes. -/
def skipFirstLineBreak : List Char → List Char
  | '\n' :: rest => rest
  | '\r' :: '\n' :: rest => rest
  | text => text

/-- Reads a string behind its first quote or quotes, as a text. -/
def asText : Reading (List Char) → Reading String :=
  Except.map fun read => (String.ofList read.1, read.2)

end PacketBus.Toml
