/-! The reserved bytes of a frame and the stuffing of its content.
A stuffed run never holds the delimiter, so the delimiter alone tells where a frame ends.
-/

namespace PacketBus.Frame

/-- Opens and closes a frame. -/
def delimiter : UInt8 := 0xC0

/-- Announces that the next byte is escaped. -/
def escapeMark : UInt8 := 0xDB

/-- Stands for the delimiter after an escape mark. -/
def escapedDelimiter : UInt8 := 0xDC

/-- Stands for the escape mark after an escape mark. -/
def escapedMark : UInt8 := 0xDD

/-- The byte sent after an escape mark, for the two bytes that must be escaped. -/
def escape? (byte : UInt8) : Option UInt8 :=
  if byte = delimiter then some escapedDelimiter
  else if byte = escapeMark then some escapedMark
  else none

/-- The byte meant after an escape mark; a byte that needed no escape stands for itself. -/
def unescape (byte : UInt8) : UInt8 :=
  if byte = escapedDelimiter then delimiter
  else if byte = escapedMark then escapeMark
  else byte

/-- A byte as it is sent inside a frame: itself, or an escape mark and its escaped form. -/
def stuffByte (byte : UInt8) : List UInt8 :=
  match escape? byte with
  | some escaped => [escapeMark, escaped]
  | none => [byte]

/-- A run of bytes as it is sent inside a frame. -/
def stuff (bytes : List UInt8) : List UInt8 :=
  bytes.flatMap stuffByte

@[simp] theorem stuff_nil
    : stuff [] = [] :=
  rfl

@[simp] theorem stuff_cons (byte : UInt8) (rest : List UInt8)
    : stuff (byte :: rest) = stuffByte byte ++ stuff rest := by
  simp [stuff]

@[simp] theorem stuff_append (front back : List UInt8)
    : stuff (front ++ back) = stuff front ++ stuff back := by
  simp [stuff]

/-- Reading an escaped byte gives the byte that was escaped, in both cases. -/
theorem unescape_escape? {byte escaped : UInt8} (h : escape? byte = some escaped)
    : unescape escaped = byte := by
  unfold escape? at h
  split at h
  · next e =>
      cases h
      rw [e]
      rfl
  · split at h
    · next e =>
        cases h
        rw [e]
        rfl
    · cases h

theorem delimiter_not_mem_stuffByte (byte : UInt8)
    : delimiter ∉ stuffByte byte := by
  by_cases hd : byte = delimiter
  · subst hd
    decide
  · by_cases hm : byte = escapeMark
    · subst hm
      decide
    · simpa [stuffByte, escape?, hd, hm] using fun h => hd h.symm

/-- No delimiter is sent inside a frame, since none is sent for any of its bytes. -/
theorem delimiter_not_mem_stuff (bytes : List UInt8)
    : delimiter ∉ stuff bytes := by
  simp only [stuff, List.mem_flatMap, not_exists, not_and]
  exact fun byte _ => delimiter_not_mem_stuffByte byte

end PacketBus.Frame
