import PacketBus.Text.Hex

/-! Bytes as lines of hexadecimal, each with its address and its printable characters.
A line is built piece by piece in a buffer of fixed size that has room for the widest line.
-/

namespace PacketBus.HexDump

/-- How a dump is laid out. -/
structure Layout where
  /-- Text before every line; only its first bytes are used. -/
  label : String := ""
  /-- Address of the first byte. -/
  address : Nat := 0
  showAddress : Bool := true
  showText : Bool := true
  /-- Bytes to a line, or a number that is not positive for the usual width. -/
  lineWidth : Int := 16
  deriving DecidableEq, Repr

/-- Bytes to a line when no width is asked for. -/
def defaultWidth : Nat := 16

/-- The most bytes that a line shows. -/
def maxWidth : Nat := 32

/-- The most bytes of a label that are used. -/
def maxLabelSize : Nat := 64

/-- How many bytes of text a line can hold. -/
def lineCapacity : Nat := 256

/-- The characters at the front of a text that take at most `room` bytes together. -/
def takeFitting (room : Nat) : List Char → List Char
  | [] => []
  | c :: rest => if c.utf8Size ≤ room then c :: takeFitting (room - c.utf8Size) rest else []

/-- The part of the label that is used. -/
def Layout.shownLabel (layout : Layout) : String :=
  String.ofList (takeFitting maxLabelSize layout.label.toList)

/-- How many bytes stand in a full line. -/
def Layout.width (layout : Layout) : Nat :=
  if layout.lineWidth ≤ 0 then defaultWidth else min layout.lineWidth.toNat maxWidth

/-- A byte as a character if it is a printable one, else a dot. -/
def shownChar (byte : UInt8) : Char :=
  if 0x20 ≤ byte ∧ byte < 0x7F then Char.ofNat byte.toNat else '.'

/-- Puts a piece behind a line. The buffer is assumed to take a piece whole or, where it has no room
for all of it, not at all, and to go on with the next one; no line of a dump comes to that, since the
buffer has room for the widest of them. -/
def push (line piece : String) : String :=
  if line.utf8ByteSize + piece.utf8ByteSize ≤ lineCapacity then line ++ piece else line

/-- A line from its pieces. -/
def assemble (pieces : List String) : String :=
  pieces.foldl push ""

/-- The pieces before the bytes of the line that starts at an address. -/
def Layout.lead (layout : Layout) (address : Nat) : List String :=
  (if layout.shownLabel.isEmpty then [] else [layout.shownLabel, ": "])
    ++ if layout.showAddress then [Hex.ofNat 4 address, ": "] else []

/-- The pieces behind the bytes of a line: filling up to the full width, and the characters. -/
def Layout.tail (layout : Layout) (bytes : List UInt8) : List String :=
  if layout.showText then
    List.replicate (layout.width - bytes.length) "   "
      ++ " " :: bytes.map (fun byte => (shownChar byte).toString)
  else []

/-- The pieces of one line. -/
def Layout.pieces (layout : Layout) (address : Nat) (bytes : List UInt8) : List String :=
  layout.lead address ++ (bytes.map Hex.ofByte).intersperse " " ++ layout.tail bytes

/-- The bytes cut into lines of a width, the last of them possibly shorter. -/
def chunks (width : Nat) (bytes : List UInt8) : List (List UInt8) :=
  if _h : width = 0 ∨ bytes = [] then []
  else bytes.take width :: chunks width (bytes.drop width)
termination_by bytes.length
decreasing_by
  have nonempty : 0 < bytes.length := List.length_pos_iff.2 fun e => _h (Or.inr e)
  have wide : width ≠ 0 := fun e => _h (Or.inl e)
  simp only [List.length_drop]
  omega

/-- The line shown when there are no bytes. -/
def Layout.emptyLine (layout : Layout) : String :=
  assemble
    ((if layout.shownLabel.isEmpty then [] else [layout.shownLabel, ":"]) ++ ["No data"])

/-- The lines of a dump. -/
def lines (layout : Layout) (bytes : List UInt8) : List String :=
  if bytes.isEmpty then [layout.emptyLine]
  else
    (chunks layout.width bytes).mapIdx fun index chunk =>
      assemble (layout.pieces (layout.address + index * layout.width) chunk)

theorem width_pos (layout : Layout)
    : 0 < layout.width := by
  simp only [Layout.width, defaultWidth, maxWidth]
  split
  · omega
  · omega

/-- Cutting loses nothing: the lines together are the bytes, by induction on the cut. -/
theorem flatten_chunks {width : Nat} (wide : 0 < width) (bytes : List UInt8)
    : (chunks width bytes).flatten = bytes := by
  fun_induction chunks width bytes with
  | case1 bytes h =>
      rcases h with h | h
      · omega
      · simp [h]
  | case2 bytes h ih => simp [ih]

end PacketBus.HexDump
