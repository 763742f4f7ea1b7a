import PacketBus.Frame.Checksum
import PacketBus.Frame.Stuffing

/-! The wire form of a frame.
The body and its checksum are stuffed and stand between two delimiters, so a frame takes two bytes
for them and one or two for every byte inside.
-/

namespace PacketBus

/-- How far a frame has come after one byte of it. -/
inductive FrameStatus where
  | unfinished
  | complete
  deriving DecidableEq, Repr

namespace Frame

/-- A body as it goes over the wire. -/
def wire (body : List UInt8) : List UInt8 :=
  delimiter :: stuff (body ++ [Checksum.ofBytes body]) ++ [delimiter]

/-- How many bytes a run takes once it is stuffed: one for each, and one more for each reserved. -/
def stuffedSize (bytes : List UInt8) : Nat :=
  bytes.length + bytes.countP fun byte => (escape? byte).isSome

/-- How many bytes a body takes on the wire, counted without forming them. -/
def wireSize (body : List UInt8) : Nat :=
  2 + stuffedSize body + stuffedSize [Checksum.ofBytes body]

/-- A stuffed byte takes a second place exactly if it is reserved. -/
theorem length_stuffByte (byte : UInt8)
    : (stuffByte byte).length = if (escape? byte).isSome then 2 else 1 := by
  unfold stuffByte
  cases escape? byte with
  | none => rfl
  | some escaped => rfl

/-- The count agrees with the stuffed run, by induction on the run. -/
theorem length_stuff (bytes : List UInt8)
    : (stuff bytes).length = stuffedSize bytes := by
  induction bytes with
  | nil => rfl
  | cons byte rest ih =>
      simp only [stuffedSize] at ih
      simp only [stuff_cons, stuffedSize, List.length_append, List.length_cons, List.countP_cons,
        length_stuffByte, ih]
      split
      · omega
      · omega

/-- The count agrees with the wire form, by the lengths of its parts. -/
theorem length_wire (body : List UInt8)
    : (wire body).length = wireSize body := by
  simp only [wire, wireSize, stuff_append, List.cons_append, List.length_cons,
    List.length_append, List.length_nil, length_stuff]
  omega

end Frame

end PacketBus
