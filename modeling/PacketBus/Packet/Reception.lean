import PacketBus.Frame.Wire
import PacketBus.Packet.Basic
import PacketBus.Packet.Failure

/-! Receiving a frame byte by byte into a packet.
The first byte after a finished frame opens the next one whatever its value, and every way a frame
ends leaves the packet ready for another.
-/

namespace PacketBus.Packet

/-- Stores one byte of a frame; a frame that does not fit is given up. -/
def store (p : Packet) (byte : UInt8) : Except Failure FrameStatus × Packet :=
  if p.size < p.capacity then
    (.ok .unfinished, { p with storage := p.storage.set p.size byte, size := p.size + 1 })
  else (.error .overflow, { p with receiver := .between })

/-- Compares the last byte of a closed frame with the checksum of the bytes before it. -/
def verify (p : Packet) : Except Failure FrameStatus × Packet :=
  let received := p.storage.getD (p.size - 1) 0
  let expected := Checksum.ofBytes (p.storage.take (p.size - 1))
  if received = expected then
    (.ok .complete, { p with receiver := .between, verified := true })
  else (.error (.checksumMismatch received expected), { p with receiver := .between })

/-- Closes a frame. A delimiter before any content is skipped, and a lone byte is no packet. -/
def close (p : Packet) : Except Failure FrameStatus × Packet :=
  if p.size = 0 then (.ok .unfinished, p)
  else if p.size = 1 then (.error .tooShort, { p with receiver := .between })
  else p.verify

/-- Takes one byte that came over the wire. -/
def receive (p : Packet) (byte : UInt8) : Except Failure FrameStatus × Packet :=
  match p.receiver with
  | .between => (.ok .unfinished, { p with size := 0, verified := false, receiver := .inside })
  | .inside =>
      if byte = Frame.delimiter then p.close
      else if byte = Frame.escapeMark then (.ok .unfinished, { p with receiver := .escaped })
      else p.store byte
  | .escaped => { p with receiver := .inside }.store (Frame.unescape byte)

/-- What became of a run of bytes: how the frame stands, and how many bytes it took. -/
structure Reception where
  result : Except Failure FrameStatus
  used : Nat

/-- Takes bytes until a frame is complete or lost, or no byte is left. -/
def receiveFrame (p : Packet) : List UInt8 → Reception × Packet
  | [] => (⟨.ok .unfinished, 0⟩, p)
  | byte :: rest =>
      match p.receive byte with
      | (.ok .unfinished, q) =>
          let (reception, r) := q.receiveFrame rest
          ({ reception with used := reception.used + 1 }, r)
      | (result, q) => (⟨result, 1⟩, q)

/-- Gives up a frame in progress; the bytes held stay. -/
def abandonFrame (p : Packet) : Packet := { p with receiver := .between }

/-- A run of bytes is never taken beyond its end, by induction on the run. -/
theorem used_receiveFrame_le (p : Packet) (bytes : List UInt8)
    : (p.receiveFrame bytes).1.used ≤ bytes.length := by
  induction bytes generalizing p with
  | nil => simp [receiveFrame]
  | cons byte rest ih =>
      simp only [receiveFrame]
      split
      · exact Nat.succ_le_succ (ih _)
      · simp

/-- Some byte of a run that is not empty is taken. -/
theorem used_receiveFrame_pos (p : Packet) {bytes : List UInt8} (nonempty : bytes ≠ [])
    : 0 < (p.receiveFrame bytes).1.used := by
  cases bytes with
  | nil => exact absurd rfl nonempty
  | cons byte rest =>
      simp only [receiveFrame]
      split <;> simp

/-- Takes a chunk of a stream, frame after frame, until none of it is left. Each entry is what
became of one frame or of the last part of one, with the packet after it. -/
def receiveAll (p : Packet) (chunk : List UInt8) : List (Reception × Packet) :=
  let step := p.receiveFrame chunk
  let rest := chunk.drop step.1.used
  step :: if rest = [] then [] else step.2.receiveAll rest
termination_by chunk.length
decreasing_by
  next more =>
    have nonempty : chunk ≠ [] := fun e => more (by simp [rest, e])
    have taken := used_receiveFrame_pos p nonempty
    have longer := List.length_pos_iff.2 nonempty
    simp only [List.length_drop]
    omega

end PacketBus.Packet
