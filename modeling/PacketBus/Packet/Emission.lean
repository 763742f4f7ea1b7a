import PacketBus.Frame.Wire
import PacketBus.Packet.Basic
import PacketBus.Packet.Failure

/-! Sending a packet byte by byte as a frame.
The sender takes one byte at a time and may stop at any of them; the bytes that can still come
before the frame closes are bounded, so a sender that keeps asking comes to its end.
-/

namespace PacketBus

/-- One byte of a frame, and whether the frame is complete with it. -/
structure WireByte where
  value : UInt8
  status : FrameStatus
  deriving DecidableEq, Repr

namespace Packet

/-- The byte that is to be sent next inside the frame: one of the body, then the checksum. -/
def pendingByte (p : Packet) : UInt8 :=
  if p.emitter.next < p.bodySize then p.storage.getD p.emitter.next 0 else p.emitter.checksum

/-- Goes back before the opening delimiter; a packet without a command has no frame. -/
def rewind (p : Packet) : Except Failure Packet :=
  if p.bodySize = 0 then .error .tooShort
  else .ok { p with emitter := { p.emitter with phase := .between, next := 0 } }

/-- The next byte of the frame, and the packet behind that byte. -/
def emit (p : Packet) : Except Failure (WireByte × Packet) :=
  match p.emitter.phase with
  | .between =>
      if p.bodySize = 0 then .error .tooShort
      else
        .ok
          (⟨Frame.delimiter, .unfinished⟩,
            { p with emitter := ⟨.inside, 0, Checksum.ofBytes p.body⟩ })
  | .inside =>
      if p.bodySize < p.emitter.next then
        .ok
          (⟨Frame.delimiter, .complete⟩,
            { p with emitter := { p.emitter with phase := .between } })
      else if (Frame.escape? p.pendingByte).isSome then
        .ok
          (⟨Frame.escapeMark, .unfinished⟩,
            { p with emitter := { p.emitter with phase := .escaped } })
      else
        .ok
          (⟨p.pendingByte, .unfinished⟩,
            { p with emitter := { p.emitter with next := p.emitter.next + 1 } })
  | .escaped =>
      .ok
        (⟨(Frame.escape? p.pendingByte).getD Frame.escapedMark, .unfinished⟩,
          { p with emitter := { p.emitter with phase := .inside, next := p.emitter.next + 1 } })

/-- How many bytes the frame of this packet takes on the wire. -/
def frameSize (p : Packet) : Nat := Frame.wireSize p.body

/-- A bound on the bytes that come before the frame in progress, or the next one, is closed. -/
def emitBudget (p : Packet) : Nat :=
  match p.emitter.phase with
  | .between => 2 * p.bodySize + 4
  | .inside => 2 * (p.bodySize + 1 - p.emitter.next) + 1
  | .escaped => 2 * max (p.bodySize + 1 - p.emitter.next) 1

/-- Every byte before the closing delimiter brings the packet nearer to it. -/
theorem emitBudget_emit {p q : Packet} {byte : WireByte}
    (h : p.emit = .ok (byte, q)) (more : byte.status = .unfinished)
    : q.emitBudget < p.emitBudget := by
  unfold emit at h
  split at h
  · next phase =>
      split at h
      · cases h
      · cases h
        simp only [emitBudget, phase, bodySize]
        omega
  · next phase =>
      split at h
      · cases h
        cases more
      · next inside =>
          split at h
          · cases h
            simp only [emitBudget, phase, bodySize] at inside ⊢
            omega
          · cases h
            simp only [emitBudget, phase, bodySize] at inside ⊢
            omega
  · next phase =>
      cases h
      simp only [emitBudget, phase, bodySize]
      omega

/-- Takes bytes until the frame is closed. -/
def emitAll (p : Packet) : List UInt8 × Packet :=
  match _h : p.emit with
  | .error _ => ([], p)
  | .ok (byte, q) =>
      match _more : byte.status with
      | .complete => ([byte.value], q)
      | .unfinished =>
          let (rest, r) := q.emitAll
          (byte.value :: rest, r)
termination_by p.emitBudget
decreasing_by exact emitBudget_emit _h _more

/-- What became of a buffer: how many bytes of it hold the frame, and its bytes afterwards. -/
structure Filled where
  result : Except Failure Nat
  buffer : List UInt8

/-- Writes the whole frame to the front of a buffer, or leaves the buffer as it is. -/
def writeFrame (p : Packet) (buffer : List UInt8) : Filled × Packet :=
  match p.rewind with
  | .error e => (⟨.error e, buffer⟩, p)
  | .ok q =>
      if buffer.length < q.frameSize then (⟨.error .overflow, buffer⟩, q)
      else
        let (wire, r) := q.emitAll
        (⟨.ok wire.length, wire ++ buffer.drop wire.length⟩, r)

end Packet

end PacketBus
