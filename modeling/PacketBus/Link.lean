import PacketBus.Packet.Emission
import PacketBus.Packet.Reception
import PacketBus.Port
import PacketBus.Settings.Link

/-! Packets over a port.
Reading takes at most one byte and writing goes on until the port refuses one; a refused byte is
held and is the first to be offered again.
-/

namespace PacketBus

/-- Why a link could not read or write. -/
inductive Link.Failure (ε : Type) where
  | packet (failure : Packet.Failure)
  | port (fault : ε)
  deriving DecidableEq, Repr

/-- The cause in words, with the fault of the port as `describe` writes it. -/
def Link.Failure.message {ε : Type} (describe : ε → String) : Link.Failure ε → String
  | packet failure => "packet error: " ++ failure.message
  | port fault => "port error: " ++ describe fault

/-- A port and the packet that incoming frames are received into. -/
structure Link (P : Type) where
  port : P
  incoming : Packet
  /-- A byte of the frame being written that the port refused. -/
  held : Option WireByte := none
  debug : Bool := false

namespace Link

/-- A link over a port that receives into a storage. -/
def onPort {P : Type} (port : P) (storage : List UInt8) (settings : LinkSettings := {}) : Link P :=
  { port, incoming := Packet.ofStorage storage, debug := settings.debug }

variable {P ε : Type} [Port P ε]

/-- Reads a byte, if there is one, and takes it into the incoming packet. -/
def receive (link : Link P) : Except (Failure ε) (Option FrameStatus) × Link P :=
  match Port.read link.port with
  | (.error fault, port) => (.error (.port fault), { link with port })
  | (.ok none, port) => (.ok none, { link with port })
  | (.ok (some byte), port) =>
      match link.incoming.receive byte with
      | (.ok status, incoming) => (.ok (some status), { link with port, incoming })
      | (.error e, incoming) => (.error (.packet e), { link with port, incoming })

/-- Reads like `receive`, with no byte counted as an unfinished packet. -/
def receiveStatus (link : Link P) : Except (Failure ε) FrameStatus × Link P :=
  let (result, after) := link.receive
  (result.map (·.getD .unfinished), after)

omit [Port P ε] in
/-- Begins to write a packet; an unfinished write is given up, with the byte held for it. A packet
that has no frame is refused before anything is given up. -/
def prepare (link : Link P) (packet : Packet) : Except Packet.Failure Packet × Link P :=
  match packet.rewind with
  | .error e => (.error e, link)
  | .ok packet => (.ok packet, { link with held := none })

omit [Port P ε] in
/-- The byte to offer to the port: the one held, or else the next of the frame. -/
def nextByte (link : Link P) (packet : Packet) : Except Packet.Failure (WireByte × Packet) :=
  match link.held with
  | some byte => .ok (byte, packet)
  | none => packet.emit

omit [Port P ε] in
/-- A bound on the bytes that can still be offered to the port for a packet. -/
def pushBudget (link : Link P) (packet : Packet) : Nat :=
  packet.emitBudget + if link.held.isSome then 1 else 0

omit [Port P ε] in
/-- Once a byte before the closing delimiter is taken, fewer are left. -/
theorem pushBudget_nextByte {link : Link P} {packet next : Packet} {byte : WireByte}
    (h : link.nextByte packet = .ok (byte, next)) (more : byte.status = .unfinished) (port : P)
    : ({ link with port, held := none } : Link P).pushBudget next < link.pushBudget packet := by
  unfold nextByte at h
  split at h
  · next held =>
      cases h
      simp [pushBudget, held]
  · next held =>
      simpa [pushBudget, held] using Packet.emitBudget_emit h more

/-- How far a frame has been written, with the link and the packet after it. -/
structure Pushed (P ε : Type) where
  result : Except (Failure ε) FrameStatus
  link : Link P
  packet : Packet

/-- Offers bytes of the frame to the port until the frame is complete or the port refuses one. -/
def push (link : Link P) (packet : Packet) : Pushed P ε :=
  match _h : link.nextByte packet with
  | .error e => ⟨.error (.packet e), link, packet⟩
  | .ok (byte, next) =>
      match Port.write link.port byte.value with
      | (.error fault, port) => ⟨.error (.port fault), { link with port, held := none }, next⟩
      | (.ok false, port) => ⟨.ok .unfinished, { link with port, held := some byte }, next⟩
      | (.ok true, port) =>
          match _more : byte.status with
          | .complete => ⟨.ok .complete, { link with port, held := none }, next⟩
          | .unfinished => push { link with port, held := none } next
termination_by link.pushBudget packet
decreasing_by exact pushBudget_nextByte _h _more _

/-- What writing a whole packet comes to, or nothing if it is not finished yet. -/
structure Delivery (P ε : Type) where
  result? : Option (Except (Failure ε) Unit)
  link : Link P
  packet : Packet

/-- Goes on writing until the frame is complete, offering it `patience` times at most. -/
def pushAll (link : Link P) (packet : Packet) : Nat → Delivery P ε
  | 0 => ⟨none, link, packet⟩
  | patience + 1 =>
      match link.push packet with
      | ⟨.ok .complete, link, packet⟩ => ⟨some (.ok ()), link, packet⟩
      | ⟨.ok .unfinished, link, packet⟩ => pushAll link packet patience
      | ⟨.error e, link, packet⟩ => ⟨some (.error e), link, packet⟩

/-- Writes a whole packet, offering it to the port `patience` times at most. -/
def send (link : Link P) (packet : Packet) (patience : Nat) : Delivery P ε :=
  match link.prepare packet with
  | (.error e, link) => ⟨some (.error (.packet e)), link, packet⟩
  | (.ok packet, link) => link.pushAll packet patience

end Link

end PacketBus
