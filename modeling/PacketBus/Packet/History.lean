import PacketBus.Packet.Build
import PacketBus.Packet.Emission
import PacketBus.Packet.Reception

/-! What an owner does to a packet, as data, so that a history is a list of operations.
An operation that fails as a whole leaves the packet as it was.
-/

namespace PacketBus.Packet

/-- One thing that an owner can do to a packet. -/
inductive Operation where
  | withCommand (command : UInt8)
  | withPayload (data : List UInt8)
  | withMessage (command : UInt8) (data : List UInt8)
  | append (data : List UInt8)
  | clear
  | setPayloadByte (index : Nat) (byte : UInt8)
  | receive (byte : UInt8)
  | receiveFrame (bytes : List UInt8)
  | abandonFrame
  | rewind
  | emit
  | writeFrame (buffer : List UInt8)
  deriving Repr

/-- What an operation answers. -/
inductive Reply where
  /-- The operation has no answer of its own. -/
  | completed
  /-- The data was taken or the frame was rewound, or why not. -/
  | built (result : Except Failure Unit)
  /-- Whether the payload has a byte at the position. -/
  | overwritten (inRange : Bool)
  | received (reception : Reception)
  | emitted (result : Except Failure WireByte)
  | filled (filled : Filled)

/-- The packet after an attempt, which is the old one if the attempt failed. -/
def settle (p : Packet) : Except Failure Packet → Reply × Packet
  | .ok q => (.built (.ok ()), q)
  | .error e => (.built (.error e), p)

/-- Carries out one operation. -/
def perform (p : Packet) : Operation → Reply × Packet
  | .withCommand command => p.settle (p.withCommand command)
  | .withPayload data => p.settle (p.withPayload data)
  | .withMessage command data => p.settle (p.withMessage command data)
  | .append data => p.settle (p.append data)
  | .clear => (.completed, p.clear)
  | .setPayloadByte index byte =>
      match p.setPayloadByte? index byte with
      | some q => (.overwritten true, q)
      | none => (.overwritten false, p)
  | .receive byte =>
      let (result, q) := p.receive byte
      (.received ⟨result, 1⟩, q)
  | .receiveFrame bytes =>
      let (reception, q) := p.receiveFrame bytes
      (.received reception, q)
  | .abandonFrame => (.completed, p.abandonFrame)
  | .rewind => p.settle p.rewind
  | .emit =>
      match p.emit with
      | .ok (byte, q) => (.emitted (.ok byte), q)
      | .error e => (.emitted (.error e), p)
  | .writeFrame buffer =>
      let (filled, q) := p.writeFrame buffer
      (.filled filled, q)

/-- Carries out a history, with the answers in order. -/
def performAll (p : Packet) : List Operation → List Reply × Packet
  | [] => ([], p)
  | operation :: rest =>
      let (reply, q) := p.perform operation
      let (replies, r) := q.performAll rest
      (reply :: replies, r)

/-- The packet after a history. -/
def after (p : Packet) (history : List Operation) : Packet := (p.performAll history).2

/-- What an owner can see of a packet without changing it. -/
structure View where
  bytes : List UInt8
  body : List UInt8
  command? : Option UInt8
  payload : List UInt8
  checksum? : Option UInt8
  isEmpty : Bool
  isMidFrame : Bool
  frameSize : Nat
  deriving DecidableEq, Repr

/-- The packet as its owner sees it. -/
def view (p : Packet) : View where
  bytes := p.bytes
  body := p.body
  command? := p.command?
  payload := p.payload
  checksum? := p.checksum?
  isEmpty := p.isEmpty
  isMidFrame := p.isMidFrame
  frameSize := p.frameSize

@[simp] theorem after_nil (p : Packet)
    : p.after [] = p :=
  rfl

@[simp] theorem after_cons (p : Packet) (operation : Operation) (rest : List Operation)
    : p.after (operation :: rest) = (p.perform operation).2.after rest :=
  rfl

/-- The answers of a longer history go on behind those of its first part, by induction on that
part. -/
theorem performAll_append (p : Packet) (front back : List Operation)
    : p.performAll (front ++ back)
      = ((p.performAll front).1 ++ ((p.after front).performAll back).1,
          ((p.after front).performAll back).2) := by
  induction front generalizing p with
  | nil => rfl
  | cons operation rest ih => simp only [List.cons_append, performAll, ih, after_cons]

theorem after_append (p : Packet) (front back : List Operation)
    : p.after (front ++ back) = (p.after front).after back := by
  induction front generalizing p with
  | nil => rfl
  | cons operation rest ih => simp [ih]

end PacketBus.Packet
