/-! A packet: one message in storage of a fixed size, with its place in the frames that are received
into it and sent from it.
The first byte held is the command; a packet that was received whole ends with its checksum.
-/

namespace PacketBus

/-- A place relative to a frame. -/
inductive Phase where
  /-- Between frames. -/
  | between
  /-- Inside a frame. -/
  | inside
  /-- Inside a frame, behind an escape mark. -/
  | escaped
  deriving DecidableEq, Repr

/-- The place in the frame that is being sent. -/
structure Emitter where
  phase : Phase := .between
  /-- Position of the next byte of the body, or the body's size for the checksum. -/
  next : Nat := 0
  /-- Checksum of the body as it was when the frame was opened. -/
  checksum : UInt8 := 0
  deriving DecidableEq, Repr

/-- A message and the storage that holds it. -/
structure Packet where
  /-- All bytes of the storage, also those that hold nothing of this message. -/
  storage : List UInt8
  /-- How many bytes at the front of the storage belong to the message. -/
  size : Nat := 0
  /-- The last byte of the message is a received checksum that was found right. -/
  verified : Bool := false
  receiver : Phase := .between
  emitter : Emitter := {}
  deriving DecidableEq, Repr

namespace Packet

/-- An empty packet over a storage. -/
def ofStorage (storage : List UInt8) : Packet := { storage }

/-- How many bytes the packet can hold, command and received checksum included. -/
def capacity (p : Packet) : Nat := p.storage.length

/-- The bytes held. -/
def bytes (p : Packet) : List UInt8 := p.storage.take p.size

/-- Nothing is held, not even a command. -/
def isEmpty (p : Packet) : Bool := p.size == 0

/-- How many bytes the checksum covers. -/
def bodySize (p : Packet) : Nat := if p.verified then p.size - 1 else p.size

/-- Command and payload, without a received checksum. -/
def body (p : Packet) : List UInt8 := p.storage.take p.bodySize

/-- The command, if one is held. -/
def command? (p : Packet) : Option UInt8 := p.bytes.head?

/-- What lies between the command and the checksum. -/
def payload (p : Packet) : List UInt8 := p.body.drop 1

/-- The checksum received with the packet. -/
def checksum? (p : Packet) : Option UInt8 :=
  if p.verified && 2 ≤ p.size then p.bytes.getLast? else none

/-- Part way through a received frame. -/
def isMidFrame (p : Packet) : Bool := p.receiver != .between

end Packet

end PacketBus
