import PacketBus.Packet.Basic
import PacketBus.Packet.Failure

/-! Building a message in a packet.
What does not fit is refused before anything is changed, and a received checksum takes no room from
what is built.
-/

namespace PacketBus

/-- Puts data over the bytes of a storage from a position on. -/
def overwrite (storage : List UInt8) (start : Nat) (data : List UInt8) : List UInt8 :=
  storage.take start ++ data ++ storage.drop (start + data.length)

theorem length_overwrite {storage data : List UInt8} {start : Nat}
    (h : start + data.length ≤ storage.length)
    : (overwrite storage start data).length = storage.length := by
  simp only [overwrite, List.length_append, List.length_take, List.length_drop]
  omega

/-- The bytes before the place of the data and the data itself are what is read up to its end. -/
theorem take_overwrite {storage data : List UInt8} {start : Nat}
    (h : start + data.length ≤ storage.length)
    : (overwrite storage start data).take (start + data.length)
        = storage.take start ++ data := by
  have front : (storage.take start ++ data).length = start + data.length := by
    simp only [List.length_append, List.length_take]
    omega
  rw [overwrite, List.take_append_of_le_length (Nat.le_of_eq front.symm)]
  exact List.take_of_length_le (Nat.le_of_eq front)

namespace Packet

/-- Forgets a received checksum, after which the message is its body. -/
def dropChecksum (p : Packet) : Packet := { p with size := p.bodySize, verified := false }

/-- Sets the command and keeps the payload. -/
def withCommand (p : Packet) (command : UInt8) : Except Failure Packet :=
  if p.capacity = 0 then .error .noRoom
  else
    .ok
      { p.dropChecksum with
        storage := p.storage.set 0 command
        size := max p.bodySize 1 }

/-- Puts data behind the bytes of the body. -/
def append (p : Packet) (data : List UInt8) : Except Failure Packet :=
  if p.capacity - p.bodySize < data.length then .error .noRoom
  else
    .ok
      { p.dropChecksum with
        storage := overwrite p.storage p.bodySize data
        size := p.bodySize + data.length }

/-- Replaces the payload and keeps the byte in the place of the command. -/
def withPayload (p : Packet) (data : List UInt8) : Except Failure Packet :=
  if p.capacity < 1 + data.length then .error .noRoom
  else { p with size := 1, verified := false }.append data

/-- Sets command and payload. -/
def withMessage (p : Packet) (command : UInt8) (data : List UInt8) : Except Failure Packet :=
  if p.capacity < 1 + data.length then .error .noRoom
  else (p.withCommand command).bind (·.withPayload data)

/-- A packet over a storage that holds a command and its payload. -/
def ofMessage (storage : List UInt8) (command : UInt8) (data : List UInt8)
    : Except Failure Packet :=
  (ofStorage storage).withMessage command data

/-- Overwrites one byte of the payload in place; the packet keeps a received checksum. -/
def setPayloadByte? (p : Packet) (index : Nat) (byte : UInt8) : Option Packet :=
  if index < p.payload.length then
    some { p with storage := p.storage.set (index + 1) byte }
  else none

/-- Forgets all bytes held and gives up any frame in progress. -/
def clear (p : Packet) : Packet :=
  { p with
    size := 0
    verified := false
    receiver := .between
    emitter := { p.emitter with phase := .between, next := 0 } }

end Packet

end PacketBus
