import PacketBus.Proofs.Emission.Outstanding

/-! A message on its way from a sender.
The frame that a sender writes is the wire form of the message, whatever the sender's storage and
buffer held before.
-/

namespace PacketBus

/-- A message, with the storage and the buffer in which its sender makes the frame. -/
structure Shipment where
  command : UInt8
  payload : List UInt8
  storage : List UInt8
  buffer : List UInt8

namespace Shipment

/-- The bytes that the checksum covers. -/
def body (s : Shipment) : List UInt8 := s.command :: s.payload

/-- The frame as its sender writes it, or nothing if storage or buffer are too small. -/
def frame? (s : Shipment) : Option (List UInt8) :=
  match Packet.ofMessage s.storage s.command s.payload with
  | .error _ => none
  | .ok packet =>
      match (packet.writeFrame s.buffer).1 with
      | ⟨.ok size, bytes⟩ => some (bytes.take size)
      | ⟨.error _, _⟩ => none

/-- The storage holds the message and the buffer its frame. -/
structure HasRoom (s : Shipment) : Prop where
  storage : s.payload.length + 1 ≤ s.storage.length
  buffer : Frame.wireSize s.body ≤ s.buffer.length

theorem length_body (s : Shipment)
    : s.body.length = s.payload.length + 1 :=
  rfl

variable {s : Shipment}

/-- A sender with room for a message writes the wire form of it. -/
theorem HasRoom.frame? (room : s.HasRoom)
    : s.frame? = some (Frame.wire s.body) := by
  obtain ⟨packet, built, body, sized⟩ := Packet.ofMessage_of_room s.command room.storage
  have command : packet.body ≠ [] := by simp [body]
  have written := Packet.writeFrame_of_room sized command (by rw [body]; exact room.buffer)
  simp only [Shipment.frame?, built, written, body, List.take_left']
  rfl

/-- A sender without room for a message writes nothing, since both places are checked first. -/
theorem hasRoom_of_frame? {frame : List UInt8} (sent : s.frame? = some frame)
    : s.HasRoom := by
  have storage : s.payload.length + 1 ≤ s.storage.length := by
    apply Nat.le_of_not_lt
    intro small
    have refused : Packet.ofMessage s.storage s.command s.payload = .error .noRoom := by
      exact Packet.withMessage_of_small s.command small
    rw [Shipment.frame?, refused] at sent
    cases sent
  refine ⟨storage, Nat.le_of_not_lt ?_⟩
  intro small
  obtain ⟨packet, built, body, sized⟩ := Packet.ofMessage_of_room s.command storage
  have refused : (packet.writeFrame s.buffer).1 = ⟨.error .overflow, s.buffer⟩ :=
    Packet.writeFrame_of_small sized (by simp [body]) (by rw [body]; exact small)
  simp only [Shipment.frame?, built, refused] at sent
  cases sent

/-- What a sender writes is the wire form of the message. -/
theorem eq_wire_of_frame? {frame : List UInt8} (sent : s.frame? = some frame)
    : frame = Frame.wire s.body := by
  rw [(hasRoom_of_frame? sent).frame?] at sent
  exact (Option.some.inj sent).symm

end Shipment

end PacketBus
