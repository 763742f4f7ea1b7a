import PacketBus.Proofs.Emission.Outstanding
import PacketBus.Proofs.Packet.Representation

/-! What each builder makes of a packet.
A builder looks at the room alone to decide whether it goes ahead, and then the body is what it
should be, whatever was received or sent before.
-/

namespace PacketBus.Packet

variable {p q : Packet}

/-- An attempt to build comes to a packet with the body if what is built fits, and is refused
otherwise. -/
structure Builds (p : Packet) (attempt : Except Failure Packet) (fits : Prop) (body : List UInt8)
    : Prop where
  built : fits → ∃ q, attempt = .ok q ∧ p.Rebuilds q ∧ q.IsSound ∧ q.body = body
  refused : ¬fits → attempt = .error .noRoom

/-- A storage with a command in its first place holds that command and what is behind it. -/
theorem take_set_command {storage : List UInt8} (room : storage.length ≠ 0) (command : UInt8)
    (size : Nat)
    : (storage.set 0 command).take (max size 1) = command :: (storage.take size).drop 1 := by
  cases storage with
  | nil => exact absurd rfl room
  | cons first rest =>
      cases size with
      | zero => simp
      | succ size => simp

/-- The command is put in front of the payload held, which a checksum is no part of. -/
theorem IsSound.builds_withCommand (h : p.IsSound) (command : UInt8)
    : p.Builds (p.withCommand command) (1 ≤ p.capacity) (command :: p.payload) where
  built room := by
    have some : ¬p.capacity = 0 := by omega
    have taken := (if_neg some : p.withCommand command = .ok _)
    exact ⟨_, taken, rebuilds_withCommand taken, h.withCommand taken, take_set_command some _ _⟩
  refused small := by
    have none : p.capacity = 0 := by omega
    exact if_pos none

/-- Data is put behind the body, in the room that is left by the body alone. -/
theorem IsSound.builds_append (h : p.IsSound) (data : List UInt8)
    : p.Builds (p.append data) (p.bodySize + data.length ≤ p.capacity) (p.body ++ data) where
  built room := by
    have enough : ¬p.capacity - p.bodySize < data.length := by omega
    have taken := (if_neg enough : p.append data = .ok _)
    exact ⟨_, taken, h.rebuilds_append taken, h.append taken, take_overwrite room⟩
  refused small := by
    have within := h.bodySize_le_capacity
    have large : p.capacity - p.bodySize < data.length := by omega
    exact if_pos large

/-- Data is put behind the byte in the place of the command, whatever that byte is. -/
theorem builds_withPayload (p : Packet) (data : List UInt8)
    : p.Builds (p.withPayload data) (1 + data.length ≤ p.capacity)
        (p.storage.take 1 ++ data) where
  built room := by
    have command := isSound_of_command (p := p) (by omega)
    obtain ⟨q, taken, _, _, body⟩ := (command.builds_append data).built room
    have taken' : p.withPayload data = .ok q := (if_neg (Nat.not_lt.mpr room)).trans taken
    exact ⟨q, taken', rebuilds_withPayload taken', IsSound.withPayload taken', body⟩
  refused small := if_pos (Nat.not_le.mp small)

theorem builds_withMessage (p : Packet) (command : UInt8) (data : List UInt8)
    : p.Builds (p.withMessage command data) (1 + data.length ≤ p.capacity) (command :: data) where
  built room := by
    have enough : data.length + 1 ≤ p.capacity := by omega
    obtain ⟨q, taken, body, _⟩ := p.withMessage_of_room command enough
    exact ⟨q, taken, rebuilds_withMessage taken, IsSound.withMessage taken, body⟩
  refused small := withMessage_of_small command (by omega)

/-- What was built is all body. -/
theorem Rebuilds.bytes_eq_body (rebuilt : p.Rebuilds q)
    : q.bytes = q.body := by
  rw [bytes, body, bodySize, rebuilt.unverified, if_neg Bool.false_ne_true]

theorem Rebuilds.size_eq (rebuilt : p.Rebuilds q) (sound : q.IsSound)
    : q.size = q.body.length := by
  rw [length_body sound.size_le, bodySize, rebuilt.unverified, if_neg Bool.false_ne_true]

end PacketBus.Packet
