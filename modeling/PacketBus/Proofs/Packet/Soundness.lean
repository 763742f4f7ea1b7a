import PacketBus.Packet.History

/-! Sizes of a packet that no owner can put wrong.
What is held lies within the storage, and behind a verified checksum there is always a command, so
a packet that holds anything at all has a body.
-/

namespace PacketBus.Packet

/-- What is held lies within the storage, and a verified checksum is not all that is held. -/
structure IsSound (p : Packet) : Prop where
  size_le : p.size ≤ p.capacity
  size_of_verified : p.verified = true → 2 ≤ p.size

variable {p q : Packet}

theorem isSound_ofStorage (storage : List UInt8)
    : (ofStorage storage).IsSound :=
  ⟨Nat.zero_le _, nofun⟩

theorem bodySize_le (p : Packet)
    : p.bodySize ≤ p.size := by
  unfold bodySize
  split
  · exact Nat.sub_le _ _
  · exact Nat.le_refl _

/-- A packet that is not empty has a body, since a checksum never stands alone. -/
theorem IsSound.bodySize_eq_zero_iff (h : p.IsSound)
    : p.bodySize = 0 ↔ p.size = 0 := by
  cases verified : p.verified with
  | false => simp [bodySize, verified]
  | true =>
      have long := h.size_of_verified verified
      simp only [bodySize, verified, if_true]
      omega

theorem IsSound.body_eq_nil_iff (h : p.IsSound)
    : p.body = [] ↔ p.size = 0 := by
  have within := Nat.le_trans p.bodySize_le h.size_le
  rw [← h.bodySize_eq_zero_iff, body, List.take_eq_nil_iff, ← List.length_eq_zero_iff]
  simp only [capacity] at within
  omega

/-- A packet with a body is not empty. -/
theorem isEmpty_of_body (p : Packet) (command : p.body ≠ [])
    : p.isEmpty = false := by
  cases empty : p.isEmpty with
  | false => rfl
  | true =>
      have nothing : p.size = 0 := by simpa [isEmpty] using empty
      exact absurd (by simp [body, bodySize, nothing]) command

/-- A packet with a command has a body. -/
theorem IsSound.body_ne_nil (h : p.IsSound) {command : UInt8} (held : p.command? = some command)
    : p.body ≠ [] := by
  rw [ne_eq, h.body_eq_nil_iff]
  intro empty
  simp [command?, bytes, empty] at held

/-- A packet without a command has no body. -/
theorem IsSound.bodySize_of_no_command (h : p.IsSound) (nothing : p.command? = none)
    : p.bodySize = 0 := by
  rw [h.bodySize_eq_zero_iff]
  have room := h.size_le
  have none : p.bytes = [] := List.head?_eq_none_iff.mp nothing
  rw [bytes, List.take_eq_nil_iff, ← List.length_eq_zero_iff] at none
  simp only [capacity] at room
  omega

/-- A verified packet holds its body and the checksum behind it. -/
theorem IsSound.bytes_of_verified (h : p.IsSound) (verified : p.verified = true)
    : p.size - 1 < p.storage.length
      ∧ p.bytes = p.body ++ [p.storage.getD (p.size - 1) 0]
      ∧ p.checksum? = some (p.storage.getD (p.size - 1) 0) := by
  have long := h.size_of_verified verified
  have within : p.size - 1 < p.storage.length := by
    have := h.size_le
    simp only [capacity] at this
    omega
  have bytes : p.bytes = p.body ++ [p.storage.getD (p.size - 1) 0] := by
    rw [Packet.bytes, body, bodySize, if_pos verified, List.getD_eq_getElem?_getD,
      List.getElem?_eq_getElem within, Option.getD_some, ← List.take_succ_eq_append_getElem within]
    congr 1
    omega
  refine ⟨within, bytes, ?_⟩
  rw [checksum?, bytes, List.getLast?_concat, verified]
  simp [long]

-----------------------------------------------------------------------------------------
-- Receiving
-----------------------------------------------------------------------------------------

theorem IsSound.store (h : p.IsSound) (byte : UInt8)
    : (p.store byte).2.IsSound := by
  unfold Packet.store
  split
  · next room =>
      refine ⟨?_, fun verified => ?_⟩
      · simp only [capacity, List.length_set]
        exact room
      · exact Nat.le_succ_of_le (h.size_of_verified verified)
  · exact ⟨h.size_le, h.size_of_verified⟩

theorem IsSound.close (h : p.IsSound)
    : p.close.2.IsSound := by
  unfold Packet.close
  split
  · exact h
  · next some =>
      split
      · exact ⟨h.size_le, h.size_of_verified⟩
      · next several =>
          simp only [verify]
          split
          · exact ⟨h.size_le, fun _ => show 2 ≤ p.size by omega⟩
          · exact ⟨h.size_le, h.size_of_verified⟩

theorem IsSound.receive (h : p.IsSound) (byte : UInt8)
    : (p.receive byte).2.IsSound := by
  unfold Packet.receive
  split
  · exact ⟨Nat.zero_le _, nofun⟩
  · split
    · exact h.close
    · split
      · exact ⟨h.size_le, h.size_of_verified⟩
      · exact h.store byte
  · have inside : ({ p with receiver := .inside } : Packet).IsSound :=
      ⟨h.size_le, h.size_of_verified⟩
    exact inside.store _

theorem IsSound.receiveFrame (h : p.IsSound) (bytes : List UInt8)
    : (p.receiveFrame bytes).2.IsSound := by
  induction bytes generalizing p with
  | nil => exact h
  | cons byte rest ih =>
      have next := h.receive byte
      simp only [Packet.receiveFrame]
      split
      · next received =>
          rw [received] at next
          exact ih next
      · next received =>
          rw [received] at next
          exact next

-----------------------------------------------------------------------------------------
-- Building
-----------------------------------------------------------------------------------------

theorem IsSound.withCommand (h : p.IsSound) {command : UInt8}
    (built : p.withCommand command = .ok q)
    : q.IsSound := by
  unfold Packet.withCommand at built
  split at built
  · cases built
  · next room =>
      cases built
      have within := Nat.le_trans p.bodySize_le h.size_le
      refine ⟨?_, nofun⟩
      simp only [capacity, List.length_set] at room within ⊢
      omega

theorem IsSound.append (h : p.IsSound) {data : List UInt8} (built : p.append data = .ok q)
    : q.IsSound := by
  unfold Packet.append at built
  split at built
  · cases built
  · next room =>
      cases built
      have within := Nat.le_trans p.bodySize_le h.size_le
      have fits : p.bodySize + data.length ≤ p.storage.length := by
        simp only [capacity] at room within
        omega
      refine ⟨?_, nofun⟩
      simp only [capacity, length_overwrite fits]
      exact fits

/-- A command alone is held soundly by every packet with room for it. -/
theorem isSound_of_command (room : 1 ≤ p.capacity)
    : ({ p with size := 1, verified := false } : Packet).IsSound :=
  ⟨room, nofun⟩

theorem IsSound.withPayload {data : List UInt8} (built : p.withPayload data = .ok q)
    : q.IsSound := by
  unfold Packet.withPayload at built
  split at built
  · cases built
  · next room =>
      have command := isSound_of_command (p := p) (by omega)
      exact command.append built

theorem IsSound.withMessage {command : UInt8} {data : List UInt8}
    (built : p.withMessage command data = .ok q)
    : q.IsSound := by
  unfold Packet.withMessage at built
  split at built
  · cases built
  · cases first : p.withCommand command with
    | error e =>
        rw [first] at built
        cases built
    | ok commanded =>
        rw [first] at built
        exact IsSound.withPayload built

theorem IsSound.setPayloadByte? (h : p.IsSound) {index : Nat} {byte : UInt8}
    (built : p.setPayloadByte? index byte = some q)
    : q.IsSound := by
  unfold Packet.setPayloadByte? at built
  split at built
  · cases built
    exact ⟨by simpa only [capacity, List.length_set] using h.size_le, h.size_of_verified⟩
  · cases built

-----------------------------------------------------------------------------------------
-- Sending
-----------------------------------------------------------------------------------------

theorem rewind_eq_ok (rewound : p.rewind = .ok q)
    : ∃ emitter : Emitter, q = { p with emitter } := by
  unfold rewind at rewound
  split at rewound
  · cases rewound
  · cases rewound
    exact ⟨_, rfl⟩

theorem emit_eq_ok {byte : WireByte} (emitted : p.emit = .ok (byte, q))
    : ∃ emitter : Emitter, q = { p with emitter } := by
  unfold emit at emitted
  split at emitted
  · split at emitted
    · cases emitted
    · cases emitted
      exact ⟨_, rfl⟩
  · split at emitted
    · cases emitted
      exact ⟨_, rfl⟩
    · split at emitted
      · cases emitted
        exact ⟨_, rfl⟩
      · cases emitted
        exact ⟨_, rfl⟩
  · cases emitted
    exact ⟨_, rfl⟩

/-- Sending a frame to its end changes the place in the frame alone, by the cases of `emitAll`. -/
theorem emitAll_snd (p : Packet)
    : ∃ emitter : Emitter, p.emitAll.2 = { p with emitter } := by
  fun_induction emitAll p with
  | case1 p failure failed => exact ⟨p.emitter, rfl⟩
  | case2 p byte q emitted last =>
      exact emit_eq_ok emitted
  | case3 p byte q emitted more rest r all ih =>
      obtain ⟨first, rfl⟩ := emit_eq_ok emitted
      obtain ⟨final, same⟩ := ih
      rw [all] at same
      exact ⟨final, same⟩

theorem writeFrame_snd (p : Packet) (buffer : List UInt8)
    : ∃ emitter : Emitter, (p.writeFrame buffer).2 = { p with emitter } := by
  unfold writeFrame
  split
  · exact ⟨p.emitter, rfl⟩
  · next rewound =>
      obtain ⟨first, rfl⟩ := rewind_eq_ok rewound
      split
      · exact ⟨first, rfl⟩
      · exact emitAll_snd _

-----------------------------------------------------------------------------------------
-- Any history
-----------------------------------------------------------------------------------------

theorem IsSound.settle (h : p.IsSound) {result : Except Failure Packet}
    (built : ∀ q, result = .ok q → q.IsSound)
    : (p.settle result).2.IsSound := by
  cases result with
  | ok q => exact built q rfl
  | error e => exact h

theorem IsSound.withEmitter (h : p.IsSound) (emitter : Emitter)
    : ({ p with emitter } : Packet).IsSound :=
  ⟨h.size_le, h.size_of_verified⟩

/-- No operation of an owner makes a packet unsound. -/
theorem IsSound.perform (h : p.IsSound) (operation : Operation)
    : (p.perform operation).2.IsSound := by
  cases operation with
  | withCommand command => exact h.settle fun _ built => h.withCommand built
  | withPayload data => exact h.settle fun _ built => IsSound.withPayload built
  | withMessage command data => exact h.settle fun _ built => IsSound.withMessage built
  | append data => exact h.settle fun _ built => h.append built
  | clear => exact ⟨Nat.zero_le _, nofun⟩
  | setPayloadByte index byte =>
      simp only [Packet.perform]
      split
      · next built => exact h.setPayloadByte? built
      · exact h
  | receive byte => exact h.receive byte
  | receiveFrame bytes => exact h.receiveFrame bytes
  | abandonFrame => exact ⟨h.size_le, h.size_of_verified⟩
  | rewind =>
      refine h.settle fun _ rewound => ?_
      obtain ⟨emitter, rfl⟩ := rewind_eq_ok rewound
      exact h.withEmitter emitter
  | emit =>
      simp only [Packet.perform]
      split
      · next emitted =>
          obtain ⟨emitter, rfl⟩ := emit_eq_ok emitted
          exact h.withEmitter emitter
      · exact h
  | writeFrame buffer =>
      obtain ⟨emitter, same⟩ := p.writeFrame_snd buffer
      simp only [Packet.perform, same]
      exact h.withEmitter emitter

/-- Whatever an owner does to a packet leaves it sound, by induction on the history. -/
theorem IsSound.after (h : p.IsSound) (history : List Operation)
    : (p.after history).IsSound := by
  induction history generalizing p with
  | nil => exact h
  | cons operation rest ih => exact ih (h.perform operation)

/-- Every packet is sound, since each begins with storage that holds nothing. -/
theorem isSound_of_history (storage : List UInt8) (history : List Operation)
    : ((ofStorage storage).after history).IsSound :=
  (isSound_ofStorage storage).after history

end PacketBus.Packet
