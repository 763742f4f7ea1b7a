import PacketBus.Proofs.Packet.Soundness
import PacketBus.Proofs.Reception.Content

/-! The fields of a packet, and what no owner can make of them.
Receiving and sending keep a place each, and the two places stay within the bounds that the other
operations rely on, in whatever order these come.
-/

namespace PacketBus.Packet

open PacketBus.Frame (delimiter escapeMark)

/-- A sound packet that receives nothing as long as it holds a verified checksum, and whose emitter
stands within the body, at the checksum or right behind it. -/
structure IsConsistent (p : Packet) : Prop extends p.IsSound where
  between_of_verified : p.verified = true → p.receiver = .between
  next_le : p.emitter.next ≤ p.capacity + 1
  next_le_of_escaped : p.emitter.phase = .escaped → p.emitter.next ≤ p.capacity

variable {p q : Packet}

theorem isConsistent_ofStorage (storage : List UInt8)
    : (ofStorage storage).IsConsistent :=
  { isSound_ofStorage storage with
    between_of_verified := nofun
    next_le := Nat.zero_le _
    next_le_of_escaped := nofun }

/-- Nothing of what a packet was is left to be wrong after it is cleared. -/
theorem isConsistent_clear (p : Packet)
    : p.clear.IsConsistent where
  size_le := Nat.zero_le _
  size_of_verified := nofun
  between_of_verified := nofun
  next_le := Nat.zero_le _
  next_le_of_escaped := nofun

theorem IsSound.bodySize_le_capacity (h : p.IsSound)
    : p.bodySize ≤ p.capacity :=
  Nat.le_trans p.bodySize_le h.size_le

/-- The place of the emitter is bounded by the room of the packet, and by nothing that it holds. -/
theorem IsConsistent.of_sound (h : p.IsConsistent) (sound : q.IsSound)
    (room : q.capacity = p.capacity) (place : q.emitter = p.emitter)
    (between : q.verified = true → q.receiver = .between)
    : q.IsConsistent where
  toIsSound := sound
  between_of_verified := between
  next_le := by
    rw [room, place]
    exact h.next_le
  next_le_of_escaped := by
    rw [room, place]
    exact h.next_le_of_escaped

-----------------------------------------------------------------------------------------
-- Receiving
-----------------------------------------------------------------------------------------

theorem emitter_store (p : Packet) (byte : UInt8)
    : (p.store byte).2.emitter = p.emitter := by
  unfold store
  split
  · rfl
  · rfl

theorem verified_store (p : Packet) (byte : UInt8)
    : (p.store byte).2.verified = p.verified := by
  unfold store
  split
  · rfl
  · rfl

/-- A frame is closed without a look at what is being sent. -/
theorem emitter_close (p : Packet)
    : p.close.2.emitter = p.emitter := by
  unfold close
  split
  · rfl
  · split
    · rfl
    · simp only [verify]
      split
      · rfl
      · rfl

theorem emitter_receive (p : Packet) (byte : UInt8)
    : (p.receive byte).2.emitter = p.emitter := by
  unfold receive
  split
  · rfl
  · split
    · exact emitter_close p
    · split
      · rfl
      · exact emitter_store p byte
  · exact emitter_store _ _

/-- No checksum is verified inside a frame, and only a frame that is closed gets one. -/
theorem IsConsistent.between_of_receive (h : p.IsConsistent) (byte : UInt8)
    (verified : (p.receive byte).2.verified = true)
    : (p.receive byte).2.receiver = .between := by
  have unverified : p.receiver ≠ .between → p.verified = false := fun inside =>
    Bool.eq_false_iff.2 fun verified => inside (h.between_of_verified verified)
  cases place : p.receiver with
  | between => simp [receive, place] at verified
  | inside =>
      have none := unverified (by simp [place])
      by_cases isDelimiter : byte = delimiter
      · rw [isDelimiter, receive_delimiter_of_inside place] at verified ⊢
        rcases p.close_eq_or with ⟨_, same⟩ | between
        · rw [same] at verified
          cases none.symm.trans verified
        · exact between
      · by_cases isMark : byte = escapeMark
        · rw [isMark, receive_escapeMark_of_inside place] at verified
          cases none.symm.trans verified
        · rw [receive_ordinary_of_inside place ⟨isDelimiter, isMark⟩, verified_store] at verified
          cases none.symm.trans verified
  | escaped =>
      have none := unverified (by simp [place])
      rw [receive_of_escaped place, verified_store] at verified
      cases none.symm.trans verified

theorem IsConsistent.receive (h : p.IsConsistent) (byte : UInt8)
    : (p.receive byte).2.IsConsistent :=
  h.of_sound (h.toIsSound.receive byte) (capacity_receive p byte) (emitter_receive p byte)
    (h.between_of_receive byte)

/-- A run of bytes keeps what each of its bytes keeps, by induction on the run. -/
theorem IsConsistent.receiveFrame (h : p.IsConsistent) (bytes : List UInt8)
    : (p.receiveFrame bytes).2.IsConsistent
      ∧ (p.receiveFrame bytes).2.capacity = p.capacity := by
  induction bytes generalizing p with
  | nil => exact ⟨h, rfl⟩
  | cons byte rest ih =>
      have next := h.receive byte
      have room := capacity_receive p byte
      simp only [Packet.receiveFrame]
      split
      · next received =>
          rw [received] at next room
          exact ⟨(ih next).1, (ih next).2.trans room⟩
      · next received =>
          rw [received] at next room
          exact ⟨next, room⟩

-----------------------------------------------------------------------------------------
-- Building
-----------------------------------------------------------------------------------------

/-- What an attempt to build leaves alone: the room and both places in a frame. Nothing that was
built is verified. -/
structure Rebuilds (p q : Packet) : Prop where
  room : q.capacity = p.capacity
  receiver : q.receiver = p.receiver
  emitter : q.emitter = p.emitter
  unverified : q.verified = false

theorem Rebuilds.trans {r : Packet} (first : p.Rebuilds q) (second : q.Rebuilds r)
    : p.Rebuilds r where
  room := second.room.trans first.room
  receiver := second.receiver.trans first.receiver
  emitter := second.emitter.trans first.emitter
  unverified := second.unverified

theorem Rebuilds.isConsistent (rebuilt : p.Rebuilds q) (h : p.IsConsistent) (sound : q.IsSound)
    : q.IsConsistent :=
  h.of_sound sound rebuilt.room rebuilt.emitter
    fun verified => nomatch rebuilt.unverified.symm.trans verified

theorem rebuilds_withCommand {command : UInt8} (built : p.withCommand command = .ok q)
    : p.Rebuilds q := by
  unfold withCommand at built
  split at built
  · cases built
  · cases built
    exact ⟨List.length_set, rfl, rfl, rfl⟩

theorem IsSound.rebuilds_append (h : p.IsSound) {data : List UInt8} (built : p.append data = .ok q)
    : p.Rebuilds q := by
  have within := h.bodySize_le_capacity
  unfold Packet.append at built
  split at built
  · cases built
  · next room =>
      cases built
      have fits : p.bodySize + data.length ≤ p.storage.length := by
        simp only [capacity] at room within
        omega
      exact ⟨length_overwrite fits, rfl, rfl, rfl⟩

/-- A payload is put behind a command alone, for which the room was compared beforehand. -/
theorem rebuilds_withPayload {data : List UInt8} (built : p.withPayload data = .ok q)
    : p.Rebuilds q := by
  unfold withPayload at built
  split at built
  · cases built
  · next room =>
      have command := isSound_of_command (p := p) (by omega)
      obtain ⟨room', receiver, emitter, unverified⟩ := command.rebuilds_append built
      exact ⟨room', receiver, emitter, unverified⟩

theorem rebuilds_withMessage {command : UInt8} {data : List UInt8}
    (built : p.withMessage command data = .ok q)
    : p.Rebuilds q := by
  unfold withMessage at built
  split at built
  · cases built
  · cases first : p.withCommand command with
    | error e =>
        rw [first] at built
        cases built
    | ok commanded =>
        rw [first] at built
        exact (rebuilds_withCommand first).trans (rebuilds_withPayload built)

theorem IsConsistent.setPayloadByte? (h : p.IsConsistent) {index : Nat} {byte : UInt8}
    (built : p.setPayloadByte? index byte = some q)
    : q.IsConsistent ∧ q.capacity = p.capacity := by
  have sound := h.toIsSound.setPayloadByte? built
  unfold Packet.setPayloadByte? at built
  split at built
  · cases built
    have room : (p.storage.set (index + 1) byte).length = p.capacity := List.length_set
    exact ⟨h.of_sound sound room rfl h.between_of_verified, room⟩
  · cases built

-----------------------------------------------------------------------------------------
-- Sending
-----------------------------------------------------------------------------------------

theorem IsConsistent.rewind (h : p.IsConsistent) (rewound : p.rewind = .ok q)
    : q.IsConsistent := by
  unfold Packet.rewind at rewound
  split at rewound
  · cases rewound
  · cases rewound
    exact
      { h.toIsSound.withEmitter _ with
        between_of_verified := h.between_of_verified
        next_le := Nat.zero_le _
        next_le_of_escaped := nofun }

/-- A byte moves the emitter on by one place, and only from within the body or the checksum; by the
places in a frame. -/
theorem IsConsistent.emit (h : p.IsConsistent) {byte : WireByte} (sent : p.emit = .ok (byte, q))
    : q.IsConsistent := by
  have within := h.bodySize_le_capacity
  -- Sending leaves all but the emitter alone, so that two bounds are left to show.
  have moved : ∀ emitter : Emitter, emitter.next ≤ p.capacity + 1
      → (emitter.phase = .escaped → emitter.next ≤ p.capacity)
      → ({ p with emitter } : Packet).IsConsistent := fun emitter bound escaped =>
    { h.toIsSound.withEmitter emitter with
      between_of_verified := h.between_of_verified
      next_le := bound
      next_le_of_escaped := escaped }
  cases place : p.emitter.phase with
  | between =>
      simp only [Packet.emit, place] at sent
      split at sent
      · cases sent
      · cases sent
        exact moved _ (Nat.zero_le _) nofun
  | inside =>
      simp only [Packet.emit, place] at sent
      split at sent
      · cases sent
        exact moved _ h.next_le nofun
      · next inside =>
          have bound : p.emitter.next ≤ p.capacity := by omega
          split at sent
          · cases sent
            exact moved _ h.next_le fun _ => bound
          · cases sent
            exact moved _ (Nat.succ_le_succ bound) nofun
  | escaped =>
      simp only [Packet.emit, place] at sent
      cases sent
      exact moved _ (Nat.succ_le_succ (h.next_le_of_escaped place)) nofun

/-- A whole frame keeps what each of its bytes keeps, by the cases of `emitAll`. -/
theorem IsConsistent.emitAll (h : p.IsConsistent)
    : p.emitAll.2.IsConsistent := by
  fun_induction Packet.emitAll p with
  | case1 p failure failed => exact h
  | case2 p byte q sent last => exact h.emit sent
  | case3 p byte q sent more rest r all ih =>
      have next := ih (h.emit sent)
      rwa [all] at next

theorem IsConsistent.writeFrame (h : p.IsConsistent) (buffer : List UInt8)
    : (p.writeFrame buffer).2.IsConsistent := by
  unfold Packet.writeFrame
  split
  · exact h
  · next rewound =>
      have fresh := h.rewind rewound
      split
      · exact fresh
      · exact fresh.emitAll

-----------------------------------------------------------------------------------------
-- Any history
-----------------------------------------------------------------------------------------

theorem IsConsistent.settle (h : p.IsConsistent) {result : Except Failure Packet}
    (built : ∀ q, result = .ok q → q.IsConsistent ∧ q.capacity = p.capacity)
    : (p.settle result).2.IsConsistent ∧ (p.settle result).2.capacity = p.capacity := by
  cases result with
  | ok q => exact built q rfl
  | error e => exact ⟨h, rfl⟩

/-- No operation of an owner makes a packet inconsistent, or moves its storage. -/
theorem IsConsistent.perform (h : p.IsConsistent) (operation : Operation)
    : (p.perform operation).2.IsConsistent ∧ (p.perform operation).2.capacity = p.capacity := by
  have sound := h.toIsSound
  cases operation with
  | withCommand command =>
      refine h.settle fun q built => ?_
      have rebuilt := rebuilds_withCommand built
      exact ⟨rebuilt.isConsistent h (sound.withCommand built), rebuilt.room⟩
  | withPayload data =>
      refine h.settle fun q built => ?_
      have rebuilt := rebuilds_withPayload built
      exact ⟨rebuilt.isConsistent h (IsSound.withPayload built), rebuilt.room⟩
  | withMessage command data =>
      refine h.settle fun q built => ?_
      have rebuilt := rebuilds_withMessage built
      exact ⟨rebuilt.isConsistent h (IsSound.withMessage built), rebuilt.room⟩
  | append data =>
      refine h.settle fun q built => ?_
      have rebuilt := sound.rebuilds_append built
      exact ⟨rebuilt.isConsistent h (sound.append built), rebuilt.room⟩
  | clear => exact ⟨p.isConsistent_clear, rfl⟩
  | setPayloadByte index byte =>
      simp only [Packet.perform]
      split
      · next built => exact h.setPayloadByte? built
      · exact ⟨h, rfl⟩
  | receive byte => exact ⟨h.receive byte, capacity_receive p byte⟩
  | receiveFrame bytes => exact h.receiveFrame bytes
  | abandonFrame =>
      have abandoned : p.abandonFrame.IsSound := ⟨h.size_le, h.size_of_verified⟩
      exact ⟨h.of_sound abandoned rfl rfl fun _ => rfl, rfl⟩
  | rewind =>
      refine h.settle fun q rewound => ⟨h.rewind rewound, ?_⟩
      obtain ⟨emitter, rfl⟩ := rewind_eq_ok rewound
      rfl
  | emit =>
      simp only [Packet.perform]
      split
      · next sent =>
          refine ⟨h.emit sent, ?_⟩
          obtain ⟨emitter, rfl⟩ := emit_eq_ok sent
          rfl
      · exact ⟨h, rfl⟩
  | writeFrame buffer =>
      refine ⟨h.writeFrame buffer, ?_⟩
      obtain ⟨emitter, same⟩ := p.writeFrame_snd buffer
      simp only [Packet.perform, same]
      rfl

/-- Whatever an owner does to a packet leaves it consistent, by induction on the history. -/
theorem IsConsistent.after (h : p.IsConsistent) (history : List Operation)
    : (p.after history).IsConsistent ∧ (p.after history).capacity = p.capacity := by
  induction history generalizing p with
  | nil => exact ⟨h, rfl⟩
  | cons operation rest ih =>
      obtain ⟨next, room⟩ := h.perform operation
      exact ⟨(ih next).1, (ih next).2.trans room⟩

-----------------------------------------------------------------------------------------
-- Failures
-----------------------------------------------------------------------------------------

variable {α : Type}

/-- Why an attempt failed, if it did. -/
def Failure.of? : Except Failure α → Option Failure
  | .ok _ => none
  | .error e => some e

def Reply.failure? : Reply → Option Failure
  | .completed | .overwritten _ => none
  | .built result => Failure.of? result
  | .received reception => Failure.of? reception.result
  | .emitted result => Failure.of? result
  | .filled outcome => Failure.of? outcome.result

/-- An attempt that did not meet a place in a frame that is none. -/
def IsPlaced (result : Except Failure α) : Prop :=
  Failure.of? result ≠ some .brokenState

theorem isPlaced_append (p : Packet) (data : List UInt8)
    : IsPlaced (p.append data) := by
  unfold append
  split
  · nofun
  · nofun

theorem isPlaced_withPayload (p : Packet) (data : List UInt8)
    : IsPlaced (p.withPayload data) := by
  unfold withPayload
  split
  · nofun
  · exact isPlaced_append _ _

theorem isPlaced_withCommand (p : Packet) (command : UInt8)
    : IsPlaced (p.withCommand command) := by
  unfold withCommand
  split
  · nofun
  · nofun

theorem isPlaced_withMessage (p : Packet) (command : UInt8) (data : List UInt8)
    : IsPlaced (p.withMessage command data) := by
  unfold withMessage
  split
  · nofun
  · have first := isPlaced_withCommand p command
    cases built : p.withCommand command with
    | error e => rwa [built] at first
    | ok q => exact isPlaced_withPayload q data

theorem isPlaced_store (p : Packet) (byte : UInt8)
    : IsPlaced (p.store byte).1 := by
  unfold store
  split
  · nofun
  · nofun

theorem isPlaced_close (p : Packet)
    : IsPlaced p.close.1 := by
  unfold close
  split
  · simp [IsPlaced, Failure.of?]
  · split
    · simp [IsPlaced, Failure.of?]
    · simp only [verify]
      split
      · simp [IsPlaced, Failure.of?]
      · simp [IsPlaced, Failure.of?]

theorem isPlaced_receive (p : Packet) (byte : UInt8)
    : IsPlaced (p.receive byte).1 := by
  unfold receive
  split
  · nofun
  · split
    · exact isPlaced_close p
    · split
      · nofun
      · exact isPlaced_store p byte
  · exact isPlaced_store _ _

theorem isPlaced_receiveFrame (p : Packet) (bytes : List UInt8)
    : IsPlaced (p.receiveFrame bytes).1.result := by
  induction bytes generalizing p with
  | nil => nofun
  | cons byte rest ih =>
      have first := isPlaced_receive p byte
      simp only [Packet.receiveFrame]
      split
      · exact ih _
      · next received =>
          rwa [received] at first

theorem isPlaced_rewind (p : Packet)
    : IsPlaced p.rewind := by
  unfold rewind
  split
  · nofun
  · nofun

theorem isPlaced_emit (p : Packet)
    : IsPlaced p.emit := by
  unfold emit
  split
  · split
    · nofun
    · nofun
  · split
    · nofun
    · split
      · nofun
      · nofun
  · nofun

theorem isPlaced_writeFrame (p : Packet) (buffer : List UInt8)
    : IsPlaced (p.writeFrame buffer).1.result := by
  have first := isPlaced_rewind p
  unfold writeFrame
  split
  · next failed => rwa [failed] at first
  · split
    · nofun
    · nofun

/-- No operation meets a place in a frame that is none. -/
theorem failure?_perform (p : Packet) (operation : Operation)
    : (p.perform operation).1.failure? ≠ some .brokenState := by
  have settled : ∀ {result : Except Failure Packet}, IsPlaced result
      → (p.settle result).1.failure? ≠ some .brokenState := by
    intro result placed
    cases result with
    | ok q => exact placed
    | error e => exact placed
  cases operation with
  | withCommand command => exact settled (isPlaced_withCommand p command)
  | withPayload data => exact settled (isPlaced_withPayload p data)
  | withMessage command data => exact settled (isPlaced_withMessage p command data)
  | append data => exact settled (isPlaced_append p data)
  | clear => simp [perform, Reply.failure?]
  | setPayloadByte index byte =>
      simp only [perform]
      split
      · simp [Reply.failure?]
      · simp [Reply.failure?]
  | receive byte => exact isPlaced_receive p byte
  | receiveFrame bytes => exact isPlaced_receiveFrame p bytes
  | abandonFrame => simp [perform, Reply.failure?]
  | rewind => exact settled (isPlaced_rewind p)
  | emit =>
      have placed := isPlaced_emit p
      simp only [perform]
      split
      · simp [Reply.failure?, Failure.of?]
      · next failed => rwa [failed] at placed
  | writeFrame buffer => exact isPlaced_writeFrame p buffer

/-- No operation of a history does either, by induction on the history. -/
theorem failure?_performAll (p : Packet) (history : List Operation)
    : ∀ reply ∈ (p.performAll history).1, reply.failure? ≠ some .brokenState := by
  induction history generalizing p with
  | nil => nofun
  | cons operation rest ih =>
      intro reply mem
      rcases List.mem_cons.mp mem with rfl | later
      · exact failure?_perform p operation
      · exact ih _ reply later

end PacketBus.Packet
