import PacketBus.Proofs.Packet.Building
import PacketBus.Proofs.Reception.Likeness

/-! Packets that no owner can tell apart, whatever lies in their storage behind the bytes held.
Every operation answers the same for both and leaves them so, but for one: a payload that is put
behind a command where none is held takes up the byte that the storage has in its place.
-/

namespace PacketBus.Packet

/-- Two packets are alike and at the same place of a frame that is sent. The checksum of a frame
that was closed does not count. -/
structure Resembles (p q : Packet) : Prop extends p.Alike q where
  phase : p.emitter.phase = q.emitter.phase
  next : p.emitter.next = q.emitter.next
  checksum : p.emitter.phase ≠ .between → p.emitter.checksum = q.emitter.checksum

/-- Two attempts fail in the same way, or come to results that stand in the relation. -/
inductive Meets {α : Type} (Rel : α → α → Prop) : Except Failure α → Except Failure α → Prop
  | failed {e} : Meets Rel (.error e) (.error e)
  | done {a b} (related : Rel a b) : Meets Rel (.ok a) (.ok b)

variable {p q : Packet}

theorem Meets.of_ok {α : Type} {Rel : α → α → Prop} {attempt attempt' : Except Failure α} {a : α}
    (meets : Meets Rel attempt attempt') (done : attempt = .ok a)
    : ∃ b, attempt' = .ok b ∧ Rel a b := by
  subst done
  cases meets with
  | done related => exact ⟨_, rfl, related⟩

theorem Meets.of_error {α : Type} {Rel : α → α → Prop} {attempt attempt' : Except Failure α}
    {failure : Failure} (meets : Meets Rel attempt attempt') (failed : attempt = .error failure)
    : attempt' = .error failure := by
  subst failed
  cases meets with
  | failed => rfl

theorem Alike.isSound (h : p.Alike q) (sound : p.IsSound)
    : q.IsSound where
  size_le := by
    rw [← h.size, ← h.room]
    exact sound.size_le
  size_of_verified := by
    rw [← h.size, ← h.verified]
    exact sound.size_of_verified

/-- Packets that hold anything share the byte in the place of the command. -/
theorem Alike.head_of_held (h : p.Alike q) (held : p.size ≠ 0)
    : p.storage.head? = q.storage.head? := by
  have held' : q.size ≠ 0 := h.size ▸ held
  have heads := congrArg List.head? h.bytes
  simpa only [Packet.bytes, List.head?_take, if_neg held, if_neg held'] using heads

-----------------------------------------------------------------------------------------
-- Receiving and building
-----------------------------------------------------------------------------------------

theorem Resembles.receive (h : p.Resembles q) (byte : UInt8)
    : (p.receive byte).1 = (q.receive byte).1 ∧ (p.receive byte).2.Resembles (q.receive byte).2 := by
  obtain ⟨same, alike⟩ := h.toAlike.receive byte
  refine ⟨same, alike, ?_, ?_, ?_⟩
  · rw [emitter_receive, emitter_receive, h.phase]
  · rw [emitter_receive, emitter_receive, h.next]
  · rw [emitter_receive, emitter_receive]
    exact h.checksum

/-- By induction on the run. -/
theorem Resembles.receiveFrame (h : p.Resembles q) (bytes : List UInt8)
    : (p.receiveFrame bytes).1 = (q.receiveFrame bytes).1
      ∧ (p.receiveFrame bytes).2.Resembles (q.receiveFrame bytes).2 := by
  induction bytes generalizing p q with
  | nil => exact ⟨rfl, h⟩
  | cons byte rest ih =>
      obtain ⟨same, next⟩ := h.receive byte
      simp only [Packet.receiveFrame]
      generalize p.receive byte = received at same next
      generalize q.receive byte = received' at same next
      obtain ⟨result, p'⟩ := received
      obtain ⟨result', q'⟩ := received'
      obtain rfl : result = result' := same
      rcases result with failure | _ | _
      · exact ⟨rfl, next⟩
      · obtain ⟨same, later⟩ := ih next
        simp only [same]
        exact ⟨trivial, later⟩
      · exact ⟨rfl, next⟩

theorem Resembles.withReceiver (h : p.Resembles q) (place : Phase)
    : Resembles { p with receiver := place } { q with receiver := place } :=
  ⟨h.toAlike.withReceiver place, h.phase, h.next, h.checksum⟩

/-- The same body, built in both, leaves them as they were to each other. -/
theorem Resembles.of_builds (h : p.Resembles q) {attempt attempt' : Except Failure Packet}
    {fits fits' : Prop} {body : List UInt8} (builds : p.Builds attempt fits body)
    (builds' : q.Builds attempt' fits' body) (room : fits ↔ fits')
    : Meets Resembles attempt attempt' := by
  by_cases enough : fits
  · obtain ⟨r, rfl, rebuilt, sound, same⟩ := builds.built enough
    obtain ⟨r', rfl, rebuilt', sound', same'⟩ := builds'.built (room.mp enough)
    have size : r.size = r'.size := by
      rw [rebuilt.size_eq sound, rebuilt'.size_eq sound', same, same']
    have bytes : r.bytes = r'.bytes := by
      rw [rebuilt.bytes_eq_body, rebuilt'.bytes_eq_body, same, same']
    refine .done ⟨⟨?_, size, bytes, ?_, ?_⟩, ?_, ?_, ?_⟩
    · rw [rebuilt.room, rebuilt'.room, h.room]
    · rw [rebuilt.unverified, rebuilt'.unverified]
    · rw [rebuilt.receiver, rebuilt'.receiver, h.receiver]
    · rw [rebuilt.emitter, rebuilt'.emitter, h.phase]
    · rw [rebuilt.emitter, rebuilt'.emitter, h.next]
    · rw [rebuilt.emitter, rebuilt'.emitter]
      exact h.checksum
  · rw [builds.refused enough, builds'.refused fun fits => enough (room.mpr fits)]
    exact .failed

theorem Resembles.withCommand (h : p.Resembles q) (sound : p.IsSound) (command : UInt8)
    : Meets Resembles (p.withCommand command) (q.withCommand command) := by
  have builds := (h.isSound sound).builds_withCommand command
  rw [payload, ← h.body] at builds
  exact h.of_builds (sound.builds_withCommand command) builds (by rw [h.room])

theorem Resembles.append (h : p.Resembles q) (sound : p.IsSound) (data : List UInt8)
    : Meets Resembles (p.append data) (q.append data) := by
  have builds := (h.isSound sound).builds_append data
  rw [← h.body] at builds
  exact h.of_builds (sound.builds_append data) builds (by rw [h.room, h.bodySize])

/-- A payload is put behind the byte in the place of the command, so that this byte has to be the
same in both. -/
theorem Resembles.withPayload (h : p.Resembles q) (data : List UInt8)
    (first : 1 + data.length ≤ p.capacity → p.storage.head? = q.storage.head?)
    : Meets Resembles (p.withPayload data) (q.withPayload data) := by
  by_cases room : 1 + data.length ≤ p.capacity
  · have builds := q.builds_withPayload data
    rw [List.take_one, ← first room, ← List.take_one] at builds
    exact h.of_builds (p.builds_withPayload data) builds (by rw [h.room])
  · have small := room
    rw [h.room] at small
    rw [(p.builds_withPayload data).refused room, (q.builds_withPayload data).refused small]
    exact .failed

theorem Resembles.withMessage (h : p.Resembles q) (command : UInt8) (data : List UInt8)
    : Meets Resembles (p.withMessage command data) (q.withMessage command data) :=
  h.of_builds (p.builds_withMessage command data) (q.builds_withMessage command data)
    (by rw [h.room])

/-- A byte of the payload lies among the bytes held. -/
theorem Resembles.setStorage (h : p.Resembles q) (place : Nat) (byte : UInt8)
    : Resembles { p with storage := p.storage.set place byte }
        { q with storage := q.storage.set place byte } := by
  refine ⟨⟨?_, h.size, ?_, h.verified, h.receiver⟩, h.phase, h.next, h.checksum⟩
  · simpa only [capacity, List.length_set] using h.room
  · have same := congrArg (·.set place byte) h.bytes
    simpa only [bytes, List.take_set] using same

-----------------------------------------------------------------------------------------
-- Sending
-----------------------------------------------------------------------------------------

theorem Resembles.withEmitter (h : p.Resembles q) {emitter emitter' : Emitter}
    (phase : emitter.phase = emitter'.phase) (next : emitter.next = emitter'.next)
    (checksum : emitter.phase ≠ .between → emitter.checksum = emitter'.checksum)
    : Resembles { p with emitter } { q with emitter := emitter' } :=
  ⟨⟨h.room, h.size, h.bytes, h.verified, h.receiver⟩, phase, next, checksum⟩

/-- Inside a frame the next byte is one of the body, or the checksum as it was when the frame was
opened. -/
theorem Resembles.pendingByte (h : p.Resembles q) (sending : p.emitter.phase ≠ .between)
    : p.pendingByte = q.pendingByte := by
  have within := p.bodySize_le
  rw [Packet.pendingByte, Packet.pendingByte, ← h.bodySize, ← h.next, ← h.checksum sending]
  split
  · have size := h.size
    rw [p.storage_getD_of_lt (by omega), q.storage_getD_of_lt (by omega), h.bytes]
  · rfl

theorem Resembles.rewind (h : p.Resembles q)
    : Meets Resembles p.rewind q.rewind := by
  rw [Packet.rewind, Packet.rewind, ← h.bodySize]
  split
  · exact .failed
  · exact .done (h.withEmitter rfl rfl fun inside => absurd rfl inside)

/-- Both send the same byte; by the places in a frame. -/
theorem Resembles.emit (h : p.Resembles q)
    : Meets (fun sent sent' => sent.1 = sent'.1 ∧ sent.2.Resembles sent'.2) p.emit q.emit := by
  rw [Packet.emit, Packet.emit, ← h.phase]
  cases place : p.emitter.phase with
  | between =>
      simp only [← h.bodySize, ← h.body]
      split
      · exact .failed
      · exact .done ⟨rfl, h.withEmitter rfl rfl fun _ => rfl⟩
  | inside =>
      have pending := h.pendingByte (by simp [place])
      have checksum := h.checksum (by simp [place])
      simp only [← h.bodySize, ← h.next, ← pending]
      split
      · exact .done ⟨rfl, h.withEmitter rfl rfl fun inside => absurd rfl inside⟩
      · split
        · exact .done ⟨rfl, h.withEmitter rfl rfl fun _ => checksum⟩
        · exact .done ⟨rfl, h.withEmitter h.phase rfl fun _ => checksum⟩
  | escaped =>
      have pending := h.pendingByte (by simp [place])
      have checksum := h.checksum (by simp [place])
      simp only [← h.next, ← pending]
      exact .done ⟨rfl, h.withEmitter rfl rfl fun _ => checksum⟩

theorem emitAll_of_failed {e : Failure} (failed : p.emit = .error e)
    : p.emitAll = ([], p) := by
  rw [emitAll]
  split
  · rfl
  · next sent => cases sent.symm.trans failed

/-- A whole frame goes out the same, by the cases of `emitAll`. -/
theorem Resembles.emitAll (h : p.Resembles q)
    : p.emitAll.1 = q.emitAll.1 ∧ p.emitAll.2.Resembles q.emitAll.2 := by
  fun_induction Packet.emitAll p generalizing q with
  | case1 p failure failed =>
      rw [emitAll_of_failed (h.emit.of_error failed)]
      exact ⟨rfl, h⟩
  | case2 p byte r sent last =>
      obtain ⟨⟨_, r'⟩, sent', rfl, next⟩ := h.emit.of_ok sent
      rw [emitAll_of_complete sent' last]
      exact ⟨rfl, next⟩
  | case3 p byte r sent more rest final all ih =>
      obtain ⟨⟨_, r'⟩, sent', rfl, next⟩ := h.emit.of_ok sent
      obtain ⟨same, later⟩ := ih next
      rw [all] at same later
      rw [emitAll_of_unfinished sent' more]
      exact ⟨congrArg (byte.value :: ·) same, later⟩

theorem Resembles.writeFrame (h : p.Resembles q) (buffer : List UInt8)
    : (p.writeFrame buffer).1 = (q.writeFrame buffer).1
      ∧ (p.writeFrame buffer).2.Resembles (q.writeFrame buffer).2 := by
  have meets := h.rewind
  rw [Packet.writeFrame, Packet.writeFrame]
  generalize p.rewind = rewound at meets
  generalize q.rewind = rewound' at meets
  cases meets with
  | failed => exact ⟨rfl, h⟩
  | @done r r' fresh =>
      have size : r.frameSize = r'.frameSize := congrArg Frame.wireSize fresh.body
      simp only [size]
      split
      · exact ⟨rfl, fresh⟩
      · obtain ⟨same, final⟩ := fresh.emitAll
        simp only [same]
        exact ⟨trivial, final⟩

-----------------------------------------------------------------------------------------
-- One operation
-----------------------------------------------------------------------------------------

/-- An operation puts a payload behind a command where nothing is held, and so takes up as command
the byte that was left in its place. -/
def Recalls (p : Packet) : Operation → Prop
  | .withPayload data => p.isEmpty = true ∧ 1 + data.length ≤ p.capacity
  | _ => False

theorem Resembles.settle (h : p.Resembles q) {attempt attempt' : Except Failure Packet}
    (meets : Meets Resembles attempt attempt')
    : (p.settle attempt).1 = (q.settle attempt').1
      ∧ (p.settle attempt).2.Resembles (q.settle attempt').2 := by
  cases meets with
  | failed => exact ⟨rfl, h⟩
  | done related => exact ⟨rfl, related⟩

/-- An operation answers the same for both and leaves them so, if it does not take up a byte that
is not the same in both; by the operations. -/
theorem Resembles.perform (h : p.Resembles q) (sound : p.IsSound) (operation : Operation)
    (first : p.Recalls operation → p.storage.head? = q.storage.head?)
    : (p.perform operation).1 = (q.perform operation).1
      ∧ (p.perform operation).2.Resembles (q.perform operation).2 := by
  cases operation with
  | withCommand command => exact h.settle (h.withCommand sound command)
  | withPayload data =>
      refine h.settle (h.withPayload data fun room => ?_)
      by_cases empty : p.size = 0
      · exact first ⟨by simp [isEmpty, empty], room⟩
      · exact h.head_of_held empty
  | withMessage command data => exact h.settle (h.withMessage command data)
  | append data => exact h.settle (h.append sound data)
  | clear =>
      exact ⟨rfl, ⟨h.room, rfl, rfl, rfl, rfl⟩, rfl, rfl,
        fun inside => absurd rfl inside⟩
  | setPayloadByte index byte =>
      have payload : p.payload = q.payload := congrArg (·.drop 1) h.body
      simp only [Packet.perform, setPayloadByte?, payload]
      by_cases inRange : index < q.payload.length
      · rw [if_pos inRange, if_pos inRange]
        exact ⟨rfl, h.setStorage _ _⟩
      · rw [if_neg inRange, if_neg inRange]
        exact ⟨rfl, h⟩
  | receive byte =>
      obtain ⟨same, next⟩ := h.receive byte
      exact ⟨by simp only [Packet.perform, same], next⟩
  | receiveFrame bytes =>
      obtain ⟨same, next⟩ := h.receiveFrame bytes
      exact ⟨by simp only [Packet.perform, same], next⟩
  | abandonFrame => exact ⟨rfl, h.withReceiver .between⟩
  | rewind => exact h.settle h.rewind
  | emit =>
      have meets := h.emit
      simp only [Packet.perform]
      generalize p.emit = sent at meets
      generalize q.emit = sent' at meets
      cases meets with
      | failed => exact ⟨rfl, h⟩
      | @done taken taken' related =>
          obtain ⟨byte, r⟩ := taken
          obtain ⟨byte', r'⟩ := taken'
          obtain ⟨rfl, next⟩ := related
          exact ⟨rfl, next⟩
  | writeFrame buffer =>
      obtain ⟨same, next⟩ := h.writeFrame buffer
      exact ⟨by simp only [Packet.perform, same], next⟩

end PacketBus.Packet
