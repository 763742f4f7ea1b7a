import PacketBus.Proofs.Emission.WholeFrames
import PacketBus.Proofs.Port.Record

/-! Frames that are sent while their packet changes.
Between two bytes of a frame the packet may be built anew or be received into. The place in the frame
only ever moves on, so that the frame closes in time, and whatever byte is found at that place is
sent as one that a receiver can tell from the delimiters.
-/

namespace PacketBus

open PacketBus.Frame (delimiter escapeMark escapedDelimiter escapedMark escape? stuff stuffByte)

namespace Frame

/-- Content as it may stand between two delimiters: it holds none itself, and right behind each
escape mark there is the escaped form of a reserved byte. -/
structure IsStuffed (content : List UInt8) : Prop where
  delimiter_not_mem : delimiter ∉ content
  marked
    : ∀ front back, content = front ++ escapeMark :: back
        → ∃ form rest, back = form :: rest ∧ (form = escapedDelimiter ∨ form = escapedMark)

/-- An escape mark in stuffed bytes is the first half of a pair, by induction on the bytes. -/
theorem isStuffed_stuff (bytes : List UInt8)
    : IsStuffed (stuff bytes) := by
  refine ⟨delimiter_not_mem_stuff bytes, ?_⟩
  induction bytes with
  | nil =>
      intro front back split
      simp at split
  | cons byte rest ih =>
      intro front back split
      rw [stuff_cons, stuffByte] at split
      cases reserved : escape? byte with
      | none =>
          rw [reserved, List.singleton_append] at split
          cases front with
          | nil => exact absurd (List.cons.inj split).1 (escape?_eq_none_iff.mp reserved).2
          | cons first others => exact ih others back (List.cons.inj split).2
      | some form =>
          rw [reserved, List.cons_append, List.singleton_append] at split
          have ordinary := (escape?_eq_none_iff.mp (escape?_of_escape? reserved)).2
          cases front with
          | nil =>
              have behind := (List.cons.inj split).2
              exact ⟨form, stuff rest, behind.symm, eq_or_eq_of_escape? reserved⟩
          | cons first others =>
              have behind := (List.cons.inj split).2
              cases others with
              | nil => exact absurd (List.cons.inj behind).1 ordinary
              | cons second others => exact ih others back (List.cons.inj behind).2

end Frame

open PacketBus.Frame (IsStuffed)

/-- The emitter is inside a frame of which `content` was sent behind the opening delimiter: all of
the bytes before its place, or these and an escape mark. The place is at most behind a checksum that
follows `room` bytes. -/
inductive Emitter.HasSent (room : Nat) : Emitter → (content : List UInt8) → Prop
  | inside {values checksum} (bound : values.length ≤ room + 1)
    : HasSent room ⟨.inside, values.length, checksum⟩ (stuff values)
  | escaped {values checksum} (bound : values.length ≤ room)
    : HasSent room ⟨.escaped, values.length, checksum⟩ (stuff values ++ [escapeMark])

namespace Emitter.HasSent

variable {emitter : Emitter} {room : Nat} {content : List UInt8}

/-- Each place takes at most two bytes, and an escape mark stands at most at the last but one. -/
theorem length_le (h : emitter.HasSent room content)
    : content.length ≤ 2 * room + 2 := by
  cases h with
  | @inside values checksum bound =>
      have size := (Frame.stuffedSize_bounds values).2
      rw [Frame.length_stuff]
      omega
  | @escaped values checksum bound =>
      have size := (Frame.stuffedSize_bounds values).2
      rw [List.length_append, Frame.length_stuff, List.length_singleton]
      omega

/-- What was sent so far can be brought to an end. -/
theorem exists_stuffed (h : emitter.HasSent room content)
    : ∃ more, IsStuffed (content ++ more) := by
  cases h with
  | @inside values _ _ =>
      refine ⟨[], ?_⟩
      rw [List.append_nil]
      exact Frame.isStuffed_stuff values
  | @escaped values _ _ =>
      have ended := Frame.isStuffed_stuff (values ++ [delimiter])
      rw [Frame.stuff_append] at ended
      exact ⟨[escapedDelimiter], by rwa [List.append_assoc]⟩

end Emitter.HasSent

namespace Packet

variable {p q : Packet} {content : List UInt8}

/-- The operations that leave the frame that is being sent to itself, the calls for its bytes among
them; the others give it up or send a frame of their own. -/
def Operation.LeavesFrame : Operation → Prop
  | .clear | .rewind | .writeFrame _ => False
  | _ => True

/-- What a call for one byte has answered. -/
def Reply.emission? : Reply → Option (Except Failure WireByte)
  | .emitted result => some result
  | _ => none

/-- What the calls for single bytes have answered in a history, in order. -/
def emissions (p : Packet) (history : List Operation) : List (Except Failure WireByte) :=
  (p.performAll history).1.filterMap Reply.emission?

theorem emissions_emit {byte : WireByte} (sent : p.emit = .ok (byte, q)) (rest : List Operation)
    : p.emissions (.emit :: rest) = .ok byte :: q.emissions rest := by
  simp [emissions, performAll, perform, sent, Reply.emission?]

theorem emissions_other {operation : Operation} (other : (p.perform operation).1.emission? = none)
    (rest : List Operation)
    : p.emissions (operation :: rest) = (p.perform operation).2.emissions rest := by
  simp [emissions, performAll, other]

-----------------------------------------------------------------------------------------
-- One byte of a frame
-----------------------------------------------------------------------------------------

/-- A call for a byte does not fail inside a frame: the content goes on with that byte, or it is
stuffed content and the byte is the closing delimiter; by the places in the frame. -/
theorem IsSound.emit_of_sent (sound : p.IsSound) (h : p.emitter.HasSent p.capacity content)
    : ∃ (byte : WireByte) (emitter : Emitter), p.emit = .ok (byte, { p with emitter })
        ∧ (byte.status = .unfinished ∧ emitter.HasSent p.capacity (content ++ [byte.value])
          ∨ byte = ⟨delimiter, .complete⟩ ∧ IsStuffed content) := by
  have within := sound.bodySize_le_capacity
  generalize place : p.emitter = emitter at h
  cases h with
  | @inside values checksum bound =>
      by_cases behind : p.bodySize < values.length
      · exact ⟨⟨delimiter, .complete⟩, ⟨.between, values.length, checksum⟩,
          by simp [emit, place, behind], .inr ⟨rfl, Frame.isStuffed_stuff values⟩⟩
      · have room : values.length ≤ p.capacity := by omega
        cases reserved : escape? p.pendingByte with
        | some form =>
            exact ⟨⟨escapeMark, .unfinished⟩, ⟨.escaped, values.length, checksum⟩,
              by simp [emit, place, behind, reserved], .inl ⟨rfl, .escaped room⟩⟩
        | none =>
            refine ⟨⟨p.pendingByte, .unfinished⟩, ⟨.inside, values.length + 1, checksum⟩,
              by simp [emit, place, behind, reserved], .inl ⟨rfl, ?_⟩⟩
            have sent : stuff (values ++ [p.pendingByte]) = stuff values ++ [p.pendingByte] := by
              simp [stuffByte, reserved]
            have bound' : (values ++ [p.pendingByte]).length ≤ p.capacity + 1 := by simpa using room
            rw [← sent]
            simpa using Emitter.HasSent.inside bound'
  | @escaped values checksum bound =>
      -- The byte at the place may have changed since its escape mark was sent.
      obtain ⟨byte, reserved⟩
          : ∃ byte, escape? byte = some ((escape? p.pendingByte).getD escapedMark) := by
        cases same : escape? p.pendingByte with
        | none => exact ⟨escapeMark, rfl⟩
        | some form => exact ⟨p.pendingByte, same⟩
      refine ⟨⟨(escape? p.pendingByte).getD escapedMark, .unfinished⟩,
        ⟨.inside, values.length + 1, checksum⟩, by simp [emit, place], .inl ⟨rfl, ?_⟩⟩
      have sent : stuff (values ++ [byte])
          = stuff values ++ [escapeMark] ++ [(escape? p.pendingByte).getD escapedMark] := by
        simp [stuffByte, reserved]
      have bound' : (values ++ [byte]).length ≤ p.capacity + 1 := by simpa using bound
      rw [← sent]
      simpa using Emitter.HasSent.inside bound'

/-- Only the byte that opens a frame is a delimiter that does not close one. -/
theorem hasSent_of_opened (opened : p.emit = .ok (⟨delimiter, .unfinished⟩, q))
    : q.capacity = p.capacity ∧ q.emitter.HasSent q.capacity [] := by
  unfold emit at opened
  split at opened
  · split at opened
    · cases opened
    · cases opened
      have start : ([] : List UInt8).length ≤ p.capacity + 1 := Nat.zero_le _
      exact ⟨rfl, .inside start⟩
  · split at opened
    · cases opened
    · split at opened
      · cases opened
      · next ordinary =>
          simp only [Except.ok.injEq, Prod.mk.injEq, WireByte.mk.injEq] at opened
          rw [opened.1.1] at ordinary
          exact absurd rfl ordinary
  · simp only [Except.ok.injEq, Prod.mk.injEq, WireByte.mk.injEq] at opened
    have second := opened.1.1
    cases reserved : escape? p.pendingByte with
    | none =>
        rw [reserved] at second
        exact absurd second (by decide)
    | some form =>
        have ordinary := (Frame.escape?_eq_none_iff.mp (Frame.escape?_of_escape? reserved)).1
        rw [reserved] at second
        exact absurd second ordinary

-----------------------------------------------------------------------------------------
-- The operations between two bytes
-----------------------------------------------------------------------------------------

/-- By induction on the run. -/
theorem emitter_receiveFrame (p : Packet) (bytes : List UInt8)
    : (p.receiveFrame bytes).2.emitter = p.emitter := by
  induction bytes generalizing p with
  | nil => rfl
  | cons byte rest ih =>
      have first := emitter_receive p byte
      simp only [receiveFrame]
      split
      · next received =>
          rw [received] at first
          exact (ih _).trans first
      · next received =>
          rw [received] at first
          exact first

/-- An attempt that keeps the place in the frame where it succeeds keeps it where it fails. -/
theorem emitter_settle {attempt : Except Failure Packet}
    (kept : ∀ q, attempt = .ok q → q.emitter = p.emitter)
    : (p.settle attempt).1.emission? = none ∧ (p.settle attempt).2.emitter = p.emitter := by
  cases attempt with
  | ok q => exact ⟨rfl, kept q rfl⟩
  | error failure => exact ⟨rfl, rfl⟩

/-- Nothing but the calls for its bytes moves the place in a frame that is left to itself. -/
theorem IsSound.emitter_perform (sound : p.IsSound) {operation : Operation}
    (leaves : operation.LeavesFrame) (other : operation ≠ .emit)
    : (p.perform operation).1.emission? = none
      ∧ (p.perform operation).2.emitter = p.emitter := by
  cases operation with
  | withCommand command => exact emitter_settle fun q built => (rebuilds_withCommand built).emitter
  | withPayload data => exact emitter_settle fun q built => (rebuilds_withPayload built).emitter
  | withMessage command data =>
      exact emitter_settle fun q built => (rebuilds_withMessage built).emitter
  | append data => exact emitter_settle fun q built => (sound.rebuilds_append built).emitter
  | setPayloadByte index byte =>
      simp only [Packet.perform]
      split
      · next built =>
          unfold Packet.setPayloadByte? at built
          split at built
          · cases built
            exact ⟨rfl, rfl⟩
          · cases built
      · exact ⟨rfl, rfl⟩
  | receive byte => exact ⟨rfl, emitter_receive p byte⟩
  | receiveFrame bytes => exact ⟨rfl, emitter_receiveFrame p bytes⟩
  | abandonFrame => exact ⟨rfl, rfl⟩
  | emit => exact absurd rfl other
  | clear => exact leaves.elim
  | rewind => exact leaves.elim
  | writeFrame buffer => exact leaves.elim

-----------------------------------------------------------------------------------------
-- Any run
-----------------------------------------------------------------------------------------

/-- What calls for a byte answer that are inside the frame: each byte, and that others follow. -/
def underway (values : List UInt8) : List (Except Failure WireByte) :=
  values.map fun value => .ok ⟨value, .unfinished⟩

/-- The frame goes on through whatever happens to its packet, or it was closed in the meantime; by
induction on what happens. -/
theorem IsConsistent.emissions_of_sent (h : p.IsConsistent) {changes : List Operation}
    (sent : p.emitter.HasSent p.capacity content)
    (leaves : ∀ change ∈ changes, change.LeavesFrame)
    : (∃ more, p.emissions changes = underway more
        ∧ (p.after changes).emitter.HasSent p.capacity (content ++ more))
      ∨ ∃ more later, p.emissions changes = underway more ++ .ok ⟨delimiter, .complete⟩ :: later
        ∧ IsStuffed (content ++ more) ∧ (content ++ more).length ≤ 2 * p.capacity + 2 := by
  induction changes generalizing p content with
  | nil => exact .inl ⟨[], rfl, by simpa using sent⟩
  | cons change rest ih =>
      obtain ⟨next, room⟩ := h.perform change
      have others := fun later member => leaves later (List.mem_cons_of_mem change member)
      by_cases call : change = .emit
      · subst call
        obtain ⟨byte, emitter, one, found⟩ := h.toIsSound.emit_of_sent sent
        have after : (p.perform .emit).2 = { p with emitter } := by simp only [Packet.perform, one]
        rw [after] at next
        rw [emissions_emit one, after_cons, after]
        obtain ⟨more, sent'⟩ | ⟨rfl, ended⟩ := found
        · obtain ⟨value, status⟩ := byte
          obtain rfl : status = .unfinished := more
          obtain ⟨more, run, sent''⟩ | ⟨more, later, run, ended, bound⟩ := ih next sent' others
          · refine .inl ⟨value :: more, ?_, ?_⟩
            · rw [run]
              rfl
            · rwa [List.append_assoc] at sent''
          · rw [List.append_assoc] at ended bound
            refine .inr ⟨value :: more, later, ?_, ended, bound⟩
            rw [run]
            rfl
        · refine .inr ⟨[], _, rfl, ?_⟩
          rw [List.append_nil]
          exact ⟨ended, sent.length_le⟩
      · obtain ⟨silent, kept⟩ := h.toIsSound.emitter_perform
          (leaves change (List.mem_cons_self ..)) call
        rw [← kept, ← room] at sent
        rw [emissions_other silent, after_cons, ← room]
        exact ih next sent others

/-- Frames survive changes: from its opening delimiter on, and whatever else happens to the packet
between the calls, no call for a byte fails before the frame is closed, which it is within the limit
that the storage sets; in between there is no delimiter, and behind an escape mark the next byte is
the escaped form of a reserved one. -/
theorem frames_survive_changes (storage : List UInt8) (history : List Operation)
    (opened : ((ofStorage storage).after history).emit = .ok (⟨delimiter, .unfinished⟩, q))
    (changes : List Operation) (leaves : ∀ change ∈ changes, change.LeavesFrame)
    : let calls := ((ofStorage storage).after history).emissions (.emit :: changes)
      let limit := 2 * storage.length + 4
      ∃ content, let begun := underway (delimiter :: content)
        (calls = begun ∧ begun.length < limit ∧ ∃ more, IsStuffed (content ++ more))
        ∨ ∃ later, calls = begun ++ .ok ⟨delimiter, .complete⟩ :: later
          ∧ begun.length + 1 ≤ limit ∧ IsStuffed content := by
  intro calls limit
  obtain ⟨consistent, moved⟩ := (isConsistent_ofStorage storage).after history
  obtain ⟨same, sent⟩ := hasSent_of_opened opened
  have room : q.capacity = storage.length := same.trans moved
  have first : calls = _ := emissions_emit opened changes
  obtain ⟨content, run, sent'⟩ | ⟨content, later, run, ended, bound⟩ :=
    (consistent.emit opened).emissions_of_sent sent leaves
  · have bound := sent'.length_le
    rw [List.nil_append, room] at bound
    refine ⟨content, .inl ⟨?_, ?_, sent'.exists_stuffed⟩⟩
    · rw [first, run]
      rfl
    · simp only [underway, List.length_map, List.length_cons]
      omega
  · rw [List.nil_append, room] at bound
    refine ⟨content, .inr ⟨later, ?_, ?_, ended⟩⟩
    · rw [first, run]
      rfl
    · simp only [underway, List.length_map, List.length_cons]
      omega

/-- The command is taken back between the escape mark and its second half, and a frame begins to
come in behind that half: the frame is cut short, but a receiver finds its end. -/
theorem frames_survive_changes_of_withdrawn_command
    : let p := (ofStorage [0x00, 0x00, 0x00, 0x00]).after [.withMessage 0xC0 [0x01, 0x02]]
      let changes : List Operation :=
        [.emit, .withCommand 0x05, .emit, .receive 0x00, .emit, .emit]
      let calls := p.emissions (.emit :: changes)
      (∃ q, p.emit = .ok (⟨delimiter, .unfinished⟩, q))
      ∧ (∀ change ∈ changes, change.LeavesFrame)
      ∧ calls = underway [0xC0, 0xDB, 0xDD] ++ [.ok ⟨0xC0, .complete⟩, .error .tooShort]
      ∧ ∃ content later,
        calls = underway (delimiter :: content) ++ .ok ⟨delimiter, .complete⟩ :: later
        ∧ (underway (delimiter :: content)).length + 1 ≤ 12 ∧ IsStuffed content := by
  intro p changes calls
  have opened : p.emit = .ok (⟨delimiter, .unfinished⟩, (p.perform .emit).2) := rfl
  have leaves : ∀ change ∈ changes, change.LeavesFrame := by
    simp [changes, Operation.LeavesFrame]
  have explicit : calls
      = underway [0xC0, 0xDB, 0xDD] ++ [.ok ⟨0xC0, .complete⟩, .error .tooShort] := by
    decide +kernel
  refine ⟨⟨_, opened⟩, leaves, explicit, ?_⟩
  obtain ⟨content, ⟨unended, -, -⟩ | ⟨later, closed, bound, stuffed⟩⟩ :=
    frames_survive_changes [0x00, 0x00, 0x00, 0x00] [.withMessage 0xC0 [0x01, 0x02]] opened
      changes leaves
  · have refused : .error .tooShort ∈ underway (delimiter :: content) := by
      rw [unended.symm.trans explicit]
      simp
    simp [underway] at refused
  · exact ⟨content, later, closed, bound, stuffed⟩

end Packet

end PacketBus
