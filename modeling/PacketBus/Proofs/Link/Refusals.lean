import PacketBus.Proofs.Link.Underway
import PacketBus.Proofs.Packet.Soundness
import PacketBus.Proofs.Port.Schedule

/-! Refusals of a port leave no trace in what goes over it.
However often and wherever a port refuses a byte, what it takes is the frame from its beginning on,
and the write is complete when the port has taken the whole frame and at no other time.
-/

namespace PacketBus.Link

open PacketBus.Frame (wire)

variable {P ε : Type}

/-- Without faults a frame under way has lost no copy, so what was taken and what is owed make it
up. -/
theorem accepted_append_owed {w : Writing P ε} {body owed : List UInt8} {lostEnds : Nat}
    (h : w.Underway body lostEnds owed) (faultless : w.link.port.lost = [])
    : w.link.port.accepted ++ owed = wire body := by
  obtain ⟨_, account, lostEnds_le⟩ := h
  have taken : w.link.port.accepted = w.link.port.released :=
    Port.Call.accepted_eq_released faultless
  obtain rfl : lostEnds = 0 := by simpa [faultless] using lostEnds_le
  rw [taken, account]
  simp

/-- A push in which the port does not fail takes the beginning of what is owed: less than all of it
if the port refuses a byte, and else all of it. -/
theorem Ending.of_faultless {body owed : List UInt8} {calls : List (Port.Call ε)}
    {result : Except (Failure ε) FrameStatus} {after : Link (RecordedPort P ε)} {next : Packet}
    (h : Ending body owed calls result after next)
    (faultless : calls.filterMap Port.Call.lost? = [])
    : calls.filterMap Port.Call.accepted? <+: owed
      ∧ (∃ status, result = .ok status)
      ∧ (result = .ok .unfinished ↔ ∃ byte, .write byte (.ok false) ∈ calls)
      ∧ (result = .ok .complete ↔ calls.filterMap Port.Call.accepted? = owed) := by
  cases h with
  | complete closed => simp
  | @refused sent byte rest _ _ split later =>
      have taken : (Port.Call.accepts sent ++ [.write byte (.ok false)]
          : List (Port.Call ε)).filterMap Port.Call.accepted? = sent := by
        simp [List.filterMap_cons]
      rw [taken, split]
      refine ⟨List.prefix_append _ _, ⟨.unfinished, rfl⟩, ?_, ?_⟩
      · simp
      · simp
  | failed split later => simp at faultless

variable [Port P ε]

/-- Back-pressure is invisible on the wire. After a write has begun, over a link in any state, what
the port takes is always the beginning of the frame. No push fails: it is unfinished exactly if the
port refuses a byte in it, and complete exactly if the port has then taken the whole frame. Packets
may be received meanwhile, and a packet that has no frame is refused and leaves the link as it is,
with the byte that it holds. -/
theorem refusals_leave_no_trace (link : Link P) {packet : Packet} {command : UInt8}
    (sound : packet.IsSound) (held : packet.command? = some command)
    : ∃ start : Writing P ε, Writing.start link packet = .ok start
        ∧ ∀ acts : List (Writing.Act P), start.Continues acts
          → let before := start.after acts
            let pushed := before.pushed
            let calls := pushed.link.port.calls.drop before.link.port.calls.length
            pushed.link.port.lost = []
            → before.link.port.accepted <+: wire packet.body
              ∧ pushed.link.port.accepted <+: wire packet.body
              ∧ (∃ status, pushed.result = .ok status)
              ∧ (pushed.result = .ok .unfinished ↔ ∃ byte, .write byte (.ok false) ∈ calls)
              ∧ (pushed.result = .ok .complete ↔ pushed.link.port.accepted = wire packet.body)
              ∧ ∀ (other : Packet) (patience : Nat), other.rewind = .error .tooShort
                → before.link.prepare other = (.error .tooShort, before.link)
                  ∧ before.link.send other patience
                    = ⟨some (.error (.packet .tooShort)), before.link, other⟩ := by
  have nonempty := sound.body_ne_nil held
  obtain ⟨start, started, _, fresh⟩ :=
    @Writing.start_of_command P ε link packet sound.size_le nonempty
  refine ⟨start, started, ?_⟩
  intro acts continues before pushed calls faultless
  obtain ⟨lostEnds, owed, underway⟩ := fresh.after continues
  obtain ⟨made, port, kept, emitter, linked, _, ending⟩ := underway.writes.push
  have recorded : pushed.link.port.calls = before.link.port.calls ++ made :=
    congrArg (·.port.calls) linked
  have calls_eq : calls = made := by
    simp only [calls, recorded, List.drop_left]
  simp only [RecordedPort.lost, recorded, List.filterMap_append, List.append_eq_nil_iff]
    at faultless
  have whole := accepted_append_owed underway faultless.1
  have taken : pushed.link.port.accepted
      = before.link.port.accepted ++ made.filterMap Port.Call.accepted? := by
    simp only [RecordedPort.accepted, recorded, List.filterMap_append]
  refine ⟨⟨owed, whole⟩, ?_⟩
  obtain ⟨beginning, answered, unfinished, complete⟩ := ending.of_faultless faultless.2
  rw [calls_eq, taken, ← whole, List.prefix_append_right_inj, List.append_right_inj]
  refine ⟨beginning, answered, unfinished, complete, ?_⟩
  intro other patience refused
  have untouched := before.link.prepare_of_refused refused
  refine ⟨untouched, ?_⟩
  rw [Link.send, untouched]

/-- A byte of an earlier write is held and the packet stands in the middle of its frame. The port
refuses a byte between the halves of an escaped one and again before the closing delimiter. -/
theorem refusals_leave_no_trace_between_halves
    : let link : Link (ScheduledPort Unit) :=
        { port :=
            { reads := [.ok (some 0x07)]
              writes :=
                [.ok true, .ok true, .ok false, .ok false, .ok true, .ok true, .ok true,
                  .ok false] }
          incoming := .ofStorage [0, 0]
          held := some ⟨0x55, .complete⟩ }
      let packet : Packet :=
        { storage := [0xDB, 0x01, 0xEE], size := 2, emitter := ⟨.escaped, 1, 0x77⟩ }
      let acts : List (Writing.Act (ScheduledPort Unit)) :=
        [.push, .receive, .push, .prepare (.ofStorage [0]), .push]
      packet.IsSound ∧ packet.command? = some 0xDB
      ∧ ∃ start : Writing (ScheduledPort Unit) Unit, Writing.start link packet = .ok start
        ∧ start.Continues acts
        ∧ (start.after acts).pushed.link.port.lost = []
        ∧ (start.after acts).link.port.accepted = [0xC0, 0xDB, 0xDD, 0x01, 0x2A]
        ∧ (start.after acts).pushed.link.port.accepted = wire packet.body
        ∧ (start.after acts).pushed.result = .ok .complete := by
  intro link packet acts
  have sound : packet.IsSound := ⟨by decide, by decide⟩
  obtain ⟨start, started, run⟩ := refusals_leave_no_trace link sound rfl
  let concrete : Writing (ScheduledPort Unit) Unit :=
    { link := { port := { port := link.port }, incoming := link.incoming }
      packet := { packet with emitter := ⟨.between, 0, 0x77⟩ } }
  obtain rfl : concrete = start := Except.ok.inj started
  have continues : concrete.Continues acts := by
    refine ⟨by decide +kernel, ?_⟩
    intro other member
    simp [acts] at member
    subst member
    rfl
  obtain ⟨-, -, -, -, complete, -⟩ := run acts continues (by decide +kernel)
  have taken : (concrete.after acts).pushed.link.port.accepted = wire packet.body := by
    decide +kernel
  exact ⟨sound, rfl, concrete, started, continues, by decide +kernel, by decide +kernel, taken,
    complete.mpr taken⟩

end PacketBus.Link
