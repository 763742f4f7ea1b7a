import PacketBus.Proofs.Device.Steps
import PacketBus.Proofs.Link.Underway
import PacketBus.Proofs.Packet.Soundness
import PacketBus.Proofs.Port.Schedule

/-! What the faults of a port do to the frame being written.
A byte on which the port fails is not offered again, and a frame that lost its closing delimiter is
written once more. So the frame arrives as it is exactly if the port did not fail.
-/

namespace PacketBus

open PacketBus.Frame (wire)

variable {P R ε : Type}

/-- A port that may fail is offered more of a frame, and the offer may be the one that completes it
or the one that fails. What is gone is the beginning of some copies of the frame. -/
structure RecordedPort.LossyOffer (frame : List UInt8) (before after : RecordedPort P ε)
    (complete failed : Prop) : Prop where
  copies
    : ∃ lostEnds ≤ after.lost.length,
        after.released <+: (List.replicate (lostEnds + 1) frame).flatten
        ∧ (complete → after.released = (List.replicate (lostEnds + 1) frame).flatten)
  /-- A failure loses one byte, and nothing else does. -/
  loses : failed ↔ ∃ byte, after.lost = before.lost ++ [byte]
  keeps : ¬failed ↔ after.lost = before.lost
  /-- As many bytes as the frame has could be lost, so that the copies left make up one frame. -/
  intact : complete → after.lost.length < frame.length → (after.accepted = frame ↔ after.lost = [])

/-- The copies that are gone leave one frame behind only if nothing is lost, by counting. -/
theorem RecordedPort.accepted_eq_iff {frame : List UInt8} {port : RecordedPort P ε} {lostEnds : Nat}
    (whole : port.released = (List.replicate (lostEnds + 1) frame).flatten)
    (lostEnds_le : lostEnds ≤ port.lost.length) (few : port.lost.length < frame.length)
    : port.accepted = frame ↔ port.lost = [] := by
  have count : port.released.length = port.accepted.length + port.lost.length :=
    Port.Call.length_released port.calls
  constructor
  · intro same
    have size : port.released.length = (lostEnds + 1) * frame.length := by
      rw [whole, List.length_flatten, List.map_replicate, List.sum_replicate_nat]
    rw [same, size, Nat.succ_mul] at count
    rcases Nat.eq_zero_or_pos lostEnds with rfl | more
    · exact List.eq_nil_of_length_eq_zero (by omega)
    · have another := Nat.le_mul_of_pos_left frame.length more
      omega
  · intro kept
    obtain rfl : lostEnds = 0 := by simpa [kept] using lostEnds_le
    have taken : port.accepted = port.released := Port.Call.accepted_eq_released kept
    rw [taken, whole]
    simp

variable [Port P ε] {w : Writing P ε} {body owed : List UInt8} {lostEnds : Nat}

/-- A push of a frame under way loses the byte on which the port fails, by the ways a push ends. -/
theorem Writing.Underway.lossyOffer (h : w.Underway body lostEnds owed)
    : RecordedPort.LossyOffer (wire body) w.link.port w.pushed.link.port
        (w.pushed.result = .ok .complete) (∃ fault, w.pushed.result = .error (.port fault)) := by
  obtain ⟨calls, port, held, emitter, linked, _, ending⟩ := h.writes.push
  obtain ⟨_, account, lostEnds_le⟩ := h
  have recorded : w.pushed.link.port = ⟨port, w.link.port.calls ++ calls⟩ :=
    congrArg (·.port) linked
  have lost : w.pushed.link.port.lost = w.link.port.lost ++ calls.filterMap Port.Call.lost? := by
    simp only [recorded, RecordedPort.lost, List.filterMap_append]
  have released : w.pushed.link.port.released
      = w.link.port.released ++ calls.filterMap Port.Call.released? := by
    simp only [recorded, RecordedPort.released, List.filterMap_append]
  have within : lostEnds ≤ w.pushed.link.port.lost.length := by
    rw [lost, List.length_append]
    omega
  change Link.Ending body owed calls w.pushed.result _ _ at ending
  generalize w.pushed.result = result at ending ⊢
  cases ending with
  | complete closed =>
      have whole : w.pushed.link.port.released
          = (List.replicate (lostEnds + 1) (wire body)).flatten := by
        rw [released, ← account]
        simp
      refine ⟨⟨lostEnds, within, whole ▸ List.prefix_rfl, fun _ => whole⟩, ?_, ?_, ?_⟩
      · simp [lost]
      · simp [lost]
      · intro _ few
        exact RecordedPort.accepted_eq_iff whole within few
  | @refused sent byte rest _ _ split later =>
      refine ⟨⟨lostEnds, within, ⟨byte :: rest, ?_⟩, by simp⟩, ?_, ?_, by simp⟩
      · rw [released, ← account, split]
        simp [List.filterMap_cons]
      · simp [lost, List.filterMap_cons]
      · simp [lost, List.filterMap_cons]
  | @failed sent byte rest fault _ _ split later =>
      refine ⟨⟨lostEnds, within, ⟨rest, ?_⟩, by simp⟩, ?_, ?_, by simp⟩
      · rw [released, ← account, split]
        simp
      · simp [lost]
      · simp [lost]

-----------------------------------------------------------------------------------------
-- A device that sends
-----------------------------------------------------------------------------------------

namespace Writing

/-- The device that has the packet of a write as its response. -/
def device (w : Writing P ε) (responder : R) : Device (RecordedPort P ε) R :=
  { link := w.link, responder, response := w.packet, isSending := true }

variable [Responder R] {responder : R}

theorem step_device_of_incomplete (responder : R) (incomplete : w.pushed.result ≠ .ok .complete)
    : (w.device responder).step.2 = (w.perform .push).device responder := by
  rw [Device.step_of_sending rfl]
  simp only [perform, pushed, device] at incomplete ⊢
  generalize (w.link.push w.packet).result = result at incomplete ⊢
  rcases result with failure | _ | _
  · rfl
  · rfl
  · exact absurd rfl incomplete

/-- Until it has sent the response a device pushes it, by induction on the polls. -/
theorem polled_device {polls : Nat}
    (sending : ∀ earlier < polls, ((w.device responder).polled earlier).step.1 ≠ .ok .sent)
    : w.Continues (List.replicate polls .push)
      ∧ (w.device responder).polled polls
        = (w.after (List.replicate polls .push)).device responder := by
  induction polls generalizing w with
  | zero => exact ⟨⟨List.not_mem_nil, fun _ member => absurd member List.not_mem_nil⟩, rfl⟩
  | succ polls ih =>
      have incomplete : w.pushed.result ≠ .ok .complete := by
        intro complete
        exact sending 0 (Nat.zero_lt_succ polls) ((Device.event_of_sending rfl).1.mpr complete)
      have next := step_device_of_incomplete responder incomplete
      have later : ∀ earlier < polls,
          (((w.perform .push).device responder).polled earlier).step.1 ≠ .ok .sent := by
        intro earlier before
        rw [← next]
        exact sending (earlier + 1) (Nat.succ_lt_succ before)
      obtain ⟨continues, same⟩ := ih later
      refine ⟨⟨?_, ?_⟩, ?_⟩
      · simp only [List.replicate_succ, results, List.mem_cons, not_or]
        exact ⟨incomplete.symm, continues.unfinished⟩
      · intro other member
        cases List.eq_of_mem_replicate member
      · rw [Device.polled, next]
        exact same

end Writing

-----------------------------------------------------------------------------------------
-- Bytes that fail
-----------------------------------------------------------------------------------------

variable [Responder R]

/-- A byte on which the port fails is lost from the frame. However often a write is gone on with,
the bytes that are gone are those of the frame in order; a frame that is complete has arrived as it
is exactly if the port did not fail, and a frame whose closing delimiter was lost is written again.
The same holds of the response of a device that is polled again. -/
theorem Writing.failed_bytes_are_lost (link : Link P) {packet : Packet} {command : UInt8}
    (sound : packet.IsSound) (held : packet.command? = some command)
    : ∃ start : Writing P ε, Writing.start link packet = .ok start
        ∧ (∀ acts : List (Writing.Act P), start.Continues acts
          → let before := start.after acts
            RecordedPort.LossyOffer (wire packet.body) before.link.port before.pushed.link.port
              (before.pushed.result = .ok .complete)
              (∃ fault, before.pushed.result = .error (.port fault)))
        ∧ ∀ (responder : R) (polls : Nat),
          (∀ earlier < polls, ((start.device responder).polled earlier).step.1 ≠ .ok .sent)
          → let before := (start.device responder).polled polls
            before.isSending = true
            ∧ RecordedPort.LossyOffer (wire packet.body) before.link.port before.step.2.link.port
                (before.step.1 = .ok .sent) (∃ fault, before.step.1 = .error (.port fault)) := by
  have nonempty := sound.body_ne_nil held
  obtain ⟨start, started, _, fresh⟩ :=
    @Writing.start_of_command P ε link packet sound.size_le nonempty
  have offers : ∀ acts : List (Writing.Act P), start.Continues acts
      → RecordedPort.LossyOffer (wire packet.body) (start.after acts).link.port
          (start.after acts).pushed.link.port ((start.after acts).pushed.result = .ok .complete)
          (∃ fault, (start.after acts).pushed.result = .error (.port fault)) := by
    intro acts continues
    obtain ⟨lostEnds, owed, underway⟩ := fresh.after continues
    exact underway.lossyOffer
  refine ⟨start, started, offers, ?_⟩
  intro responder polls sending before
  obtain ⟨continues, same⟩ := Writing.polled_device sending
  simp only [before, same]
  obtain ⟨sent, failed⟩ := @Device.event_of_sending _ R ε _ _
    ((start.after (List.replicate polls .push)).device responder) rfl
  refine ⟨rfl, ?_⟩
  rw [Device.step_of_sending rfl]
  simp only [sent, failed]
  exact offers _ continues

/-- The port fails on a byte that the emitter has just made, on one that it had refused before, and
on the closing delimiter; what arrives is a delimiter and then the frame, and the device thinks it
sent one. -/
theorem Writing.failed_bytes_are_lost_in_each_place
    : let link : Link (ScheduledPort Unit) :=
        { port :=
            { writes := [.ok true, .error (), .ok false, .error (), .error ()] }
          incoming := .ofStorage [0, 0] }
      let packet : Packet := { storage := [Command.ping], size := 1 }
      packet.IsSound ∧ packet.command? = some Command.ping
      ∧ ∃ start : Writing (ScheduledPort Unit) Unit, Writing.start link packet = .ok start
        ∧ let device := (start.device Service.ping).polled 4
          start.Continues (List.replicate 4 .push)
          ∧ (∀ earlier < 4, ((start.device Service.ping).polled earlier).step.1 ≠ .ok .sent)
          ∧ device.isSending = true ∧ device.step.1 = .ok .sent
          ∧ device.step.2.link.port.lost = [0x01, 0x07, 0xC0]
          ∧ device.step.2.link.port.accepted = 0xC0 :: wire packet.body
          ∧ device.step.2.link.port.accepted ≠ wire packet.body := by
  intro link packet
  have sound : packet.IsSound := ⟨by decide, by decide⟩
  obtain ⟨start, started, _, polled⟩ :=
    @failed_bytes_are_lost (ScheduledPort Unit) Service Unit _ _ link packet Command.ping sound rfl
  let concrete : Writing (ScheduledPort Unit) Unit :=
    { link := { port := { port := link.port }, incoming := link.incoming }, packet }
  obtain rfl : concrete = start := Except.ok.inj started
  have silent : ∀ earlier < 4,
      ((concrete.device Service.ping).polled earlier).step.1 ≠ .ok .sent := by
    decide +kernel
  have continues : concrete.Continues (List.replicate 4 .push) := (polled_device silent).1
  obtain ⟨sending, offer⟩ := polled Service.ping 4 silent
  have sent : ((concrete.device Service.ping).polled 4).step.1 = .ok .sent := by decide +kernel
  have lost : ((concrete.device Service.ping).polled 4).step.2.link.port.lost
      = [0x01, 0x07, 0xC0] := by
    decide +kernel
  refine ⟨sound, rfl, concrete, started, continues, silent, sending, sent, lost, by decide +kernel,
    ?_⟩
  intro same
  have kept := (offer.intact sent (by decide +kernel)).mp same
  cases lost.symm.trans kept

end PacketBus
