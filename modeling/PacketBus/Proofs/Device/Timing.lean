import PacketBus.Proofs.Device.Conversation
import PacketBus.Proofs.Device.Steps
import PacketBus.Proofs.Link.Reading
import PacketBus.Proofs.Link.Refusals
import PacketBus.Proofs.Port.Schedule

/-! A device and the conversation that it leads.
Whatever the port answers and whenever the device is polled, it says what the bytes it has read lead
to, and has no more than the rest of one response still to say.
-/

namespace PacketBus

open PacketBus.Frame (wire)

variable {P R ε : Type}

namespace Device

-----------------------------------------------------------------------------------------
-- What a device says
-----------------------------------------------------------------------------------------

/-- A device has sent what its conversation has sent so far, but for the rest of one response. -/
inductive Reports (device : Device (RecordedPort P ε) R) (c : Conversation R) : Prop
  | silent (idle : device.isSending = false) (account : device.link.port.accepted = c.sent)
    (response : device.response = c.response)
  | sending {owed} (busy : device.isSending = true)
    (writes : device.link.Writes device.response device.response.body owed)
    (account : device.link.port.accepted ++ owed = c.sent)
    (response : c.response = { device.response with emitter := .closed device.response.body })

/-- A device has heard and said what its conversation over the bytes it has read comes to. -/
structure Tracks [Responder R] (device : Device (RecordedPort P ε) R) (incoming : Packet)
    (c : Conversation R) : Prop where
  heard : device.link.incoming = incoming.fed device.link.port.delivered
  responder : device.responder = (c.upTo incoming device.link.port.delivered).responder
  reports : device.Reports (c.upTo incoming device.link.port.delivered)

variable [Responder R] [Port P ε] {device : Device (RecordedPort P ε) R} {c : Conversation R}
  {incoming : Packet}

omit [Port P ε] in
/-- A request is answered as in the conversation, by whether its answer is to be sent. -/
theorem Reports.serve [LawfulResponder R] (idle : device.isSending = false)
    (account : device.link.port.accepted = c.sent) (response : device.response = c.response)
    (responder : device.responder = c.responder)
    : (@Device.serve _ R ε _ device).2.link.incoming = device.link.incoming
      ∧ (@Device.serve _ R ε _ device).2.responder = (c.answer device.link.incoming).responder
      ∧ (@Device.serve _ R ε _ device).2.Reports (c.answer device.link.incoming) := by
  rw [Conversation.answer, ← response, ← responder]
  rcases @serve_cases _ R ε _ _ device with ⟨sends, emitter, writes, served⟩ | ⟨declines, served⟩
  · rw [served, if_pos sends]
    refine ⟨rfl, rfl, .sending rfl writes ?_ rfl⟩
    exact congrArg (· ++ wire _) account
  · have unsent := Bool.eq_false_iff.mp declines
    rw [served, if_neg unsent]
    exact ⟨rfl, rfl, .silent idle account rfl⟩

/-- A device that sends goes on with its response and does nothing else, by what its push comes
to. -/
theorem Reports.push {owed : List UInt8} (busy : device.isSending = true)
    (writes : device.link.Writes device.response device.response.body owed)
    (account : device.link.port.accepted ++ owed = c.sent)
    (response : c.response = { device.response with emitter := .closed device.response.body })
    (kept : device.step.2.link.port.lost = device.link.port.lost)
    : device.step.2.link.incoming = device.link.incoming
      ∧ device.step.2.responder = device.responder
      ∧ device.step.2.link.port.delivered = device.link.port.delivered
      ∧ device.step.2.Reports c := by
  rw [step_of_sending busy] at kept ⊢
  obtain ⟨incoming, delivered, emitter, packed, outcome⟩ := writes.push_of_kept kept
  refine ⟨incoming, rfl, delivered, ?_⟩
  rcases outcome with ⟨complete, rfl, taken⟩ | ⟨unfinished, rest, later, taken⟩
  · refine .silent ?_ (taken.trans account) (packed.trans response.symm)
    simp only [complete]
  · have same : (device.link.push device.response).packet.body = device.response.body := by
      rw [packed]
      rfl
    refine .sending ?_ (same ▸ later) (taken.trans account) ?_
    · simp only [unfinished]
    · rw [response, same, packed]

/-- A device that reads takes what it has heard into its conversation, by whether the read completes
a request. -/
theorem Tracks.read [LawfulResponder R] (h : device.Tracks incoming c)
    (idle : device.isSending = false)
    (account : device.link.port.accepted = (c.upTo incoming device.link.port.delivered).sent)
    (response : device.response = (c.upTo incoming device.link.port.delivered).response)
    : device.step.2.Tracks incoming c := by
  obtain ⟨heard, responder, _⟩ := h
  obtain ⟨heard', completed, accepted⟩ := Link.receive_heard heard
  rcases received : device.link.receive with ⟨result, link⟩
  rw [received] at heard' completed accepted
  simp only at heard' completed accepted
  have talk : c.upTo incoming link.port.delivered
      = device.link.completes?.toList.foldl Conversation.answer
          (c.upTo incoming device.link.port.delivered) := by
    rw [Conversation.upTo, completed, List.foldl_append]
    rfl
  by_cases complete : result = .ok (some .complete)
  · subst complete
    rw [Link.completes?_of_complete received] at talk
    obtain ⟨same, responder', reports⟩ :=
      @Reports.serve P R ε _ { device with link } _ _ idle (accepted.trans account) response
        responder
    have port := @port_serve _ R ε _ { device with link }
    rw [step_of_complete idle received]
    refine ⟨?_, ?_, ?_⟩
    · rw [same, port]
      exact heard'
    · rw [responder', port, talk]
      rfl
    · rw [port, talk]
      exact reports
  · rw [Link.completes?_of_incomplete received complete] at talk
    rw [step_of_incomplete idle received complete]
    refine ⟨heard', ?_, .silent idle ?_ ?_⟩
    · rw [talk]
      exact responder
    · rw [talk]
      exact accepted.trans account
    · rw [talk]
      exact response

omit [Port P ε] in
/-- Whatever else happens to the port, only its calls matter. -/
theorem Tracks.of_calls (h : device.Tracks incoming c) {port : RecordedPort P ε}
    (calls : port.calls = device.link.port.calls)
    : ({ device with link := { device.link with port } } : Device (RecordedPort P ε) R).Tracks
        incoming c := by
  obtain ⟨inner, _⟩ := port
  subst calls
  obtain ⟨heard, responder, reports⟩ := h
  refine ⟨heard, responder, ?_⟩
  cases reports with
  | silent idle account response => exact .silent idle account response
  | sending busy writes account response =>
      exact .sending busy (writes.of_held_eq rfl) account response

theorem Tracks.step [LawfulResponder R] (h : device.Tracks incoming c)
    (kept : device.step.2.link.port.lost = device.link.port.lost)
    : device.step.2.Tracks incoming c := by
  cases h.reports with
  | silent idle account response => exact h.read idle account response
  | sending busy writes account response =>
      obtain ⟨heard, responder, _⟩ := h
      obtain ⟨heard', responder', delivered, reports⟩ :=
        Reports.push busy writes account response kept
      exact ⟨by rw [heard', heard, delivered], by rw [responder', responder, delivered],
        by rwa [delivered]⟩

-----------------------------------------------------------------------------------------
-- Any use of a device
-----------------------------------------------------------------------------------------

/-- What may happen to a device. -/
inductive Act (P : Type) where
  | poll
  /-- Steps until nothing is left to read or the port is full. -/
  | pollAll (patience : Nat)
  /-- Something happens to the port that is no call of it. -/
  | adjust (change : P → P)

/-- The device behind one act. -/
def perform (device : Device (RecordedPort P ε) R) : Act P → Device (RecordedPort P ε) R
  | .poll => device.step.2
  | .pollAll patience => (device.run patience).device
  | .adjust change =>
      { device with link := { device.link with port := device.link.port.adjust change } }

/-- The device behind a number of acts. -/
def after (device : Device (RecordedPort P ε) R) (acts : List (Act P))
    : Device (RecordedPort P ε) R :=
  acts.foldl perform device

/-- As long as no write failed, the device tracks its conversation. -/
def Follows (device : Device (RecordedPort P ε) R) (incoming : Packet) (c : Conversation R)
    : Prop :=
  device.link.port.lost = [] → device.Tracks incoming c

theorem Follows.step [LawfulResponder R] (h : device.Follows incoming c)
    : device.step.2.Follows incoming c := by
  intro faultless
  obtain ⟨more, grown⟩ := device.port_step RecordedPort.keeps_calls
  have earlier : device.link.port.lost = [] := by
    simp only [RecordedPort.lost, grown, List.filterMap_append, List.append_eq_nil_iff] at faultless
    exact faultless.1
  exact (h earlier).step (faultless.trans earlier.symm)

/-- A run is a number of steps, by induction on the patience. -/
theorem Follows.run [LawfulResponder R] (h : device.Follows incoming c) (patience : Nat)
    : (device.run patience).device.Follows incoming c := by
  induction patience generalizing device with
  | zero => exact h
  | succ patience ih =>
      have next := h.step
      simp only [Device.run]
      split
      · next stepped => rwa [stepped] at next
      · next stepped => rwa [stepped] at next
      · next stepped => rwa [stepped] at next
      · next stepped =>
          rw [stepped] at next
          exact ih next

theorem Follows.perform [LawfulResponder R] (h : device.Follows incoming c) (act : Act P)
    : (device.perform act).Follows incoming c := by
  cases act with
  | poll => exact h.step
  | pollAll patience => exact h.run patience
  | adjust change =>
      intro faultless
      exact (h faultless).of_calls rfl

/-- By induction on the acts. -/
theorem Follows.after [LawfulResponder R] (h : device.Follows incoming c) (acts : List (Act P))
    : (device.after acts).Follows incoming c := by
  induction acts generalizing device with
  | nil => exact h
  | cons act rest ih => exact ih (h.perform act)

omit [Port P ε] in
theorem tracks_onLink (port : P) (storage responses : List UInt8) (settings : LinkSettings)
    (responder : R)
    : (onLink (@Link.recorded P ε (.onPort port storage settings)) responder responses).Tracks
        (.ofStorage storage) { responder, response := .ofStorage responses } :=
  ⟨rfl, rfl, .silent rfl rfl rfl⟩

/-- What a device says does not depend on timing. However it is polled and whatever the port
answers, short of a failed write, the port has taken the beginning of what the conversation over the
input comes to, and all of it once the input is read and nothing is left to send; and the responder
has been asked exactly what the input read so far asks. -/
theorem transcript_independent_of_timing [LawfulResponder R] (port : P)
    (storage responses : List UInt8) (settings : LinkSettings) (responder : R)
    (acts : List (Act P)) (input : List UInt8)
    : let reference :=
        Conversation.upTo { responder, response := .ofStorage responses } (.ofStorage storage)
      let device :=
        (onLink (@Link.recorded P ε (.onPort port storage settings)) responder responses).after acts
      device.link.port.lost = [] → device.link.port.delivered <+: input
      → device.link.port.accepted <+: (reference input).sent
        ∧ (device.link.port.delivered = input → device.isSending = false
            → device.link.port.accepted = (reference input).sent)
        ∧ device.responder = (reference device.link.port.delivered).responder := by
  intro reference device faultless part
  have follows : device.Follows (.ofStorage storage)
      { responder, response := .ofStorage responses } :=
    Follows.after (fun _ => tracks_onLink port storage responses settings responder) acts
  obtain ⟨_, same, reports⟩ := follows faultless
  have sent : (reference device.link.port.delivered).sent <+: (reference input).sent :=
    Conversation.sent_upTo_mono _ _ part
  refine ⟨?_, ?_, same⟩
  · cases reports with
    | silent idle account response =>
        rw [account]
        exact sent
    | sending busy writes account response => exact List.IsPrefix.trans ⟨_, account⟩ sent
  · intro all idle
    cases reports with
    | silent idle' account response => rw [account, all]
    | sending busy writes account response => cases busy.symm.trans idle

/-- A corrupt frame and a good one come in two pieces, with gaps and a fault between their bytes,
and the port refuses two bytes of the response. -/
theorem transcript_independent_of_timing_with_gaps
    : let input := [0xC0, 0x02, 0xAA, 0x00, 0xC0, 0xC0, 0x02, 0xAA, 0x75, 0xC0]
      let port : ScheduledPort Unit :=
        { reads := [.ok none, .ok (some 0xC0), .error (), .ok (some 0x02), .ok (some 0xAA)]
          writes := [.ok true, .ok false, .ok false] }
      let later : List (Except Unit (Option UInt8)) :=
        [.ok (some 0x00), .ok (some 0xC0), .ok (some 0xC0), .ok (some 0x02), .ok none,
          .ok (some 0xAA), .ok (some 0x75), .ok (some 0xC0)]
      let acts : List (Act (ScheduledPort Unit)) :=
        [.poll, .pollAll 9, .poll, .poll,
          .adjust fun port => { port with reads := port.reads ++ later },
          .pollAll 9, .pollAll 9, .poll, .pollAll 9]
      let device :=
        (onLink (@Link.recorded (ScheduledPort Unit) Unit (.onPort port [0, 0, 0])) Service.echo
          [0, 0]).after acts
      device.link.port.lost = [] ∧ device.link.port.delivered = input ∧ device.isSending = false
      ∧ device.link.port.accepted = wire [0x02, 0xAA]
      ∧ (Conversation.upTo { responder := Service.echo, response := .ofStorage [0, 0] }
          (.ofStorage [0, 0, 0]) input).sent = wire [0x02, 0xAA] := by
  intro input port later acts device
  obtain ⟨_, whole, _⟩ :=
    transcript_independent_of_timing port [0, 0, 0] [0, 0] {} Service.echo acts input
      (by decide +kernel) (by decide +kernel)
  have sent := whole (by decide +kernel) (by decide +kernel)
  refine ⟨by decide +kernel, by decide +kernel, by decide +kernel, by decide +kernel, ?_⟩
  rw [← sent]
  decide +kernel

end Device

end PacketBus
