import PacketBus.Host.Exchange
import PacketBus.Proofs.Link.Reading
import PacketBus.Proofs.Link.Writing

/-! What one step of an exchange comes to.
A step is one push of the request, one read of the link, or, once the deadline is reached, the
beginning of the next attempt, which asks nothing of the port.
-/

namespace PacketBus

open PacketBus.Frame (wire)

instance {P ε : Type} [Clock P] : Clock (RecordedPort P ε) where
  now p := Clock.now p.port
  pause p := p.adjust Clock.pause

namespace Exchange

variable {P : Type}

/-- The packet that an exchange was answered with. -/
def response? (x : Exchange P) : Option Packet :=
  match x.stage with
  | .answered => some x.host.link.incoming
  | .sending | .waiting _ | .failed _ => none

theorem result?_eq_ok_iff (x : Exchange P) (response : Packet)
    : x.result? = some (.ok response) ↔ x.response? = some response := by
  cases staged : x.stage with
  | answered => simp [result?, response?, staged]
  | sending | waiting _ | failed _ => simp [result?, response?, staged]

-----------------------------------------------------------------------------------------
-- The calls that a step makes
-----------------------------------------------------------------------------------------

theorem port_send (x : Exchange P)
    : x.send.host.link.port = x.host.link.port := by
  simp only [send, Link.prepare]
  generalize x.request.rewind = rewound
  cases rewound with
  | error failure => rfl
  | ok request => rfl

theorem port_retry (x : Exchange P)
    : x.retry.host.link.port = x.host.link.port := by
  unfold retry
  split
  · exact port_send _
  · rfl

variable [Port P Fault] [Clock P]

theorem port_stepSending (x : Exchange P)
    : x.stepSending.host.link.port = (x.host.link.push x.request).link.port := by
  simp only [stepSending]
  split
  · rfl
  · rfl
  · rfl

-----------------------------------------------------------------------------------------
-- What a step comes to
-----------------------------------------------------------------------------------------

omit [Port P Fault] [Clock P] in
/-- An attempt to send a request with a command owes its whole frame, whatever the link held and
however far the request had been sent. -/
theorem send_of_command {x : Exchange P} (sized : x.request.size ≤ x.request.capacity)
    (command : x.request.body ≠ [])
    : ∃ (emitter : Emitter) (log : List Journal.Entry),
        let link := { x.host.link with held := none }
        let request := { x.request with emitter }
        link.Writes request x.request.body (wire x.request.body)
        ∧ x.send = { x with host := { x.host with link }, request, stage := .sending, log } := by
  obtain ⟨emitter, prepared, writes⟩ := x.host.link.prepare_of_command sized command
  refine ⟨emitter, x.log ++ x.host.logPacket "Send" x.request, writes, ?_⟩
  simp only [send, prepared]
  rfl

omit [Port P Fault] [Clock P] in
theorem stage_send {x : Exchange P} (sized : x.request.size ≤ x.request.capacity)
    (command : x.request.body ≠ [])
    : x.send.stage = .sending ∧ x.send.attempt = x.attempt := by
  obtain ⟨emitter, log, _, sent⟩ := send_of_command sized command
  rw [sent]
  exact ⟨rfl, rfl⟩

omit [Port P Fault] [Clock P] in
/-- A request without a command fails before anything is offered to the port. -/
theorem send_of_no_command {x : Exchange P} (nothing : x.request.bodySize = 0)
    : ∃ log : List Journal.Entry,
        x.send = { x with stage := .failed (.packet .tooShort), log } := by
  refine ⟨x.log ++ x.host.logPacket "Send" x.request, ?_⟩
  have refused : x.request.rewind = .error .tooShort := by simp [Packet.rewind, nothing]
  simp only [send, Link.prepare, refused]
  rfl

/-- A finished exchange stays as it is. -/
theorem step_of_finished {x : Exchange P} (finished : x.result?.isSome = true)
    : x.step = x := by
  cases staged : x.stage with
  | sending | waiting _ => simp [result?, staged] at finished
  | answered | failed _ => simp only [step, staged]

/-- A push of the request either completes its frame, so that the response is awaited from then on,
is stopped by a byte that the port refuses, or fails with the port. -/
theorem stepSending_of_writes {x : Exchange (RecordedPort P Fault)} {body owed : List UInt8}
    (writes : x.host.link.Writes x.request body owed)
    : ∃ (calls : List (Port.Call Fault)) (port : P) (held : Option WireByte) (emitter : Emitter)
        (result : Except (Link.Failure Fault) FrameStatus),
        let link :=
          { x.host.link with port := ⟨port, x.host.link.port.calls ++ calls⟩, held }
        let request := { x.request with emitter }
        let pushed := { x with host := { x.host with link }, request }
        Link.Ending body owed calls result link request
        ∧ x.stepSending
          = match result with
            | .ok .complete => pushed.await
            | .ok .unfinished => pushed
            | .error failure => pushed.fail (.ofLink failure) := by
  obtain ⟨calls, port, held, emitter, linked, packed, ending⟩ := writes.push
  refine ⟨calls, port, held, emitter, _, ending, ?_⟩
  rcases answered : (x.host.link.push x.request).result with failure | _ | _
  · simp only [stepSending, linked, packed, answered]
  · simp only [stepSending, linked, packed, answered]
  · simp only [stepSending, linked, packed, answered]

/-- Before the deadline a read may complete the response or fail with the port; whatever else it
brings, the exchange goes on to wait. -/
theorem stepWaiting_of_early {x : Exchange P} {deadline : Nat}
    (early : Clock.now x.host.link.port < deadline)
    : ∃ (result : Except (Link.Failure Fault) (Option FrameStatus)) (incoming : Packet)
        (log : List Journal.Entry),
        let port := (Port.read x.host.link.port).2
        let link := { x.host.link with port, incoming }
        let after := { x with host := { x.host with link } }
        x.host.link.receive = (result, link)
        ∧ x.host.link.Reads result incoming
        ∧ x.stepWaiting deadline
          = match result with
            | .ok (some .complete) => { after with stage := .answered, log }
            | .ok none =>
                let link := { link with port := Clock.pause port }
                { after with host := { x.host with link } }
            | .ok (some .unfinished) => after
            | .error (.packet _) => { after with log }
            | .error (.port fault) => after.fail (.transport fault) := by
  obtain ⟨result, incoming, received, reads⟩ := x.host.link.receive_reads
  simp only [stepWaiting, if_pos early, received]
  cases reads with
  | failed answered => exact ⟨_, _, [], rfl, .failed answered, rfl⟩
  | nothing answered => exact ⟨_, _, [], rfl, .nothing answered, rfl⟩
  | unfinished answered taken => exact ⟨_, _, [], rfl, .unfinished answered taken, rfl⟩
  | lost answered taken harmless =>
      exact ⟨_, _, _, rfl, .lost answered taken harmless, if_pos harmless⟩
  | complete answered taken long => exact ⟨_, _, _, rfl, .complete answered taken long, rfl⟩

/-- A step makes calls of the port, or lets time pass. -/
theorem port_step {Rel : P → P → Prop} (keeps : Port.Keeps Rel)
    (pause : ∀ port, Rel port (Clock.pause port)) (x : Exchange P)
    : Rel x.host.link.port x.step.host.link.port := by
  unfold step
  split
  · rw [port_stepSending]
    exact x.host.link.port_push keeps x.request
  · next deadline _ =>
      by_cases early : Clock.now x.host.link.port < deadline
      · obtain ⟨result, incoming, log, _, reads, stepped⟩ := stepWaiting_of_early early
        have read := keeps.read x.host.link.port
        rw [stepped]
        cases reads with
        | nothing _ => exact keeps.trans read (pause _)
        | failed _ | unfinished _ _ | lost _ _ _ | complete _ _ _ => exact read
      · rw [stepWaiting, if_neg early, port_retry]
        exact keeps.refl _
  · exact keeps.refl _
  · exact keeps.refl _

end Exchange

end PacketBus
