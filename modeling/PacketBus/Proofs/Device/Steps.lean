import PacketBus.Proofs.Device.Conversation
import PacketBus.Proofs.Device.Polling
import PacketBus.Proofs.Link.Reading
import PacketBus.Proofs.Link.Writing

/-! What one step of a device comes to.
A step of a device that sends is one push of the response, and any other step is one read, with the
request that it completes served at once.
-/

namespace PacketBus.Device

open PacketBus.Frame (wire)

variable {P R ε : Type}

variable [Responder R] [Port P ε] {device : Device P R}

theorem step_of_sending (busy : device.isSending = true)
    : device.step.2
      = { device with
          link := (device.link.push device.response).link
          response := (device.link.push device.response).packet
          isSending :=
            match (device.link.push device.response).result with
            | .ok .complete => false
            | .ok .unfinished | .error _ => true } := by
  rw [step, if_pos busy]
  rcases answered : (device.link.push device.response).result with failure | _ | _
  · simp only [stepSending, answered, busy]
  · simp only [stepSending, answered, busy]
  · simp only [stepSending, answered]

/-- The response is sent with the push that completes it, and what fails in a step is its push. -/
theorem event_of_sending (busy : device.isSending = true)
    : (device.step.1 = .ok .sent ↔ (device.link.push device.response).result = .ok .complete)
      ∧ ∀ failure, device.step.1 = .error failure
          ↔ (device.link.push device.response).result = .error failure := by
  simp only [step, busy, if_true, stepSending]
  rcases (device.link.push device.response).result with failure | _ | _
  · simp
  · simp
  · simp

/-- What a step of a device that sends comes to, by what the push of its response comes to. -/
theorem step_of_push (busy : device.isSending = true)
    : let pushed := device.link.push device.response
      let after := { device with link := pushed.link, response := pushed.packet }
      device.step
      = match pushed.result with
        | .ok .complete => (.ok .sent, { after with isSending := false })
        | .ok .unfinished => (.ok .blocked, after)
        | .error failure => (.error failure, after) := by
  rw [step, if_pos busy]
  rfl

/-- A push of the response either completes it, is stopped by a byte that the port refuses, or fails
with the port; the response stays owed in the last two cases. -/
theorem step_of_writes {device : Device (RecordedPort P ε) R} {owed : List UInt8}
    (busy : device.isSending = true)
    (writes : device.link.Writes device.response device.response.body owed)
    : ∃ (calls : List (Port.Call ε)) (port : P) (held : Option WireByte) (emitter : Emitter)
        (result : Except (Link.Failure ε) FrameStatus),
        let link := { device.link with port := ⟨port, device.link.port.calls ++ calls⟩, held }
        let response := { device.response with emitter }
        Link.Ending device.response.body owed calls result link response
        ∧ device.step
          = match result with
            | .ok .complete => (.ok .sent, { device with link, response, isSending := false })
            | .ok .unfinished => (.ok .blocked, { device with link, response })
            | .error failure => (.error failure, { device with link, response }) := by
  obtain ⟨calls, port, held, emitter, linked, packed, ending⟩ := writes.push
  refine ⟨calls, port, held, emitter, _, ending, ?_⟩
  rw [step_of_push busy, linked, packed]

variable {result : Except (Link.Failure ε) (Option FrameStatus)} {link : Link P}

/-- What a step comes to that sends nothing: a lost frame is an event of it, and only a fault of the
port an error. -/
theorem step_of_idle (idle : device.isSending = false)
    : let after := { device with link := device.link.receive.2 }
      device.step
      = match device.link.receive.1 with
        | .ok none => (.ok .idle, after)
        | .ok (some .unfinished) => (.ok .reading, after)
        | .ok (some .complete) => after.serve
        | .error (.packet e) => (.ok (.lost e), after)
        | .error (.port fault) => (.error (.port fault), after) := by
  obtain ⟨result, incoming, received, reads⟩ := device.link.receive_reads
  simp only [step, idle, Bool.false_eq_true, if_false, stepReading, received]
  cases reads with
  | lost answered taken harmless => exact if_pos harmless
  | failed _ | nothing _ | unfinished _ _ | complete _ _ _ => rfl

theorem step_of_complete (idle : device.isSending = false)
    (received : device.link.receive = (.ok (some .complete), link))
    : device.step = ({ device with link } : Device P R).serve := by
  simp [step, idle, stepReading, received]

theorem step_of_incomplete (idle : device.isSending = false)
    (received : device.link.receive = (result, link)) (incomplete : result ≠ .ok (some .complete))
    : device.step.2 = { device with link } := by
  have quiet : device.request? = none := by
    simp only [request?, idle, received, Bool.false_eq_true, if_false]
    split
    · next complete => exact absurd (congrArg Prod.fst complete) incomplete
    · rfl
  rw [step_of_no_request idle quiet, received]

omit [Port P ε] in
/-- A request is answered if the responder accepted it and built anything, and then its whole frame
is owed. The packet received stays as it is. -/
theorem serve_cases [LawfulResponder R] (device : Device P R)
    : let command := device.link.incoming.command?.getD 0
      let answer := Responder.respond device.responder device.link.incoming device.response.clear
      let body := answer.response.body
      let after := { device with responder := answer.responder, response := answer.response }
      ((answer.accepted && !answer.response.isEmpty) = true
          ∧ ∃ emitter : Emitter,
            let link := { device.link with held := none }
            let response := { answer.response with emitter }
            link.Writes response body (wire body)
            ∧ @serve P R ε _ device
              = (.ok (.answered command), { after with link, response, isSending := true }))
        ∨ ((answer.accepted && !answer.response.isEmpty) = false
          ∧ @serve P R ε _ device = (.ok (.unanswered command), after)) := by
  have sound := LawfulResponder.isSound device.responder device.link.incoming
    (Packet.IsSound.clear device.response)
  simp only [serve]
  generalize Responder.respond device.responder device.link.incoming device.response.clear
    = answer at sound ⊢
  by_cases sends : (answer.accepted && !answer.response.isEmpty) = true
  · have nonempty : answer.response.body ≠ [] := by
      rw [ne_eq, sound.body_eq_nil_iff]
      intro empty
      simp [Packet.isEmpty, empty] at sends
    obtain ⟨emitter, prepared, writes⟩ := device.link.prepare_of_command sound.size_le nonempty
    refine .inl ⟨sends, emitter, writes, ?_⟩
    rw [if_pos sends, prepared]
  · refine .inr ⟨Bool.eq_false_iff.mpr sends, ?_⟩
    rw [if_neg sends]

omit [Port P ε] in
/-- A responder is no concern of the port. -/
theorem port_serve (device : Device P R)
    : (@serve P R ε _ device).2.link.port = device.link.port := by
  simp only [serve, Link.prepare]
  split
  · generalize (Responder.respond device.responder _ _).response.rewind = rewound
    cases rewound with
    | error failure => rfl
    | ok response => rfl
  · rfl

/-- A step that sends nothing reads once. -/
theorem port_step_of_idle (idle : device.isSending = false)
    : device.step.2.link.port = (Port.read device.link.port).2 := by
  obtain ⟨incoming, same⟩ := device.link.receive_snd
  rcases received : device.link.receive with ⟨result, link⟩
  obtain rfl : link = _ := (congrArg Prod.snd received).symm.trans same
  by_cases complete : result = .ok (some .complete)
  · subst complete
    rw [step_of_complete idle received, port_serve]
  · rw [step_of_incomplete idle received complete]

/-- A step makes calls of the port and nothing else of it. -/
theorem port_step {Rel : P → P → Prop} (keeps : Port.Keeps Rel) (device : Device P R)
    : Rel device.link.port device.step.2.link.port := by
  cases sending : device.isSending with
  | false =>
      rw [port_step_of_idle sending]
      exact keeps.read device.link.port
  | true =>
      rw [step_of_sending sending]
      exact device.link.port_push keeps device.response

end PacketBus.Device
