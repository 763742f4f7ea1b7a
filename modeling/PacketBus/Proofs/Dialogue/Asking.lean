import PacketBus.Proofs.Dialogue.Echoes
import PacketBus.Proofs.Dialogue.Line
import PacketBus.Proofs.Exchange.Steps

/-! A host that asks for an echo.
An exchange sends the frame of its request once for each attempt, and hears what comes until a
packet is complete.
-/

namespace PacketBus

open PacketBus.Frame (wire)

/-- A packet between frames has none to give up. -/
theorem Packet.abandonFrame_of_whole {p : Packet} (whole : p.isMidFrame = false)
    : p.abandonFrame = p := by
  have between : p.receiver = .between := by simpa [isMidFrame] using whole
  rw [abandonFrame, ← between]

namespace Exchange

variable {P : Type} [Port P Fault] [Clock P]

-----------------------------------------------------------------------------------------
-- What an exchange has sent and heard
-----------------------------------------------------------------------------------------

omit [Port P Fault] [Clock P] in
/-- The port has taken so many bytes of what an exchange sends, but for the rest of one frame. -/
inductive Sends (x : Exchange (RecordedPort P Fault)) (frames : List UInt8) : Prop
  | sending {owed} (busy : x.stage = .sending)
    (writes : x.host.link.Writes x.request x.request.body owed)
    (account : x.host.link.port.accepted ++ owed = frames)
  | sent (done : x.stage ≠ .sending) (account : x.host.link.port.accepted = frames)

omit [Port P Fault] [Clock P] in
/-- An exchange asks for the echo of `payload`, after attempts with the payloads `earlier` that have
brought the packets `answers`. -/
structure Asks (x : Exchange (RecordedPort P Fault)) (incoming : Packet)
    (earlier : List (List UInt8)) (payload : List UInt8) (answers : List Packet) : Prop where
  sized : x.request.size ≤ x.request.capacity
  body_eq : x.request.body = Command.echo :: payload
  sends : x.Sends (echoFrames (earlier ++ List.replicate x.attempt payload))
  heard : x.host.link.incoming = incoming.fed x.host.link.port.delivered
  answers : Packet.completed (incoming.trace x.host.link.port.delivered)
    = answers ++ x.response?.toList

variable {x : Exchange (RecordedPort P Fault)} {incoming : Packet} {earlier : List (List UInt8)}
  {payload : List UInt8} {answers : List Packet}

omit [Port P Fault] [Clock P] in
theorem Asks.payload_eq (h : x.Asks incoming earlier payload answers)
    : x.request.payload = payload := by
  rw [Packet.payload, h.body_eq]
  rfl

omit [Port P Fault] [Clock P] in
theorem echoFrames_replicate_succ (earlier : List (List UInt8)) (count : Nat) (payload : List UInt8)
    : echoFrames (earlier ++ List.replicate (count + 1) payload)
      = echoFrames (earlier ++ List.replicate count payload) ++ wire (Command.echo :: payload) := by
  rw [List.replicate_succ', ← List.append_assoc, echoFrames_append]
  simp [echoFrames]

omit [Port P Fault] [Clock P] in
/-- One more frame is owed when the request is sent again. -/
theorem Asks.send (sized : x.request.size ≤ x.request.capacity)
    (body_eq : x.request.body = Command.echo :: payload)
    (account : x.host.link.port.accepted ++ wire (Command.echo :: payload)
      = echoFrames (earlier ++ List.replicate x.attempt payload))
    (heard : x.host.link.incoming = incoming.fed x.host.link.port.delivered)
    (received : Packet.completed (incoming.trace x.host.link.port.delivered) = answers)
    : x.send.Asks incoming earlier payload answers := by
  obtain ⟨emitter, prepared, writes⟩ :=
    x.host.link.prepare_of_command sized (by simp [body_eq])
  simp only [Exchange.send, prepared]
  refine ⟨sized, body_eq, .sending rfl writes ?_, heard, ?_⟩
  · rw [body_eq]
    exact account
  · simpa [response?] using received

/-- A push goes on with a frame, and the answer is awaited behind it. -/
theorem Asks.stepSending (h : x.Asks incoming earlier payload answers) (busy : x.stage = .sending)
    (whole : x.host.link.incoming.isMidFrame = false)
    (kept : x.stepSending.host.link.port.lost = x.host.link.port.lost)
    : x.stepSending.Asks incoming earlier payload answers := by
  obtain ⟨sized, body_eq, sends, heard, received⟩ := h
  cases sends with
  | sent done account => exact absurd busy done
  | sending _ writes account =>
      rw [port_stepSending] at kept
      obtain ⟨incoming', delivered, emitter, packed, outcome⟩ := writes.push_of_kept kept
      have silent : x.response? = none := by simp only [response?, busy]
      rw [silent, Option.toList_none, List.append_nil] at received
      rcases outcome with ⟨complete, _, taken⟩ | ⟨unfinished, rest, later, taken⟩
      · have resting : x.host.link.incoming.abandonFrame = x.host.link.incoming :=
          Packet.abandonFrame_of_whole whole
        simp only [Exchange.stepSending, complete, await, packed]
        refine ⟨sized, body_eq, .sent (by simp) (taken.trans account), ?_, ?_⟩
        · simpa [incoming', delivered, resting] using heard
        · simpa [response?, delivered] using received
      · simp only [Exchange.stepSending, unfinished, packed] at later ⊢
        refine ⟨sized, body_eq, .sending busy later (taken.trans account), ?_, ?_⟩
        · simpa [incoming', delivered] using heard
        · simpa [busy, response?, delivered] using received

/-- A read brings a byte of an answer, and the answer if it is the last one; and a deadline has the
request sent again. -/
theorem Asks.stepWaiting {deadline : Nat} (h : x.Asks incoming earlier payload answers)
    (waits : x.stage = .waiting deadline)
    : (x.stepWaiting deadline).Asks incoming earlier payload answers := by
  obtain ⟨host, request, attempt, stage, log⟩ := x
  obtain rfl : stage = .waiting deadline := waits
  obtain ⟨sized, body_eq, sends, heard, received⟩ := h
  cases sends with
  | sending busy writes account => cases busy
  | sent done account =>
      have received : Packet.completed (incoming.trace host.link.port.delivered) = answers := by
        simpa [response?] using received
      by_cases early : Clock.now host.link.port < deadline
      · obtain ⟨result, response, log', outcome, reads, stepped⟩ :=
          stepWaiting_of_early (x := ⟨host, request, attempt, .waiting deadline, log⟩) early
        obtain ⟨heard', completed, accepted⟩ := Link.receive_heard heard
        have account' := accepted.trans account
        rw [received] at completed
        rw [outcome] at heard' completed account'
        rw [stepped]
        cases reads with
        | complete _ _ _ =>
            rw [Link.completes?_of_complete outcome] at completed
            exact ⟨sized, body_eq, .sent (by simp) account', heard', completed⟩
        | failed _ | nothing _ | unfinished _ _ | lost _ _ _ =>
            rw [Link.completes?_of_incomplete outcome (by simp)] at completed
            exact ⟨sized, body_eq, .sent (by simp [fail]) account', heard', completed⟩
      · rw [Exchange.stepWaiting, if_neg early]
        unfold retry
        split
        · refine Asks.send sized body_eq ?_ heard received
          exact (congrArg (· ++ wire (Command.echo :: payload)) account).trans
            (echoFrames_replicate_succ earlier attempt payload).symm
        · exact ⟨sized, body_eq, .sent (by simp [fail]) account, heard,
            received.trans (List.append_nil _).symm⟩

/-- A step keeps to what was asked, by where the exchange stands. -/
theorem Asks.step (h : x.Asks incoming earlier payload answers)
    (whole : x.stage = .sending → x.host.link.incoming.isMidFrame = false)
    (kept : x.step.host.link.port.lost = x.host.link.port.lost)
    : x.step.Asks incoming earlier payload answers := by
  unfold Exchange.step at kept ⊢
  split at kept
  · next busy => exact h.stepSending busy (whole busy) kept
  · next waits => exact h.stepWaiting waits
  · exact h
  · exact h

omit [Port P Fault] [Clock P] in
/-- Whatever else happens to the port, only its calls matter. -/
theorem Asks.of_calls (h : x.Asks incoming earlier payload answers) {port : RecordedPort P Fault}
    (calls : port.calls = x.host.link.port.calls)
    : Asks { x with host := { x.host with link := { x.host.link with port } } } incoming earlier
        payload answers := by
  obtain ⟨inner, _⟩ := port
  subst calls
  obtain ⟨sized, body_eq, sends, heard, received⟩ := h
  refine ⟨sized, body_eq, ?_, heard, received⟩
  cases sends with
  | sending busy writes account => exact .sending busy (writes.of_held_eq rfl) account
  | sent done account => exact .sent done account

end Exchange

end PacketBus
