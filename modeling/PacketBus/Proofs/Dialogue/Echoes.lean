import PacketBus.Proofs.Device.Conversation

/-! What an echo service answers to the frames of its requests.
It answers in their order, each request once, and passes over those that its response cannot hold.
-/

namespace PacketBus

open PacketBus.Frame (wire)

/-- The frames of echo messages, one behind the other. -/
def echoFrames (payloads : List (List UInt8)) : List UInt8 :=
  payloads.flatMap fun payload => wire (Command.echo :: payload)

theorem echoFrames_append (front back : List (List UInt8))
    : echoFrames (front ++ back) = echoFrames front ++ echoFrames back := by
  simp only [echoFrames, List.flatMap_append]

/-- The messages in the frames are received in their order, as those of any stream. -/
theorem Packet.IsBetweenFrames.completed_echoFrames {p : Packet} (h : p.IsBetweenFrames)
    {payloads : List (List UInt8)} (fits : ∀ payload ∈ payloads, payload.length + 2 ≤ p.capacity)
    : (completed (p.trace (echoFrames payloads))).map (fun q => (q.command?, q.payload))
      = payloads.map fun payload => (some Command.echo, payload) := by
  have received := h.completed_frames (payloads.map fun payload => (Command.echo, payload))
    (by simpa using fits)
  simpa [echoFrames, List.flatMap_map, Function.comp_def] using received

namespace Conversation

variable {c : Conversation Service}

/-- A response of so many bytes can hold the echo of a payload. -/
def echoes (capacity : Nat) (payload : List UInt8) : Bool :=
  payload.length + 1 ≤ capacity

/-- An echo request is answered with its payload, if the response can hold it. -/
theorem answer_echo {request : Packet} (service : c.responder = .echo)
    (asked : request.command? = some Command.echo)
    : (c.answer request).responder = .echo
      ∧ (c.answer request).response.capacity = c.response.capacity
      ∧ (c.answer request).sent
        = c.sent ++ echoFrames ([request.payload].filter (echoes c.response.capacity)) := by
  have known : request.command? = some Service.echo.command := asked
  by_cases room : request.payload.length + 1 ≤ c.response.capacity
  · obtain ⟨filled, built, body, sized, same⟩ :=
      c.response.clear.withMessage_of_room Command.echo room
    have answered : Responder.respond c.responder request c.response.clear
        = ⟨true, filled, .echo⟩ := by
      simp only [Responder.respond, service, known, if_true, Service.command, Service.reply, built,
        Answer.ofBuilt]
    have sends : (true && !filled.isEmpty) = true := by
      cases empty : filled.isEmpty with
      | false => rfl
      | true =>
          have nothing : filled.size = 0 := by simpa [Packet.isEmpty] using empty
          simp [Packet.body, Packet.bodySize, nothing] at body
    have held : echoes c.response.capacity request.payload = true := by simpa [echoes] using room
    simp only [answer, answered, if_pos sends, body]
    refine ⟨trivial, same, ?_⟩
    simp [held, echoFrames]
  · have refused : c.response.clear.withMessage Command.echo request.payload = .error .noRoom :=
      Packet.withMessage_of_small Command.echo (Nat.lt_of_not_le room)
    have answered : Responder.respond c.responder request c.response.clear
        = ⟨false, c.response.clear, .echo⟩ := by
      simp only [Responder.respond, service, known, if_true, Service.command, Service.reply,
        refused, Answer.ofBuilt]
    have passed : echoes c.response.capacity request.payload = false := by simpa [echoes] using room
    simp only [answer, answered, Bool.false_and]
    refine ⟨rfl, rfl, ?_⟩
    simp [passed, echoFrames]

/-- By induction on the payloads. -/
theorem foldl_answer_echo {requests : List Packet} {payloads : List (List UInt8)}
    (service : c.responder = .echo)
    (asked : requests.map (fun q => (q.command?, q.payload))
      = payloads.map fun payload => (some Command.echo, payload))
    : (requests.foldl answer c).sent
      = c.sent ++ echoFrames (payloads.filter (echoes c.response.capacity)) := by
  induction payloads generalizing requests c with
  | nil =>
      obtain rfl := List.map_eq_nil_iff.mp asked
      simp [echoFrames]
  | cons payload rest ih =>
      cases requests with
      | nil => cases asked
      | cons request later =>
          obtain ⟨first, asked'⟩ := List.cons.inj asked
          obtain ⟨command, rfl⟩ := Prod.mk.inj first
          obtain ⟨service', room, sent⟩ := answer_echo service command
          rw [List.foldl_cons, ih service' asked', room, sent, List.append_assoc,
            ← echoFrames_append, ← List.filter_append, List.singleton_append]

/-- The requests of a stream of frames are echoed in their order. -/
theorem sent_upTo_echoFrames {incoming : Packet} {payloads : List (List UInt8)}
    (service : c.responder = .echo) (ready : incoming.IsBetweenFrames)
    (fits : ∀ payload ∈ payloads, payload.length + 2 ≤ incoming.capacity)
    : (c.upTo incoming (echoFrames payloads)).sent
      = c.sent ++ echoFrames (payloads.filter (echoes c.response.capacity)) :=
  foldl_answer_echo service (ready.completed_echoFrames fits)

end Conversation

end PacketBus
