import PacketBus.EchoServer
import PacketBus.Proofs.Device.Steps

/-! What the services of an echo server answer.
A ping is answered by an empty ping and an echo by its own message, which fits whatever response is
as large as the packet that holds the request; any other request is left unanswered.
-/

namespace PacketBus.EchoServer

open PacketBus.Frame (wire)

/-- The message that answers a request, if one does. -/
def answer? (request : Packet) : Option (List UInt8) :=
  if request.command? = some Command.ping then some [Command.ping]
  else if request.command? = some Command.echo then some (Command.echo :: request.payload)
  else none

theorem answer_ne_nil {request : Packet} {body : List UInt8} (asked : answer? request = some body)
    : body ≠ [] := by
  unfold answer? at asked
  split at asked
  · cases asked
    exact List.cons_ne_nil _ _
  · split at asked
    · cases asked
      exact List.cons_ne_nil _ _
    · cases asked

/-- An answer fits where its request fits. -/
theorem length_answer {request : Packet} {body : List UInt8} (asked : answer? request = some body)
    (some : 0 < request.capacity)
    : body.length ≤ request.capacity := by
  have within : request.body.length ≤ request.capacity := List.length_take_le' _ _
  unfold answer? at asked
  split at asked
  · cases asked
    exact some
  · split at asked
    · cases asked
      simp only [Packet.payload, List.length_cons, List.length_drop]
      omega
    · cases asked

/-- A service answers its command with what it replies, if the response can hold that. -/
theorem respond_of_command (service : Service) {request response : Packet}
    (asked : request.command? = some service.command)
    (room : (service.reply request).length + 1 ≤ response.capacity)
    : ∃ built : Packet,
        Responder.respond service request response = ⟨true, built, service⟩
        ∧ built.body = service.command :: service.reply request
        ∧ built.size ≤ built.capacity ∧ built.capacity = response.capacity := by
  obtain ⟨built, filled, body, sized, same⟩ := response.withMessage_of_room service.command room
  refine ⟨built, ?_, body, sized, same⟩
  simp only [Responder.respond, asked, if_true, filled, Answer.ofBuilt]

/-- The services build the answer to a request, if the response can hold it; by the service that
knows the command. -/
theorem respond_of_answer {request response : Packet} {body : List UInt8}
    (asked : answer? request = some body) (room : body.length ≤ response.capacity)
    : ∃ built : Packet,
        Responder.respond services request response = ⟨true, built, services⟩
        ∧ built.body = body ∧ built.size ≤ built.capacity
        ∧ built.capacity = response.capacity := by
  unfold answer? at asked
  split at asked
  · next isPing =>
      cases asked
      obtain ⟨built, answered, body, sized, same⟩ := respond_of_command .ping isPing room
      refine ⟨built, ?_, body, sized, same⟩
      change Chain.respond request services response = _
      simp only [services, Chain.respond, answered, if_true]
  · next noPing =>
      split at asked
      · next isEcho =>
          cases asked
          have declined : Responder.respond Service.ping request response
              = ⟨false, response, .ping⟩ := if_neg noPing
          obtain ⟨built, answered, body, sized, same⟩ := respond_of_command .echo isEcho room
          refine ⟨built, ?_, body, sized, same⟩
          change Chain.respond request services response = _
          simp only [services, Chain.respond, declined, answered, Bool.false_eq_true, if_false]
      · cases asked

/-- The services leave the response to any other request as it is. -/
theorem respond_of_no_answer {request : Packet} (unasked : answer? request = none)
    (response : Packet)
    : Responder.respond services request response = ⟨false, response, services⟩ := by
  unfold answer? at unasked
  split at unasked
  · cases unasked
  · next noPing =>
      split at unasked
      · cases unasked
      · next noEcho =>
          have declined : Responder.respond Service.ping request response
              = ⟨false, response, .ping⟩ := if_neg noPing
          have declined' : Responder.respond Service.echo request response
              = ⟨false, response, .echo⟩ := if_neg noEcho
          change Chain.respond request services response = _
          simp only [services, Chain.respond, declined, declined', Bool.false_eq_true, if_false]

variable {P ε : Type} {device : Device P (Chain Service)}

/-- A device with these services owes the whole frame of an answer as soon as the request has
come. -/
theorem serve_of_answer {body : List UInt8} (responder : device.responder = services)
    (asked : answer? device.link.incoming = some body)
    (room : body.length ≤ device.response.capacity)
    : ∃ response : Packet,
        let link := { device.link with held := none }
        link.Writes response body (wire body)
        ∧ response.capacity = device.response.capacity
        ∧ @Device.serve P _ ε _ device
          = (.ok (.answered (device.link.incoming.command?.getD 0)),
              { device with link, response, isSending := true }) := by
  have room' : body.length ≤ device.response.clear.capacity := room
  obtain ⟨built, answered, rfl, sized, same⟩ := respond_of_answer asked room'
  have command := answer_ne_nil asked
  have nonempty : built.isEmpty = false := built.isEmpty_of_body command
  obtain ⟨emitter, prepared, writes⟩ := device.link.prepare_of_command sized command
  refine ⟨{ built with emitter }, writes, same, ?_⟩
  simp only [Device.serve, responder, answered, nonempty, prepared]
  rfl

theorem serve_of_no_answer (responder : device.responder = services)
    (unasked : answer? device.link.incoming = none)
    : @Device.serve P _ ε _ device
      = (.ok (.unanswered (device.link.incoming.command?.getD 0)),
          { device with response := device.response.clear }) := by
  simp only [Device.serve, responder, respond_of_no_answer unasked]
  rfl

variable [Port P ε]

/-- What a step comes to of a device with these services that sends nothing. -/
inductive Hears (device : Device P (Chain Service))
    : Except (Link.Failure ε) Device.Event → Device P (Chain Service) → Prop
  | failed {fault} (read : (Port.read device.link.port).1 = .error fault)
    (quiet : device.link.completes? = none)
    : Hears device (.error (.port fault)) { device with link := device.link.receive.2 }
  | unasked {byte? event response} (read : (Port.read device.link.port).1 = .ok byte?)
    (quiet : device.link.completes?.bind answer? = none)
    (same : response.capacity = device.response.capacity)
    : Hears device (.ok event) { device with link := device.link.receive.2, response }
  | asked {byte? event response body} (read : (Port.read device.link.port).1 = .ok byte?)
    (asked : device.link.completes?.bind answer? = some body)
    (writes : Link.Writes { device.link.receive.2 with held := none } response body (wire body))
    (same : response.capacity = device.response.capacity)
    : Hears device (.ok event)
        { device with
          link := { device.link.receive.2 with held := none }
          response
          isSending := true }

/-- A device with these services begins to send an answer with the read that completes its request,
if the response can hold it; by what the read brings. -/
theorem hears_of_idle (responder : device.responder = services) (idle : device.isSending = false)
    (room
      : ∀ body, device.link.completes?.bind answer? = some body
        → body.length ≤ device.response.capacity)
    : Hears device device.step.1 device.step.2 := by
  obtain ⟨result, incoming, received, reads⟩ := device.link.receive_reads
  have link : device.link.receive.2 = _ := congrArg Prod.snd received
  rw [Device.step_of_idle idle, received]
  cases reads with
  | failed read =>
      rw [← link]
      exact .failed read (Link.completes?_of_incomplete received nofun)
  | nothing read =>
      have quiet := Link.completes?_of_incomplete received nofun
      rw [← link]
      exact .unasked read (congrArg (Option.bind · answer?) quiet) rfl
  | unfinished read taken =>
      have quiet := Link.completes?_of_incomplete received nofun
      rw [← link]
      exact .unasked read (congrArg (Option.bind · answer?) quiet) rfl
  | lost read taken harmless =>
      have quiet := Link.completes?_of_incomplete received nofun
      rw [← link]
      exact .unasked read (congrArg (Option.bind · answer?) quiet) rfl
  | complete read taken long =>
      let heard := { device with link := device.link.receive.2 }
      have completed : device.link.completes? = some heard.link.incoming :=
        (Link.completes?_of_complete received).trans (congrArg (some ·.incoming) link.symm)
      rw [completed] at room
      rw [← link]
      change Hears device (@Device.serve P _ ε _ heard).1 (@Device.serve P _ ε _ heard).2
      cases asked : answer? heard.link.incoming with
      | none =>
          rw [@serve_of_no_answer P ε heard responder asked]
          exact .unasked read (completed ▸ asked) rfl
      | some body =>
          obtain ⟨response, writes, same, served⟩ :=
            @serve_of_answer P ε heard body responder asked (room body asked)
          rw [served]
          exact .asked read (completed ▸ asked) writes same

end PacketBus.EchoServer
