import PacketBus.Proofs.Server.Services
import PacketBus.Proofs.Stream.Resynchronization

/-! A session of an echo server over any port.
It says the answers to the requests it has read, one whole frame after the other, and ends with the
first fault of its port.
-/

namespace PacketBus.EchoServer

open PacketBus.Frame (wire)

/-- The requests in a stream of bytes: the packets that it completes, in order. -/
def requests (bytes : List UInt8) : List Packet :=
  Packet.completed ((Packet.fresh maxPacket).trace bytes)

/-- The frames that answer the requests in a stream of bytes, in order. -/
def replies (bytes : List UInt8) : List (List UInt8) :=
  (requests bytes).filterMap fun request => (answer? request).map wire

/-- What a session comes to that ends with a fault of its port. -/
def conclusion (fault : Fault) : Except Host.Failure Unit :=
  if endsSession fault then .ok () else .error (.transport fault)

namespace Session

variable {P : Type} [Port P Fault]

-----------------------------------------------------------------------------------------
-- One step
-----------------------------------------------------------------------------------------

/-- A session goes on with its device, and nothing but the log is changed beside it. -/
theorem step_of_event {s : Session P} {event : Device.Event} {device : Device P (Chain Service)}
    (serving : s.result? = none) (stepped : s.device.step = (.ok event, device))
    : ∃ log, s.step = { s with device, log } := by
  refine ⟨s.log ++ entries s.debug device event, ?_⟩
  simp [step, serving, stepped]

/-- A fault of the port ends a session. -/
theorem step_of_fault {s : Session P} {fault : Fault} {device : Device P (Chain Service)}
    (serving : s.result? = none) (stepped : s.device.step = (.error (.port fault), device))
    : ∃ log, s.step = { s with device, log, result? := some (conclusion fault) } := by
  simp only [step, serving, Option.isSome_none, Bool.false_eq_true, if_false, stepped, conclusion]
  split
  · exact ⟨_, rfl⟩
  · exact ⟨s.log, rfl⟩

-----------------------------------------------------------------------------------------
-- What a session says
-----------------------------------------------------------------------------------------

omit [Port P Fault] in
/-- A session has said the frames `replies`, but for the rest of the last one, and goes on unless a
call of its port has failed, which is the last one then. -/
inductive Speaks (s : Session (RecordedPort P Fault)) (replies : List (List UInt8)) : Prop
  | silent (serving : s.result? = none) (idle : s.device.isSending = false)
    (account : s.device.link.port.accepted = replies.flatten)
    (unfailed : s.device.link.port.calls.filterMap Port.Call.fault? = [])
  | speaking {earlier part owed} (serving : s.result? = none) (busy : s.device.isSending = true)
    (writes : s.device.link.Writes s.device.response s.device.response.body owed)
    (frame : part ++ owed = wire s.device.response.body)
    (split : replies = earlier ++ [part ++ owed])
    (account : s.device.link.port.accepted = earlier.flatten ++ part)
    (unfailed : s.device.link.port.calls.filterMap Port.Call.fault? = [])
  | readFailed {fault front} (ended : s.result? = some (conclusion fault))
    (calls : s.device.link.port.calls = front ++ [.read (.error fault)])
    (unfailed : front.filterMap Port.Call.fault? = [])
    (account : s.device.link.port.accepted = replies.flatten)
  | writeFailed {fault front earlier part byte rest} (ended : s.result? = some (conclusion fault))
    (calls : s.device.link.port.calls = front ++ [.write byte (.error fault)])
    (unfailed : front.filterMap Port.Call.fault? = [])
    (split : replies = earlier ++ [part ++ byte :: rest])
    (account : s.device.link.port.accepted = earlier.flatten ++ part)

omit [Port P Fault] in
/-- A session serves what it has read: it holds what a fresh packet holds behind those bytes, its
services are as they were, and it says the answers to what it has read. -/
structure Serves (s : Session (RecordedPort P Fault)) : Prop where
  heard
    : s.device.link.incoming = (Packet.fresh maxPacket).fed s.device.link.port.delivered
  responder : s.device.responder = services
  room : s.device.response.capacity = maxPacket
  speaks : s.Speaks (replies s.device.link.port.delivered)

variable {s : Session (RecordedPort P Fault)}

/-- A push goes on with the reply, by the ways a push ends. -/
theorem Serves.push {earlier : List (List UInt8)} {part owed : List UInt8} (h : s.Serves)
    (serving : s.result? = none) (busy : s.device.isSending = true)
    (writes : s.device.link.Writes s.device.response s.device.response.body owed)
    (frame : part ++ owed = wire s.device.response.body)
    (split : replies s.device.link.port.delivered = earlier ++ [part ++ owed])
    (account : s.device.link.port.accepted = earlier.flatten ++ part)
    (unfailed : s.device.link.port.calls.filterMap Port.Call.fault? = [])
    : s.step.Serves ∧ s.device.link.port.calls.length < s.step.device.link.port.calls.length := by
  obtain ⟨heard, responder, room, _⟩ := h
  obtain ⟨calls, port, held, emitter, result, ending, stepped⟩ := Device.step_of_writes busy writes
  let port' : RecordedPort P Fault := ⟨port, s.device.link.port.calls ++ calls⟩
  have longer : s.device.link.port.calls.length < port'.calls.length := by
    have some := List.length_pos_iff.mpr (ending.isWrite.2 writes.nonempty)
    simp only [port', List.length_append]
    omega
  have delivered : port'.delivered = s.device.link.port.delivered := by
    simp [port', RecordedPort.delivered, ending.delivered]
  rw [← delivered] at heard split
  simp only [RecordedPort.accepted] at account
  cases ending with
  | complete closed =>
      obtain ⟨log, next⟩ := step_of_event serving stepped
      rw [next]
      refine ⟨⟨heard, responder, room, .silent serving rfl ?_ ?_⟩, longer⟩
      · change port'.accepted = (replies port'.delivered).flatten
        simp [port', split, RecordedPort.accepted, account]
      · simp [unfailed]
  | @refused sent byte rest _ _ split' later =>
      obtain ⟨log, next⟩ := step_of_event serving stepped
      have goesOn : part ++ owed = part ++ sent ++ byte :: rest := by
        rw [split', List.append_assoc]
      rw [goesOn] at frame split
      rw [next]
      refine ⟨⟨heard, responder, room, .speaking serving busy later frame split ?_ ?_⟩, longer⟩
      · simp [RecordedPort.accepted, account, List.filterMap_cons]
      · simp [unfailed, List.filterMap_cons]
  | @failed sent byte rest fault _ _ split' later =>
      obtain ⟨log, next⟩ := step_of_fault serving stepped
      have goesOn : part ++ owed = part ++ sent ++ byte :: rest := by
        rw [split', List.append_assoc]
      have calls_eq := (List.append_assoc s.device.link.port.calls (Port.Call.accepts sent)
        [.write byte (.error fault)]).symm
      rw [goesOn] at split
      rw [next]
      refine ⟨⟨heard, responder, room, .writeFailed rfl calls_eq ?_ split ?_⟩, longer⟩
      · simp [unfailed]
      · simp [RecordedPort.accepted, account, List.filterMap_cons]

/-- A read takes the byte that it brings into account, and a request that it completes is answered
at once. -/
theorem Serves.read (h : s.Serves) (serving : s.result? = none) (idle : s.device.isSending = false)
    (account
      : s.device.link.port.accepted = (replies s.device.link.port.delivered).flatten)
    (unfailed : s.device.link.port.calls.filterMap Port.Call.fault? = [])
    : s.step.Serves ∧ s.device.link.port.calls.length < s.step.device.link.port.calls.length := by
  obtain ⟨heard, responder, room, _⟩ := h
  obtain ⟨heard', completed, accepted⟩ := Link.receive_heard heard
  have calls : s.device.link.receive.2.port.calls
      = s.device.link.port.calls ++ [.read (Port.read s.device.link.port).1] := by
    obtain ⟨incoming, received⟩ := s.device.link.receive_snd
    rw [received]
    rfl
  have longer : s.device.link.port.calls.length < s.device.link.receive.2.port.calls.length := by
    simp [calls]
  have unfailed' {byte? : Option UInt8} (read : (Port.read s.device.link.port).1 = .ok byte?)
      : s.device.link.receive.2.port.calls.filterMap Port.Call.fault? = [] := by
    simp [calls, read, unfailed, List.filterMap_cons]
  have grown : replies s.device.link.receive.2.port.delivered
      = replies s.device.link.port.delivered
        ++ (s.device.link.completes?.bind answer?).toList.map wire := by
    rw [replies, requests, completed, List.filterMap_append]
    cases s.device.link.completes? with
    | none => rfl
    | some request => cases asked : answer? request <;> simp [asked, replies, requests]
  have still (quiet : s.device.link.completes?.bind answer? = none)
      : s.device.link.receive.2.port.accepted
        = (replies s.device.link.receive.2.port.delivered).flatten := by
    rw [grown, quiet]
    simpa using accepted.trans account
  have fits : ∀ body, s.device.link.completes?.bind answer? = some body
      → body.length ≤ s.device.response.capacity := by
    intro body asked
    obtain ⟨request, completes, asked⟩ := Option.bind_eq_some_iff.mp asked
    have whole : request.capacity = maxPacket := by
      rw [← Link.incoming_of_completes? completes, heard', Packet.capacity_fed,
        Packet.capacity_fresh]
    have within := length_answer asked (by rw [whole]; decide)
    rwa [whole, ← room] at within
  have hears := hears_of_idle (ε := Fault) responder idle fits
  rcases stepped : s.device.step with ⟨result, after⟩
  rw [stepped] at hears
  cases hears with
  | failed read quiet =>
      obtain ⟨log, next⟩ := step_of_fault serving stepped
      rw [read] at calls
      have account' := still (by rw [quiet]; rfl)
      rw [next]
      exact ⟨⟨heard', responder, room, .readFailed rfl calls unfailed account'⟩, longer⟩
  | unasked read quiet same =>
      obtain ⟨log, next⟩ := step_of_event serving stepped
      have account' := still quiet
      rw [next]
      exact ⟨⟨heard', responder, same.trans room,
        .silent serving idle account' (unfailed' read)⟩, longer⟩
  | asked read asked writes same =>
      obtain ⟨log, next⟩ := step_of_event serving stepped
      obtain rfl := writes.body_eq
      rw [asked] at grown
      have account' := (accepted.trans account).trans (List.append_nil _).symm
      rw [next]
      exact ⟨⟨heard', responder, same.trans room,
        .speaking serving rfl writes (List.nil_append _) grown account' (unfailed' read)⟩, longer⟩

/-- A step keeps serving and makes a call of the port, as long as the session has not ended. -/
theorem Serves.step (h : s.Serves) (serving : s.result? = none)
    : s.step.Serves ∧ s.device.link.port.calls.length < s.step.device.link.port.calls.length := by
  cases h.speaks with
  | silent _ idle account unfailed => exact h.read serving idle account unfailed
  | speaking _ busy writes frame split account unfailed =>
      exact h.push serving busy writes frame split account unfailed
  | readFailed ended => cases ended.symm.trans serving
  | writeFailed ended => cases ended.symm.trans serving

/-- By induction on the patience. -/
theorem Serves.run (h : s.Serves) (patience : Nat)
    : (s.run patience).Serves
      ∧ ((s.run patience).result? = none
        → s.device.link.port.calls.length + patience
          ≤ (s.run patience).device.link.port.calls.length) := by
  induction patience generalizing s with
  | zero => exact ⟨h, fun _ => Nat.le_refl _⟩
  | succ patience ih =>
      simp only [Session.run]
      cases serving : s.result? with
      | some result =>
          simp only [Option.isSome_some, if_true]
          exact ⟨h, fun unended => by cases serving.symm.trans unended⟩
      | none =>
          obtain ⟨next, longer⟩ := h.step serving
          obtain ⟨later, grown⟩ := ih next
          simp only [Option.isSome_none, Bool.false_eq_true, if_false]
          refine ⟨later, fun unended => ?_⟩
          have := grown unended
          omega

omit [Port P Fault] in
theorem serves_start (port : P) (settings : LinkSettings) (knowsPeer : Bool)
    : (start ({ port } : RecordedPort P Fault) settings knowsPeer).Serves :=
  ⟨rfl, rfl, List.length_replicate, .silent rfl rfl rfl rfl⟩

end Session

end PacketBus.EchoServer
