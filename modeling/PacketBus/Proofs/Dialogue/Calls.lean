import PacketBus.Proofs.Dialogue.Answers
import PacketBus.Proofs.Server.Services

/-! What a host can ask of an echo server, and what the server says to it.
A call and its answer are the same message, so the server repeats the frames that it hears, each as
soon as it has come whole, and says nothing before.
-/

namespace PacketBus

open PacketBus.Frame (wire)

namespace Visit

/-- What a host can ask of an echo server. -/
inductive Call where
  | ping
  | echo (request : EchoRequest)

namespace Call

def command : Call → UInt8
  | ping => Command.ping
  | echo _ => Command.echo

def payload : Call → List UInt8
  | ping => []
  | echo request => request.payload

/-- The packet that is sent for a call. -/
def request : Call → Packet
  | ping => Host.pingRequest
  | echo request => request.packet

/-- The message of a call, and of its answer. -/
def body (call : Call) : List UInt8 := call.command :: call.payload

/-- What the caller asks of a response: of one to a ping, that it is no other response. -/
def IsAnsweredBy : Call → Packet → Prop
  | ping, response => Host.checkPing response = .ok ()
  | echo request, response =>
      response.command? = some Command.echo ∧ response.payload = request.payload

/-- The frame of a call fits a packet of so many bytes, with the checksum. -/
def Fits (capacity : Nat) (call : Call) : Prop := call.payload.length + 2 ≤ capacity

theorem request_sized (call : Call)
    : call.request.size ≤ call.request.capacity := by
  cases call with
  | ping => exact Nat.le_refl _
  | echo request => exact request.sized

theorem request_body (call : Call)
    : call.request.body = call.body := by
  cases call with
  | ping => rfl
  | echo request => exact request.body_eq

theorem isAnsweredBy_of_message {call : Call} {response : Packet}
    (command : response.command? = some call.command) (payload : response.payload = call.payload)
    : call.IsAnsweredBy response := by
  cases call with
  | ping => exact if_pos command
  | echo request => exact ⟨command, payload⟩

end Call

/-- The frames of calls, one behind the other. -/
def frames (calls : List Call) : List UInt8 :=
  calls.flatMap fun call => wire call.body

theorem frames_append (front back : List Call)
    : frames (front ++ back) = frames front ++ frames back :=
  List.flatMap_append

theorem frames_singleton (call : Call)
    : frames [call] = wire call.body :=
  List.flatMap_singleton ..

/-- The first part of one run behind another ends in the one or in the other. -/
theorem prefix_append_cases {α : Type} {input front back : List α} (part : input <+: front ++ back)
    : (∃ rest, rest ≠ [] ∧ input ++ rest = front)
      ∨ ∃ rest, input = front ++ rest ∧ rest <+: back := by
  rcases List.prefix_or_prefix_of_prefix part (List.prefix_append front back) with
    ⟨rest, rfl⟩ | ⟨rest, rfl⟩
  · by_cases last : rest = []
    · subst last
      exact .inr ⟨[], by simp, List.nil_prefix⟩
    · exact .inl ⟨rest, last, rfl⟩
  · exact .inr ⟨rest, rfl, (List.prefix_append_right_inj front).mp part⟩

-----------------------------------------------------------------------------------------
-- Receiving the frames of calls
-----------------------------------------------------------------------------------------

/-- A packet that has just received the message of a call. -/
structure Call.Brings (call : Call) (p : Packet) : Prop where
  command : p.command? = some call.command
  payload : p.payload = call.payload

variable {p : Packet} {calls : List Call}

theorem ends_call (ready : p.IsBetweenFrames) {call : Call} (fits : call.Fits p.capacity)
    : ∃ q, Packet.Ends p (wire call.body) (.ok .complete) q ∧ q.receiver = .between
        ∧ q.capacity = p.capacity ∧ call.Brings q := by
  obtain ⟨q, ended, between, holds, verified⟩ := ready.ends_wire (List.cons_ne_nil _ _) fits
  obtain ⟨command, payload, _⟩ := holds.message verified
  exact ⟨q, ended, between, holds.room, command, payload⟩

/-- The frames of calls leave a packet between frames, by induction on the calls. -/
theorem fed_frames (between : p.receiver = .between) (fits : ∀ call ∈ calls, call.Fits p.capacity)
    : (p.fed (frames calls)).receiver = .between
      ∧ (p.fed (frames calls)).capacity = p.capacity := by
  induction calls generalizing p with
  | nil => exact ⟨between, rfl⟩
  | cons call rest ih =>
      obtain ⟨q, ended, between', room, _⟩ :=
        ends_call (.inl between) (fits call List.mem_cons_self)
      have later : ∀ call ∈ rest, call.Fits q.capacity := fun call member =>
        room ▸ fits call (List.mem_cons_of_mem _ member)
      have split : p.fed (frames (call :: rest)) = q.fed (frames rest) := by
        rw [frames, List.flatMap_cons, Packet.fed_append, ended.fed_eq, frames]
      rw [split, ← room]
      exact ih between' later

/-- Each byte of the frames of calls goes on with a frame or completes one, by induction on the
calls. -/
theorem receive_of_frames (ready : p.IsBetweenFrames) (fits : ∀ call ∈ calls, call.Fits p.capacity)
    {input : List UInt8} {byte : UInt8} (part : input ++ [byte] <+: frames calls)
    : ((p.fed input).receive byte).1 = .ok .unfinished
      ∨ ∃ call ∈ calls, ∃ q, (p.fed input).receive byte = (.ok .complete, q) ∧ call.Brings q := by
  induction calls generalizing p input with
  | nil => exact absurd (List.prefix_nil.mp part) (by simp)
  | cons call rest ih =>
      obtain ⟨q, ended, between, room, brings⟩ := ends_call ready (fits call List.mem_cons_self)
      have later : ∀ call ∈ rest, call.Fits q.capacity := fun call member =>
        room ▸ fits call (List.mem_cons_of_mem _ member)
      rw [frames, List.flatMap_cons] at part
      rcases prefix_append_cases ((List.prefix_append input [byte]).trans part) with
        ⟨back, more, whole⟩ | ⟨input', rfl, _⟩
      · -- The byte is one of the first frame.
        obtain ⟨next, back, rfl⟩ := List.exists_cons_of_ne_nil more
        have same : next = byte := by
          rw [← whole, List.append_assoc, List.prefix_append_right_inj] at part
          exact (List.cons_prefix_cons.mp part).1.symm
        subst same
        rw [← whole] at ended
        have received := ended.receive
        split at received
        · exact .inr ⟨call, List.mem_cons_self, q, received, brings⟩
        · exact .inl received
      · rw [Packet.fed_append, ended.fed_eq]
        rw [List.append_assoc, List.prefix_append_right_inj] at part
        rcases ih (.inl between) later part with quiet | ⟨other, member, complete⟩
        · exact .inl quiet
        · exact .inr ⟨other, List.mem_cons_of_mem _ member, complete⟩

-----------------------------------------------------------------------------------------
-- Answering the frames of calls
-----------------------------------------------------------------------------------------

open EchoServer (answer? respond_of_answer serve_of_answer services)

/-- A call is answered with its own message. -/
theorem answer?_of_brings {call : Call} {request : Packet} (brings : call.Brings request)
    : answer? request = some call.body := by
  obtain ⟨command, payload⟩ := brings
  cases call with
  | ping => exact if_pos command
  | echo echoed =>
      have other : ¬request.command? = some Command.ping := by
        rw [command]
        exact (by decide : ¬some Command.echo = some Command.ping)
      have echoes : answer? request = some (Command.echo :: request.payload) :=
        (if_neg other).trans (if_pos command)
      rw [echoes, payload]
      rfl

variable {c : Conversation (Chain Service)}

theorem answer_call (responder : c.responder = services) {call : Call} {request : Packet}
    (brings : call.Brings request) (room : call.payload.length + 1 ≤ c.response.capacity)
    : (c.answer request).responder = services
      ∧ (c.answer request).response.capacity = c.response.capacity
      ∧ (c.answer request).sent = c.sent ++ wire call.body := by
  have room' : call.body.length ≤ c.response.clear.capacity := room
  obtain ⟨built, answered, body, _, same⟩ := respond_of_answer (answer?_of_brings brings) room'
  have nonempty : built.isEmpty = false := built.isEmpty_of_body (by simp [body, Call.body])
  simp only [Conversation.answer, responder, answered, nonempty, body]
  exact ⟨rfl, same, rfl⟩

/-- A device with these services takes up the response to a call as soon as the call has come. -/
theorem serve_call {P ε : Type} {device : Device P (Chain Service)}
    (responder : device.responder = services) {call : Call}
    (brings : call.Brings device.link.incoming)
    (room : call.payload.length + 1 ≤ device.response.capacity)
    : (@Device.serve P _ ε _ device).1 = .ok (.answered call.command) := by
  obtain ⟨_, _, _, served⟩ :=
    @serve_of_answer P ε _ _ responder (answer?_of_brings brings) room
  rw [served, brings.command]
  rfl

/-- The conversation over the first bytes of the frames of calls repeats those frames that have come
whole, by induction on the calls. -/
theorem upTo_frames (responder : c.responder = services) (ready : p.IsBetweenFrames)
    (fits : ∀ call ∈ calls, call.Fits p.capacity ∧ call.payload.length + 1 ≤ c.response.capacity)
    {input : List UInt8} (part : input <+: frames calls)
    : ∃ said, (c.upTo p input).sent = c.sent ++ said ∧ said <+: input
        ∧ (input = frames calls → said = input) ∧ (c.upTo p input).responder = services
        ∧ (c.upTo p input).response.capacity = c.response.capacity := by
  induction calls generalizing p c input with
  | nil =>
      obtain rfl := List.prefix_nil.mp part
      exact ⟨[], (List.append_nil _).symm, List.nil_prefix, fun _ => rfl, responder, rfl⟩
  | cons call rest ih =>
      obtain ⟨fits', room'⟩ := fits call List.mem_cons_self
      obtain ⟨q, ended, between, room, brings⟩ := ends_call ready fits'
      rw [frames, List.flatMap_cons] at part
      rcases prefix_append_cases part with ⟨back, more, whole⟩ | ⟨input', rfl, part'⟩
      · -- Nothing has come whole.
        rw [← whole] at ended
        have quiet := Packet.completed_of_quiet (ended.quiet more)
        have silent : c.upTo p input = c := by rw [Conversation.upTo, quiet, List.foldl_nil]
        rw [silent]
        refine ⟨[], (List.append_nil _).symm, List.nil_prefix, fun all => ?_, responder, rfl⟩
        have shorter : input.length < (frames (call :: rest)).length := by
          have longer := List.length_pos_iff.mpr more
          rw [frames, List.flatMap_cons, List.length_append, ← whole, List.length_append]
          omega
        rw [all] at shorter
        exact absurd shorter (Nat.lt_irrefl _)
      · obtain ⟨quiet, trace, unfinished⟩ := ended.trace_eq
        have first : c.upTo p (wire call.body) = c.answer q := by
          rw [Conversation.upTo, trace, Packet.completed, List.filterMap_append,
            ← Packet.completed, Packet.completed_of_quiet unfinished]
          rfl
        obtain ⟨responder', capacity, sent⟩ := answer_call responder brings room'
        have later : ∀ call ∈ rest, call.Fits q.capacity
            ∧ call.payload.length + 1 ≤ (c.answer q).response.capacity := by
          intro other member
          rw [room, capacity]
          exact fits other (List.mem_cons_of_mem _ member)
        obtain ⟨said, spoken, heard, all, responder'', capacity'⟩ :=
          ih responder' (.inl between) later part'
        rw [Conversation.upTo_append, first, ended.fed_eq]
        refine ⟨wire call.body ++ said, ?_, ?_, ?_, responder'', capacity'.trans capacity⟩
        · rw [spoken, sent, List.append_assoc]
        · exact (List.prefix_append_right_inj _).mpr heard
        · intro whole
          rw [frames, List.flatMap_cons] at whole
          rw [all (List.append_cancel_left whole)]

end Visit

end PacketBus
