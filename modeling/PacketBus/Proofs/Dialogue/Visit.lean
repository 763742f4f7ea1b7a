import PacketBus.Proofs.Dialogue.Calls
import PacketBus.Proofs.Server.Session

/-! A visit to an echo server, whose host makes its calls over a line, one after the other.
As long as no deadline expires, both ends keep step: what the host has read is what it asked before,
and the beginning of the answer to what it asks now.
-/

namespace PacketBus

open PacketBus.Frame (wire)
open Visit (Call frames)

/-- A host in the middle of its calls, and the server that it calls. -/
structure Visit where
  /-- The call that is made now, or was made last. -/
  call : Call
  exchange : Exchange (RecordedPort LineEnd Fault)
  session : EchoServer.Session (RecordedPort LineEnd Fault)
  /-- The calls to be made later, in order. -/
  waiting : List Call
  /-- The calls made before this one, in order, each with its exchange as it ended. -/
  past : List (Call × Exchange (RecordedPort LineEnd Fault)) := []

namespace Visit

/-- What may happen during a visit. -/
inductive Move where
  /-- The host goes on with its call, or makes the next one if it has returned. -/
  | host
  /-- The server is polled. -/
  | server
  | line (act : Line.Act)
  deriving DecidableEq

/-- A visit whose host has begun to make the first of its calls, and receives into a storage
of its own. -/
def start (hostSettings serverSettings : LinkSettings) (storage : List UInt8) (first : Call)
    (later : List Call) : Visit where
  call := first
  exchange := .start (.onPort { port := {} } storage hostSettings) first.request
  session := .start { port := {} } serverSettings
  waiting := later

def hostPort (v : Visit) : RecordedPort LineEnd Fault := v.exchange.host.link.port

def serverPort (v : Visit) : RecordedPort LineEnd Fault := v.session.device.link.port

/-- The visit with other ports at its ends. -/
def withPorts (v : Visit) (atHost atServer : RecordedPort LineEnd Fault) : Visit :=
  let link := { v.exchange.host.link with port := atHost }
  let device := { v.session.device with link := { v.session.device.link with port := atServer } }
  { v with
    exchange := { v.exchange with host := { v.exchange.host with link } }
    session := { v.session with device } }

/-- The visit behind a step of the host. -/
def stepHost (v : Visit) : Visit :=
  if v.exchange.result?.isSome then
    match v.waiting with
    | [] => v
    | next :: later =>
        { v with
          call := next
          exchange := .start v.exchange.host next.request
          waiting := later
          past := v.past ++ [(v.call, v.exchange)] }
  else { v with exchange := v.exchange.step }

/-- The visit behind one move. -/
def perform (v : Visit) : Move → Visit
  | .host => v.stepHost
  | .server => { v with session := v.session.step }
  | .line act =>
      let (atHost, atServer) := Line.act v.hostPort v.serverPort act
      v.withPorts atHost atServer

/-- The visit behind a number of moves. -/
def after (v : Visit) (moves : List Move) : Visit :=
  moves.foldl perform v

/-- The calls that have returned, in order, each with its exchange as it ended. -/
def returned (v : Visit) : List (Call × Exchange (RecordedPort LineEnd Fault)) :=
  v.past ++ if v.exchange.result?.isSome then [(v.call, v.exchange)] else []

/-- The host is about to find that the time for the answer is over. -/
def IsLate (v : Visit) : Prop :=
  ∃ deadline, v.exchange.stage = .waiting deadline ∧ deadline ≤ Clock.now v.hostPort

/-- No deadline expires: whenever the host goes on, there is still time. -/
def IsTimely (v : Visit) (moves : List Move) : Prop :=
  ∀ front, front ++ [.host] <+: moves → ¬(v.after front).IsLate

/-- Nothing is on its way in either direction, the server has nothing left to say, and neither end
is in the middle of a frame. -/
structure IsClear (v : Visit) : Prop where
  requests : v.hostPort.port.outgoing = [] ∧ v.serverPort.port.incoming = []
  answers : v.serverPort.port.outgoing = [] ∧ v.hostPort.port.incoming = []
  silent : v.session.device.isSending = false
  whole : v.exchange.host.link.incoming.isMidFrame = false
    ∧ v.session.device.link.incoming.isMidFrame = false

/-- The calls whose frames were sent or are being sent. -/
def asked (v : Visit) : List Call := v.past.map Prod.fst ++ [v.call]

-----------------------------------------------------------------------------------------
-- What every move keeps
-----------------------------------------------------------------------------------------

/-- What the server has said before its first byte. -/
def server : Conversation (Chain Service) where
  responder := EchoServer.services
  response := .ofStorage (List.replicate EchoServer.maxPacket 0)

/-- The packet into which the server receives. -/
def serverIncoming : Packet := .ofStorage (List.replicate EchoServer.maxPacket 0)

theorem capacity_serverIncoming
    : serverIncoming.capacity = EchoServer.maxPacket :=
  List.length_replicate

theorem capacity_response_server
    : server.response.capacity = EchoServer.maxPacket :=
  List.length_replicate

/-- How far the exchange of a call has come, with the frames of the calls before it. -/
inductive Reaches (x : Exchange (RecordedPort LineEnd Fault)) (before : List UInt8) (call : Call)
    : Prop
  | sending {owed} (busy : x.stage = .sending)
    (writes : x.host.link.Writes x.request call.body owed)
    (sent : x.host.link.port.accepted ++ owed = before ++ wire call.body)
    (heard : x.host.link.port.delivered = before)
  | waiting {deadline front back} (waits : x.stage = .waiting deadline)
    (sent : x.host.link.port.accepted = before ++ wire call.body)
    (heard : x.host.link.port.delivered = before ++ front)
    (split : front ++ back = wire call.body) (more : back ≠ [])
  | answered (done : x.stage = .answered)
    (sent : x.host.link.port.accepted = before ++ wire call.body)
    (heard : x.host.link.port.delivered = before ++ wire call.body)
    (brings : call.Brings x.host.link.incoming)

/-- A call was answered with its own message, and asked once. -/
def IsSettled (entry : Call × Exchange (RecordedPort LineEnd Fault)) : Prop :=
  entry.2.attempt = 1
  ∧ ∃ response, entry.2.result? = some (.ok response) ∧ entry.1.IsAnsweredBy response

/-- The line loses nothing, the server tracks its conversation, and the host is at its call. -/
structure Consistent (storage : List UInt8) (calls : List Call) (v : Visit) : Prop where
  requests : Line.Joins v.hostPort v.serverPort
  answers : Line.Joins v.serverPort v.hostPort
  tracks : v.session.device.Tracks serverIncoming server
  serving : v.session.result? = none
  order : v.past.map Prod.fst ++ v.call :: v.waiting = calls
  attempt : v.exchange.attempt = 1
  incoming : v.exchange.host.link.incoming = (Packet.ofStorage storage).fed v.hostPort.delivered
  reaches : Reaches v.exchange (frames (v.past.map Prod.fst)) v.call
  past : ∀ entry ∈ v.past, IsSettled entry

variable {storage : List UInt8} {calls : List Call} {v : Visit}

/-- The frames of all calls fit the packets of both ends. -/
def AllFit (storage : List UInt8) (calls : List Call) : Prop :=
  ∀ call ∈ calls, call.Fits storage.length ∧ call.Fits EchoServer.maxPacket

theorem Consistent.asked_part (h : v.Consistent storage calls)
    : v.asked <+: calls :=
  ⟨v.waiting, by rw [asked, List.append_assoc, List.singleton_append, h.order]⟩

theorem Consistent.asked_fit_host (h : v.Consistent storage calls) (fits : AllFit storage calls)
    : ∀ call ∈ v.asked, call.Fits storage.length :=
  fun call member => (fits call (h.asked_part.subset member)).1

theorem Consistent.asked_fit_server (h : v.Consistent storage calls) (fits : AllFit storage calls)
    : ∀ call ∈ v.asked, call.Fits serverIncoming.capacity := by
  intro call member
  rw [capacity_serverIncoming]
  exact (fits call (h.asked_part.subset member)).2

theorem frames_asked (v : Visit)
    : frames v.asked = frames (v.past.map Prod.fst) ++ wire v.call.body := by
  rw [asked, frames_append, frames_singleton]

/-- The host has sent the first part of the frames of what it asked. -/
theorem Consistent.sent (h : v.Consistent storage calls)
    : v.hostPort.accepted <+: frames v.asked := by
  rw [frames_asked]
  cases h.reaches with
  | sending busy writes sent heard => exact ⟨_, sent⟩
  | waiting waits sent heard split more => exact sent ▸ List.prefix_rfl
  | answered done sent heard brings => exact sent ▸ List.prefix_rfl

theorem Consistent.heard (h : v.Consistent storage calls)
    : v.serverPort.delivered <+: frames v.asked :=
  h.requests.delivered.trans h.sent

/-- What the server has to say to what it has heard: what has come whole of it. -/
theorem Consistent.reply (h : v.Consistent storage calls) (fits : AllFit storage calls)
    : let replied := server.upTo serverIncoming v.serverPort.delivered
      replied.sent <+: v.serverPort.delivered
      ∧ (v.serverPort.delivered = frames v.asked → replied.sent = frames v.asked)
      ∧ replied.responder = EchoServer.services
      ∧ replied.response.capacity = EchoServer.maxPacket := by
  have fits' : ∀ call ∈ v.asked, call.Fits serverIncoming.capacity
      ∧ call.payload.length + 1 ≤ server.response.capacity := by
    intro call member
    have large := h.asked_fit_server fits call member
    exact ⟨large, Nat.le_of_succ_le large⟩
  obtain ⟨said, sent, part, whole, responder, capacity⟩ :=
    upTo_frames (c := server) (p := serverIncoming) rfl (.inl rfl) fits' h.heard
  rw [show server.sent ++ said = said from List.nil_append said] at sent
  refine ⟨sent ▸ part, fun all => ?_, responder, capacity.trans capacity_response_server⟩
  rw [sent, whole all, all]

/-- What the server has said so far, and what it has still to say. -/
theorem Consistent.said (h : v.Consistent storage calls)
    : v.serverPort.accepted <+: (server.upTo serverIncoming v.serverPort.delivered).sent
      ∧ (v.session.device.isSending = false
        → v.serverPort.accepted = (server.upTo serverIncoming v.serverPort.delivered).sent) := by
  cases h.tracks.reports with
  | silent idle account response => exact ⟨account ▸ List.prefix_rfl, fun _ => account⟩
  | sending busy writes account response =>
      exact ⟨⟨_, account⟩, fun idle => nomatch busy.symm.trans idle⟩

/-- Only what the host asked comes back to it, and in the order in which it asked. -/
theorem Consistent.arrived (h : v.Consistent storage calls) (fits : AllFit storage calls)
    : Line.arrived v.hostPort <+: frames v.asked := by
  have spoken : v.serverPort.accepted <+: frames v.asked :=
    h.said.1.trans ((h.reply fits).1.trans h.heard)
  have part : Line.arrived v.hostPort <+: v.serverPort.accepted := by
    rw [h.answers]
    exact List.prefix_append _ _
  exact part.trans spoken

-----------------------------------------------------------------------------------------
-- A step of the server
-----------------------------------------------------------------------------------------

/-- A frame was thrown away, or a request was left without an answer. -/
def LosesRequest : Device.Event → Prop
  | .lost _ | .unanswered _ => True
  | .idle | .reading | .answered _ | .blocked | .sent => False

/-- A server that reads finds nothing, goes on with a frame or takes up the response to a call; one
that has something to say is refused a byte of it or says all. -/
theorem Consistent.event (h : v.Consistent storage calls) (fits : AllFit storage calls)
    : ∃ event, v.session.device.step.1 = .ok event ∧ ¬LosesRequest event := by
  cases h.tracks.reports with
  | sending busy writes account response =>
      have kept := (v.session.device.link.port_push Line.keeps_conserves
        v.session.device.response).lost
      obtain ⟨_, _, _, _, ⟨complete, _⟩ | ⟨unfinished, _⟩⟩ := writes.push_of_kept kept
      · exact ⟨.sent, (Device.event_of_sending busy).1.mpr complete, id⟩
      · refine ⟨.blocked, ?_, id⟩
        simp only [Device.step, busy, if_true, Device.stepSending, unfinished]
  | silent idle account response =>
      obtain ⟨_, _, responder, capacity⟩ := h.reply fits
      rcases Line.receive_cases v.session.device.link with
        ⟨_, received, _⟩ | ⟨byte, rest, incoming, _, received⟩
      · refine ⟨.idle, ?_, id⟩
        simp [Device.step, idle, Device.stepReading, received]
      · have part : v.serverPort.delivered ++ [byte] <+: frames v.asked := by
          refine List.IsPrefix.trans ?_ h.sent
          rw [h.requests, Line.arrived, serverPort, incoming]
          simp
        have large := h.asked_fit_server fits
        rw [h.tracks.heard] at received
        rcases receive_of_frames (p := serverIncoming) (.inl rfl) large part with
          quiet | ⟨call, member, q, complete, brings⟩
        · refine ⟨.reading, ?_, id⟩
          have received := received _ _ (Prod.ext quiet rfl)
          simp [Device.step, idle, Device.stepReading, received]
        · refine ⟨.answered call.command, ?_, id⟩
          rw [Device.step_of_complete idle (received _ _ complete)]
          refine serve_call ?_ brings ?_
          · exact h.tracks.responder.trans responder
          · have held := large call member
            rw [capacity_serverIncoming, ← capacity] at held
            rw [response]
            exact Nat.le_of_succ_le held

/-- The session goes on with its device, and nothing but the log is changed beside it. -/
theorem Consistent.step_session (h : v.Consistent storage calls) (fits : AllFit storage calls)
    : ∃ log, v.session.step = { v.session with device := v.session.device.step.2, log } := by
  obtain ⟨event, stepped, _⟩ := h.event fits
  exact EchoServer.Session.step_of_event h.serving (Prod.ext stepped rfl)

/-- A server that is polled goes on by a step of its device. -/
theorem Consistent.serverPort_perform (h : v.Consistent storage calls)
    (fits : AllFit storage calls)
    : (v.perform .server).serverPort = v.session.device.step.2.link.port := by
  obtain ⟨log, next⟩ := h.step_session fits
  rw [serverPort, Visit.perform, next]

theorem Consistent.server_move (h : v.Consistent storage calls) (fits : AllFit storage calls)
    : (v.perform .server).Consistent storage calls := by
  obtain ⟨log, next⟩ := h.step_session fits
  have device : v.session.step.device = v.session.device.step.2 := by rw [next]
  have serving : v.session.step.result? = none := by
    rw [next]
    exact h.serving
  have moved : Line.Conserves v.serverPort (v.perform .server).serverPort := by
    rw [h.serverPort_perform fits]
    exact v.session.device.port_step Line.keeps_conserves
  exact {
    requests := h.requests.of_receiver moved
    answers := h.answers.of_sender moved
    tracks := by
      rw [perform, device]
      refine h.tracks.step ?_
      rw [← device]
      exact moved.lost
    serving := serving
    order := h.order
    attempt := h.attempt
    incoming := h.incoming
    reaches := h.reaches
    past := h.past }

-----------------------------------------------------------------------------------------
-- What happens to the line
-----------------------------------------------------------------------------------------

/-- Whatever else happens to the port, only its calls matter. -/
theorem Reaches.of_calls {x : Exchange (RecordedPort LineEnd Fault)} {before : List UInt8}
    {call : Call} (h : Reaches x before call) {port : RecordedPort LineEnd Fault}
    (same : port.calls = x.host.link.port.calls)
    : Reaches { x with host := { x.host with link := { x.host.link with port } } } before call := by
  obtain ⟨inner, _⟩ := port
  subst same
  cases h with
  | sending busy writes sent heard => exact .sending busy (writes.of_held_eq rfl) sent heard
  | waiting waits sent heard split more => exact .waiting waits sent heard split more
  | answered done sent heard brings => exact .answered done sent heard brings

theorem Consistent.line (h : v.Consistent storage calls) (act : Line.Act)
    : (v.perform (.line act)).Consistent storage calls := by
  obtain ⟨hostCalls, serverCalls, requests, answers⟩ := h.requests.act h.answers act
  exact {
    requests
    answers
    tracks := h.tracks.of_calls serverCalls
    serving := h.serving
    order := h.order
    attempt := h.attempt
    incoming := by
      have heard := h.incoming
      rw [RecordedPort.delivered, ← hostCalls] at heard
      exact heard
    reaches := h.reaches.of_calls hostCalls
    past := h.past }

end Visit

end PacketBus
