import PacketBus.Proofs.Device.Timing
import PacketBus.Proofs.Dialogue.Asking

/-! A host and an echo device at the two ends of a line.
Answers come in the order of the attempts that they answer. Nothing in an answer tells which request
it is for, so the host gives the oldest one it has not read yet to the request that waits.
-/

namespace PacketBus

open PacketBus.Frame (wire)

/-- A packet that asks for the echo of a payload. -/
structure EchoRequest where
  packet : Packet
  payload : List UInt8
  sized : packet.size ≤ packet.capacity
  body_eq : packet.body = Command.echo :: payload

/-- The request in a packet that just holds it. -/
def EchoRequest.ofPayload (payload : List UInt8) : EchoRequest where
  packet := { storage := Command.echo :: payload, size := payload.length + 1 }
  payload := payload
  sized := Nat.le_refl _
  body_eq := by simp [Packet.body, Packet.bodySize]

/-- How the two ends of a line are set up. -/
structure Dialogue.Setup where
  settings : LinkSettings
  hostStorage : List UInt8
  deviceStorage : List UInt8
  responseStorage : List UInt8

/-- A host that asks one request after the other and an echo device. -/
structure Dialogue where
  exchange : Exchange (RecordedPort LineEnd Fault)
  device : Device (RecordedPort LineEnd Fault) Service
  /-- The payloads of the attempts of all exchanges before this one, in order. -/
  earlier : List (List UInt8) := []
  /-- The packets that the exchanges before this one were answered with, in order. -/
  answers : List Packet := []

/-- What may happen in a dialogue. -/
inductive Dialogue.Move where
  /-- The host goes on by one step. -/
  | host
  /-- The device is polled. -/
  | device
  /-- The oldest byte on its way to the device comes there. -/
  | carryRequest
  | carryAnswer
  | elapse (milliseconds : Nat)
  /-- The line takes so many more bytes from the host. -/
  | requestRoom (bytes : Nat)
  | answerRoom (bytes : Nat)
  /-- The host is given another request; it takes it up when it has finished the one before. -/
  | ask (request : EchoRequest)

namespace Dialogue

/-- The frame that a packet of this payload makes fits the packets of both ends. -/
def Setup.Fits (setup : Setup) (payload : List UInt8) : Prop :=
  payload.length + 2 ≤ setup.hostStorage.length ∧ payload.length + 2 ≤ setup.deviceStorage.length

/-- The device can build the answer to a payload. -/
def Setup.answers (setup : Setup) (payload : List UInt8) : Bool :=
  Conversation.echoes setup.responseStorage.length payload

/-- A dialogue in which the host has begun to ask. -/
def Setup.start (setup : Setup) (request : EchoRequest) : Dialogue where
  exchange := .start (.onPort { port := {} } setup.hostStorage setup.settings) request.packet
  device := .onLink (.onPort { port := {} } setup.deviceStorage) .echo setup.responseStorage

/-- The payload that is asked for now. -/
def payload (d : Dialogue) : List UInt8 := d.exchange.request.payload

/-- The payloads of all attempts, in order. -/
def attempts (d : Dialogue) : List (List UInt8) :=
  d.earlier ++ List.replicate d.exchange.attempt d.payload

/-- The packets that all exchanges were answered with, in order. -/
def returned (d : Dialogue) : List Packet := d.answers ++ d.exchange.response?.toList

/-- The dialogue with another port at the host's end. -/
def withHostPort (d : Dialogue) (port : RecordedPort LineEnd Fault) : Dialogue :=
  let link := { d.exchange.host.link with port }
  { d with exchange := { d.exchange with host := { d.exchange.host with link } } }

/-- The dialogue with another port at the device's end. -/
def withDevicePort (d : Dialogue) (port : RecordedPort LineEnd Fault) : Dialogue :=
  { d with device := { d.device with link := { d.device.link with port } } }

def hostPort (d : Dialogue) : RecordedPort LineEnd Fault := d.exchange.host.link.port

def devicePort (d : Dialogue) : RecordedPort LineEnd Fault := d.device.link.port

/-- The dialogue behind one move. -/
def perform (d : Dialogue) : Move → Dialogue
  | .host => { d with exchange := d.exchange.step }
  | .device => { d with device := d.device.step.2 }
  | .carryRequest =>
      let (sender, receiver) := Line.carry d.hostPort d.devicePort
      (d.withHostPort sender).withDevicePort receiver
  | .carryAnswer =>
      let (sender, receiver) := Line.carry d.devicePort d.hostPort
      (d.withHostPort receiver).withDevicePort sender
  | .elapse milliseconds =>
      d.withHostPort (d.hostPort.adjust fun l => { l with time := l.time + milliseconds })
  | .requestRoom bytes =>
      d.withHostPort (d.hostPort.adjust fun l => { l with room := l.room + bytes })
  | .answerRoom bytes =>
      d.withDevicePort (d.devicePort.adjust fun l => { l with room := l.room + bytes })
  | .ask request =>
      if d.exchange.result?.isSome then
        { d with
          exchange := .start d.exchange.host request.packet
          earlier := d.attempts
          answers := d.returned }
      else d

/-- The dialogue behind a number of moves. -/
def after (d : Dialogue) (moves : List Move) : Dialogue :=
  moves.foldl perform d

/-- An attempt has begun while the host was in the middle of an answer. -/
def CutsAnswer (d : Dialogue) : Prop :=
  d.exchange.stage = .sending ∧ d.exchange.host.link.incoming.isMidFrame = true

-----------------------------------------------------------------------------------------
-- What every move keeps
-----------------------------------------------------------------------------------------

/-- The line loses nothing, each end keeps to its part, and all that is asked fits both ends. -/
structure Consistent (setup : Setup) (d : Dialogue) : Prop where
  requests : Line.Joins d.hostPort d.devicePort
  answers : Line.Joins d.devicePort d.hostPort
  device : d.device.Tracks (.ofStorage setup.deviceStorage)
    { responder := .echo, response := .ofStorage setup.responseStorage }
  faultless : d.devicePort.lost = []
  exchange : d.exchange.Asks (.ofStorage setup.hostStorage) d.earlier d.payload d.answers
  fits : ∀ payload ∈ d.payload :: d.earlier, setup.Fits payload

variable {setup : Setup} {d : Dialogue}

theorem Consistent.fits_of_mem_attempts (h : d.Consistent setup) {payload : List UInt8}
    (attempted : payload ∈ d.attempts)
    : setup.Fits payload := by
  rcases List.mem_append.mp attempted with before | now
  · exact h.fits payload (List.mem_cons_of_mem _ before)
  · obtain rfl := List.eq_of_mem_replicate now
    exact h.fits d.payload List.mem_cons_self

theorem Consistent.host (h : d.Consistent setup) (whole : ¬d.CutsAnswer)
    : (d.perform .host).Consistent setup := by
  have pause : ∀ port : RecordedPort LineEnd Fault, Line.Conserves port (Clock.pause port) :=
    fun port => .of_adjust port Clock.pause rfl rfl
  have moved : Line.Conserves d.hostPort (d.perform .host).hostPort :=
    d.exchange.port_step Line.keeps_conserves pause
  have resting : d.exchange.stage = .sending
      → d.exchange.host.link.incoming.isMidFrame = false := by
    intro busy
    cases middle : d.exchange.host.link.incoming.isMidFrame with
    | false => rfl
    | true => exact absurd ⟨busy, middle⟩ whole
  have asks := h.exchange.step resting moved.lost
  have same : (d.perform .host).payload = d.payload := asks.payload_eq
  exact {
    requests := h.requests.of_sender moved
    answers := h.answers.of_receiver moved
    device := h.device
    faultless := h.faultless
    exchange := by
      rw [same]
      exact asks
    fits := by
      rw [same]
      exact h.fits }

theorem Consistent.device_move (h : d.Consistent setup)
    : (d.perform .device).Consistent setup := by
  have moved : Line.Conserves d.devicePort (d.perform .device).devicePort :=
    d.device.port_step Line.keeps_conserves
  have faultless : (d.perform .device).devicePort.lost = [] := moved.lost.trans h.faultless
  exact {
    requests := h.requests.of_receiver moved
    answers := h.answers.of_sender moved
    device := h.device.step moved.lost
    faultless
    exchange := h.exchange
    fits := h.fits }

/-- What happens to the ports short of a call is no matter of the two ends. -/
theorem Consistent.withPorts (h : d.Consistent setup) {atHost atDevice : RecordedPort LineEnd Fault}
    (hostCalls : atHost.calls = d.hostPort.calls)
    (deviceCalls : atDevice.calls = d.devicePort.calls)
    (requests : Line.Joins atHost atDevice) (answers : Line.Joins atDevice atHost)
    : ((d.withHostPort atHost).withDevicePort atDevice).Consistent setup where
  requests := requests
  answers := answers
  device := h.device.of_calls deviceCalls
  faultless := by
    have earlier := h.faultless
    rw [RecordedPort.lost, ← deviceCalls] at earlier
    exact earlier
  exchange := h.exchange.of_calls hostCalls
  fits := h.fits

theorem Consistent.ask (h : d.Consistent setup) {request : EchoRequest}
    (fits : setup.Fits request.payload)
    : (d.perform (.ask request)).Consistent setup := by
  simp only [perform]
  split
  · next finished =>
      -- A finished exchange owes nothing more of its last attempt.
      have account : d.hostPort.accepted = echoFrames d.attempts := by
        cases h.exchange.sends with
        | sent done account => exact account
        | sending busy writes account => simp [Exchange.result?, busy] at finished
      have asks : Exchange.Asks (.start d.exchange.host request.packet)
          (.ofStorage setup.hostStorage) d.attempts request.payload d.returned := by
        refine Exchange.Asks.send request.sized request.body_eq ?_ h.exchange.heard
          h.exchange.answers
        rw [echoFrames_append, ← account]
        simp [echoFrames, hostPort]
      have same : (Exchange.start d.exchange.host request.packet).host.link.port = d.hostPort :=
        Exchange.port_send _
      have requests : Line.Joins (Exchange.start d.exchange.host request.packet).host.link.port
          d.devicePort := by
        rw [same]
        exact h.requests
      have answers : Line.Joins d.devicePort
          (Exchange.start d.exchange.host request.packet).host.link.port := by
        rw [same]
        exact h.answers
      have asked : (Exchange.start d.exchange.host request.packet).request.payload
          = request.payload :=
        asks.payload_eq
      refine ⟨requests, answers, h.device, h.faultless, ?_, ?_⟩
      · rw [payload, asked]
        exact asks
      · intro payload member
        rcases List.mem_cons.mp member with rfl | attempted
        · rw [Dialogue.payload, asked]
          exact fits
        · exact h.fits_of_mem_attempts attempted
  · exact h

theorem Consistent.perform (h : d.Consistent setup) (whole : ¬d.CutsAnswer) {move : Move}
    (fits : ∀ request, move = .ask request → setup.Fits request.payload)
    : (d.perform move).Consistent setup := by
  cases move with
  | host => exact h.host whole
  | device => exact h.device_move
  | carryRequest =>
      obtain ⟨sender, receiver⟩ := Line.calls_carry d.hostPort d.devicePort
      exact h.withPorts sender receiver h.requests.carry h.answers.carry_back
  | carryAnswer =>
      obtain ⟨sender, receiver⟩ := Line.calls_carry d.devicePort d.hostPort
      exact h.withPorts receiver sender h.requests.carry_back h.answers.carry
  | elapse milliseconds =>
      have moved := Line.Conserves.of_adjust d.hostPort
        (fun l => { l with time := l.time + milliseconds }) rfl rfl
      exact h.withPorts rfl rfl (h.requests.of_sender moved) (h.answers.of_receiver moved)
  | requestRoom bytes =>
      have moved := Line.Conserves.of_adjust d.hostPort
        (fun l => { l with room := l.room + bytes }) rfl rfl
      exact h.withPorts rfl rfl (h.requests.of_sender moved) (h.answers.of_receiver moved)
  | answerRoom bytes =>
      have moved := Line.Conserves.of_adjust d.devicePort
        (fun l => { l with room := l.room + bytes }) rfl rfl
      exact h.withPorts rfl rfl (h.requests.of_receiver moved) (h.answers.of_sender moved)
  | ask request => exact h.ask (fits request rfl)

theorem Setup.consistent_start {request : EchoRequest} (fits : setup.Fits request.payload)
    : (setup.start request).Consistent setup := by
  let host : Host (RecordedPort LineEnd Fault) :=
    .onPort { port := {} } setup.hostStorage setup.settings
  have asks : Exchange.Asks (.start host request.packet) (.ofStorage setup.hostStorage) []
      request.payload [] := by
    refine Exchange.Asks.send request.sized request.body_eq ?_ rfl rfl
    simp [echoFrames, host, Host.onPort, Link.onPort, RecordedPort.accepted]
  have same : (Exchange.start host request.packet).host.link.port = { port := {} } :=
    Exchange.port_send _
  have asked : (Exchange.start host request.packet).request.payload = request.payload :=
    asks.payload_eq
  have fresh : (setup.start request).hostPort = (setup.start request).devicePort := same
  refine ⟨?_, ?_, ⟨rfl, rfl, .silent rfl rfl rfl⟩, rfl, ?_, ?_⟩
  · rw [fresh]
    rfl
  · rw [fresh]
    rfl
  · rw [payload, Setup.start, asked]
    exact asks
  · intro payload member
    obtain rfl := List.mem_singleton.mp member
    rw [Dialogue.payload, Setup.start, asked]
    exact fits

/-- By induction on the moves. -/
theorem Consistent.after (h : d.Consistent setup) {moves : List Move}
    (fits : ∀ request, .ask request ∈ moves → setup.Fits request.payload)
    (whole : ∀ front, front <+: moves → ¬(d.after front).CutsAnswer)
    : (d.after moves).Consistent setup := by
  induction moves generalizing d with
  | nil => exact h
  | cons move rest ih =>
      have next : (d.perform move).Consistent setup := by
        refine h.perform (whole [] (List.nil_prefix)) ?_
        rintro request rfl
        exact fits request List.mem_cons_self
      refine ih next ?_ ?_
      · intro request member
        exact fits request (List.mem_cons_of_mem _ member)
      · intro front part
        exact whole (move :: front) (List.cons_prefix_cons.mpr ⟨rfl, part⟩)

-----------------------------------------------------------------------------------------
-- The order of the answers
-----------------------------------------------------------------------------------------

/-- What has come so far is the beginning of the answers to all attempts. -/
theorem Consistent.delivered (h : d.Consistent setup)
    : d.hostPort.delivered <+: echoFrames (d.attempts.filter setup.answers) := by
  have asked : d.hostPort.accepted <+: echoFrames d.attempts := by
    cases h.exchange.sends with
    | sending busy writes account => exact ⟨_, account⟩
    | sent done account => exact account ▸ List.prefix_rfl
  have heard : d.devicePort.delivered <+: echoFrames d.attempts := h.requests.delivered.trans asked
  have fits : ∀ payload ∈ d.attempts, payload.length + 2 ≤ setup.deviceStorage.length := by
    intro payload attempted
    exact (h.fits_of_mem_attempts attempted).2
  let c : Conversation Service :=
    { responder := .echo, response := .ofStorage setup.responseStorage }
  have whole : (c.upTo (.ofStorage setup.deviceStorage) (echoFrames d.attempts)).sent
      = echoFrames (d.attempts.filter setup.answers) :=
    Conversation.sent_upTo_echoFrames rfl (.inl rfl) fits
  have spoken := c.sent_upTo_mono (.ofStorage setup.deviceStorage) heard
  rw [whole] at spoken
  have said : d.devicePort.accepted <+: echoFrames (d.attempts.filter setup.answers) := by
    cases h.device.reports with
    | silent idle account response => exact account ▸ spoken
    | sending busy writes account response => exact List.IsPrefix.trans ⟨_, account⟩ spoken
  exact h.answers.delivered.trans said

/-- What was returned is the beginning of the answers to all attempts. -/
theorem Consistent.returned (h : d.Consistent setup)
    : d.returned.map (fun q => (q.command?, q.payload))
      <+: (d.attempts.filter setup.answers).map fun payload => (some Command.echo, payload) := by
  have fits : ∀ payload ∈ d.attempts.filter setup.answers,
      payload.length + 2 ≤ (Packet.ofStorage setup.hostStorage).capacity := by
    intro payload answered
    exact (h.fits_of_mem_attempts (List.mem_filter.mp answered).1).1
  have ready : (Packet.ofStorage setup.hostStorage).IsBetweenFrames := .inl rfl
  rw [Dialogue.returned, ← h.exchange.answers, ← ready.completed_echoFrames fits]
  exact (Packet.completed_mono _ h.delivered).map _

/-- If all answers to the exchanges before this one were returned, the next one is for this one. -/
theorem Consistent.payload_of_answered (h : d.Consistent setup) {response : Packet}
    (answered : d.exchange.response? = some response)
    (settled : (d.earlier.filter setup.answers).length ≤ d.answers.length)
    : response.payload = d.payload := by
  obtain ⟨rest, split⟩ := h.returned
  have here := congrArg (·[d.answers.length]?) split
  have found : ((d.attempts.filter setup.answers).map fun payload =>
      (some Command.echo, payload))[d.answers.length]?
      = some (response.command?, response.payload) := by
    rw [← here]
    simp [Dialogue.returned, answered]
  rw [attempts, List.filter_append, List.map_append,
    List.getElem?_append_right (by simpa using settled)] at found
  obtain ⟨payload, listed, same⟩ := List.mem_map.mp (List.mem_of_getElem? found)
  obtain rfl := List.eq_of_mem_replicate (List.mem_filter.mp listed).1
  exact (congrArg Prod.snd same).symm

/-- Answers come in the order of the attempts. Whenever and however long the line delays, as long as
no attempt begins in the middle of an answer, the packets returned are the answers to the first
attempts that can be answered, each once and with none left out. So a request is given its own
answer once all answers to the requests before it were returned, however often it was sent. -/
theorem answers_come_in_order (setup : Setup) (first : EchoRequest) (moves : List Move)
    (fits : ∀ request, request = first ∨ .ask request ∈ moves → setup.Fits request.payload)
    (whole : ∀ front, front <+: moves → ¬((setup.start first).after front).CutsAnswer)
    : let d := (setup.start first).after moves
      d.returned.map (fun q => (q.command?, q.payload))
        <+: (d.attempts.filter setup.answers).map (fun payload => (some Command.echo, payload))
      ∧ ∀ response, d.exchange.result? = some (.ok response)
        → (d.earlier.filter setup.answers).length ≤ d.answers.length
        → response.payload = d.payload := by
  intro d
  have begun := setup.consistent_start (fits first (.inl rfl))
  have consistent : d.Consistent setup :=
    begun.after (fun request asked => fits request (.inr asked)) whole
  refine ⟨consistent.returned, ?_⟩
  intro response finished settled
  exact consistent.payload_of_answered ((d.exchange.result?_eq_ok_iff response).mp finished) settled

/-- All that is on its way comes to its end, as far as it is not too much. -/
def settling : List Move :=
  List.replicate 20 .carryRequest ++ List.replicate 25 .device ++ List.replicate 20 .carryAnswer

instance (d : Dialogue) : Decidable d.CutsAnswer :=
  inferInstanceAs (Decidable (_ ∧ _))

/-- The second request is sent twice before its first answer comes. -/
theorem answers_come_in_order_after_retry
    : let setup : Setup :=
        { settings := { responseTimeout := 50, retries := 1 }
          hostStorage := [0, 0, 0, 0], deviceStorage := [0, 0, 0], responseStorage := [0, 0] }
      let moves : List Move :=
        [.requestRoom 99, .answerRoom 99, .host] ++ settling ++ List.replicate 5 .host
        ++ [.ask (.ofPayload [0xBB]), .host, .elapse 50, .host, .host] ++ settling
        ++ List.replicate 5 .host
      let d := (setup.start (.ofPayload [0xAA])).after moves
      setup.Fits [0xAA] ∧ setup.Fits [0xBB]
      ∧ (∀ front, front <+: moves → ¬((setup.start (.ofPayload [0xAA])).after front).CutsAnswer)
      ∧ d.attempts = [[0xAA], [0xBB], [0xBB]] ∧ d.returned.map (·.payload) = [[0xAA], [0xBB]]
      ∧ ∃ response, d.exchange.result? = some (.ok response) ∧ response.payload = [0xBB] := by
  intro setup moves d
  have fitsFirst : setup.Fits [0xAA] := ⟨by decide, by decide⟩
  have fitsSecond : setup.Fits [0xBB] := ⟨by decide, by decide⟩
  have fits : ∀ request, request = .ofPayload [0xAA] ∨ .ask request ∈ moves
      → setup.Fits request.payload := by
    rintro request (rfl | asked)
    · exact fitsFirst
    · obtain rfl : request = .ofPayload [0xBB] := by simpa [moves, settling] using asked
      exact fitsSecond
  have counted : ∀ count < moves.length + 1,
      ¬((setup.start (.ofPayload [0xAA])).after (moves.take count)).CutsAnswer := by
    decide +kernel
  have whole : ∀ front, front <+: moves
      → ¬((setup.start (.ofPayload [0xAA])).after front).CutsAnswer := by
    intro front part
    rw [List.prefix_iff_eq_take.mp part]
    exact counted front.length (Nat.lt_succ_of_le part.length_le)
  obtain ⟨_, own⟩ := answers_come_in_order setup (.ofPayload [0xAA]) moves fits whole
  have answered : d.exchange.response?.isSome = true := by decide +kernel
  obtain ⟨response, found⟩ := Option.isSome_iff_exists.mp answered
  have finished := (d.exchange.result?_eq_ok_iff response).mpr found
  have asked : d.payload = [0xBB] := by decide +kernel
  refine ⟨fitsFirst, fitsSecond, whole, by decide +kernel, by decide +kernel, response, finished,
    ?_⟩
  exact (own response finished (by decide +kernel)).trans asked

/-- The host was answered with another payload than the one it asked for. -/
def IsMistaken (d : Dialogue) : Prop :=
  ∃ response, d.exchange.result? = some (.ok response) ∧ response.payload ≠ d.payload

instance (d : Dialogue) : Decidable d.IsMistaken :=
  decidable_of_iff (∃ response ∈ d.exchange.response?, response.payload ≠ d.payload) (by
    simp only [IsMistaken, Exchange.result?_eq_ok_iff, Option.mem_def])

/-- A host takes the next packet for the answer to its request. It is mistaken when the answer to an
earlier request comes late, when an attempt begins in the middle of an answer whose rest passes for
a packet, and when a frame does not fit the host or the device and its rest passes for one. -/
theorem answers_are_mistaken
    : let setup : (retries : UInt8) → (atHost atDevice : Nat) → Setup :=
        fun retries atHost atDevice =>
          { settings := { responseTimeout := 50, retries }
            hostStorage := List.replicate atHost 0
            deviceStorage := List.replicate atDevice 0
            responseStorage := List.replicate 16 0 }
      let asking : List Move := [.requestRoom 99, .answerRoom 99, .host]
      let late : List Move := [.elapse 50, .host, .ask (.ofPayload [0xBB]), .host]
      let cut : List Move := [.host, .host, .elapse 50, .host, .host]
      (((setup 0 16 16).start (.ofPayload [0xAA])).after
        (asking ++ late ++ settling ++ List.replicate 5 .host)).IsMistaken
      ∧ (((setup 1 16 16).start (.ofPayload [0x0E, 0x02, 0x05])).after
        (asking ++ settling ++ cut ++ List.replicate 5 .host)).IsMistaken
      ∧ (((setup 0 2 16).start (.ofPayload [0xAA, 0x75, 0x00, 0x01])).after
        (asking ++ settling ++ List.replicate 8 .host)).IsMistaken
      ∧ (((setup 0 16 4).start (.ofPayload [0xAA, 0x75, 0x00, 0x00, 0x00, 0x02, 0xBB])).after
        (asking ++ settling ++ List.replicate 5 .host)).IsMistaken := by
  decide +kernel

end Dialogue

end PacketBus
