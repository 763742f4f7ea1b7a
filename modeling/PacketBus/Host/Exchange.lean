import PacketBus.Host.Basic

/-! An exchange: a request on its way to one response.
It goes on step by step: it sends, waits until a packet or the deadline comes, and sends again while
attempts are left.
-/

namespace PacketBus

/-- Where an exchange stands. -/
inductive Exchange.Stage where
  /-- The request is being written. -/
  | sending
  /-- The response is awaited until a moment. -/
  | waiting (deadline : Nat)
  /-- The response has come. -/
  | answered
  | failed (failure : Host.Failure)
  deriving DecidableEq, Repr

/-- One request on its way to a response. -/
structure Exchange (P : Type) where
  host : Host P
  request : Packet
  /-- Number of the attempt, from one. -/
  attempt : Nat := 1
  stage : Exchange.Stage := .sending
  log : List Journal.Entry := []

namespace Exchange

variable {P : Type} [Port P Fault] [Clock P]

omit [Port P Fault] [Clock P] in
/-- Puts entries into the log. -/
def note (x : Exchange P) (entries : List Journal.Entry) : Exchange P :=
  { x with log := x.log ++ entries }

omit [Port P Fault] [Clock P] in
/-- Ends the exchange with a cause. -/
def fail (x : Exchange P) (failure : Host.Failure) : Exchange P :=
  { x with stage := .failed failure }

omit [Port P Fault] [Clock P] in
/-- Begins to write the request. -/
def send (x : Exchange P) : Exchange P :=
  let logged := x.note (x.host.logPacket "Send" x.request)
  match x.host.link.prepare x.request with
  | (.error e, link) => { logged with host := { x.host with link } }.fail (.packet e)
  | (.ok request, link) =>
      { logged with host := { x.host with link }, request, stage := .sending }

omit [Port P Fault] [Clock P] in
/-- An exchange that has begun to write its first attempt. -/
def start (host : Host P) (request : Packet) : Exchange P :=
  send { host, request }

omit [Port P Fault] in
/-- Begins to wait, for as long as the settings say; a partly received frame is given up. -/
def await (x : Exchange P) : Exchange P :=
  let incoming := x.host.link.incoming.abandonFrame
  let deadline := Clock.now x.host.link.port + x.host.settings.responseTimeout.toNat
  { x with
    host := { x.host with link := { x.host.link with incoming } }
    stage := .waiting deadline }

/-- Offers bytes of the request to the port. -/
def stepSending (x : Exchange P) : Exchange P :=
  let pushed := x.host.link.push x.request
  let after := { x with host := { x.host with link := pushed.link }, request := pushed.packet }
  match pushed.result with
  | .ok .complete => after.await
  | .ok .unfinished => after
  | .error e => after.fail (.ofLink e)

omit [Port P Fault] [Clock P] in
/-- Sends the request again, or gives up when no attempt is left. -/
def retry (x : Exchange P) : Exchange P :=
  if x.attempt < x.host.settings.attempts then
    let attempt := x.attempt + 1
    let entry : Journal.Entry :=
      { level := .warn
        message := "No response, resending"
        fields := [("attempt", toString attempt)] }
    send ({ x with attempt }.note [entry])
  else x.fail (.noResponse x.host.settings.responseTimeout)

omit [Port P Fault] in
/-- Takes what one read of the link came to. -/
def take (x : Exchange P) : Except (Link.Failure Fault) (Option FrameStatus) → Exchange P
  | .ok (some .complete) =>
      { x.note (x.host.logPacket "Rcvd" x.host.link.incoming) with stage := .answered }
  | .ok (some .unfinished) => x
  | .ok none =>
      let link := { x.host.link with port := Clock.pause x.host.link.port }
      { x with host := { x.host with link } }
  | .error (.packet e) =>
      if e.losesFrameOnly then
        x.note [{ level := .warn, message := "Discarding frame: " ++ e.message }]
      else x.fail (.packet e)
  | .error (.port fault) => x.fail (.transport fault)

/-- Reads one byte before the deadline. -/
def stepWaiting (x : Exchange P) (deadline : Nat) : Exchange P :=
  if Clock.now x.host.link.port < deadline then
    let (result, link) := x.host.link.receive
    { x with host := { x.host with link } }.take result
  else x.retry

/-- Goes on by one step; a finished exchange stays as it is. -/
def step (x : Exchange P) : Exchange P :=
  match x.stage with
  | .sending => x.stepSending
  | .waiting deadline => x.stepWaiting deadline
  | .answered | .failed _ => x

omit [Port P Fault] [Clock P] in
/-- The response or the cause of failure, once there is one. -/
def result? (x : Exchange P) : Option (Except Host.Failure Packet) :=
  match x.stage with
  | .answered => some (.ok x.host.link.incoming)
  | .failed failure => some (.error failure)
  | .sending | .waiting _ => none

/-- Goes on until the exchange is finished, `patience` steps at most. -/
def run (x : Exchange P) : Nat → Exchange P
  | 0 => x
  | patience + 1 => if x.result?.isSome then x else x.step.run patience

end Exchange

/-- Sends a request and waits for the response, going `patience` steps at most. -/
def Host.exchange {P : Type} [Port P Fault] [Clock P] (host : Host P) (request : Packet)
    (patience : Nat) : Exchange P :=
  (Exchange.start host request).run patience

end PacketBus
