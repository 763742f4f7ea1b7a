import PacketBus.Link
import PacketBus.Responder

/-! A device serves one request after the other.
Each step either offers bytes of the response under way or reads one byte, so a device never waits
and never reads while it has something to send.
-/

namespace PacketBus

/-- What one step of a device did. -/
inductive Device.Event where
  /-- There was nothing to read and nothing to send. -/
  | idle
  /-- A byte was read and the packet is not complete. -/
  | reading
  /-- A request was answered and its response is to be sent. -/
  | answered (command : UInt8)
  /-- A request came that no responder answered. -/
  | unanswered (command : UInt8)
  /-- The port refused a byte of the response. -/
  | blocked
  /-- The response was sent to its end. -/
  | sent
  /-- A frame was lost. -/
  | lost (failure : Packet.Failure)
  deriving DecidableEq, Repr

/-- A link, the responder to its requests and the response under way. -/
structure Device (P R : Type) where
  link : Link P
  responder : R
  response : Packet
  isSending : Bool := false

namespace Device

/-- A device on a link that builds its responses in a storage. -/
def onLink {P R : Type} (link : Link P) (responder : R) (storage : List UInt8) : Device P R :=
  { link, responder, response := Packet.ofStorage storage }

variable {P R ε : Type} [Responder R]

/-- Hands the packet received to the responder and begins to send the response. A responder that
accepts a request without building a response has nothing to send. -/
def serve (device : Device P R) : Except (Link.Failure ε) Event × Device P R :=
  let command := device.link.incoming.command?.getD 0
  let answer := Responder.respond device.responder device.link.incoming device.response.clear
  let after := { device with responder := answer.responder, response := answer.response }
  if answer.accepted && !answer.response.isEmpty then
    match device.link.prepare answer.response with
    | (.error e, link) => (.error (.packet e), { after with link })
    | (.ok response, link) =>
        (.ok (.answered command), { after with link, response, isSending := true })
  else (.ok (.unanswered command), after)

variable [Port P ε]

/-- Offers bytes of the response under way. -/
def stepSending (device : Device P R) : Except (Link.Failure ε) Event × Device P R :=
  let pushed := device.link.push device.response
  let after := { device with link := pushed.link, response := pushed.packet }
  match pushed.result with
  | .ok .complete => (.ok .sent, { after with isSending := false })
  | .ok .unfinished => (.ok .blocked, after)
  | .error e => (.error e, after)

/-- Reads one byte and serves the request that it completes. -/
def stepReading (device : Device P R) : Except (Link.Failure ε) Event × Device P R :=
  let (result, link) := device.link.receive
  let after := { device with link }
  match result with
  | .ok none => (.ok .idle, after)
  | .ok (some .unfinished) => (.ok .reading, after)
  | .ok (some .complete) => after.serve
  | .error (.packet e) =>
      if e.losesFrameOnly then (.ok (.lost e), after) else (.error (.packet e), after)
  | .error (.port fault) => (.error (.port fault), after)

/-- Does one step of work. -/
def step (device : Device P R) : Except (Link.Failure ε) Event × Device P R :=
  if device.isSending then device.stepSending else device.stepReading

/-- What a run of steps came to, or nothing if there is more to do. -/
structure Run (P R ε : Type) where
  events : List Event
  result? : Option (Except (Link.Failure ε) Unit)
  device : Device P R

/-- Goes on until there is nothing left to read or the port is full, `patience` steps at most. -/
def run (device : Device P R) : Nat → Run P R ε
  | 0 => ⟨[], none, device⟩
  | patience + 1 =>
      match device.step with
      | (.error e, after) => ⟨[], some (.error e), after⟩
      | (.ok .idle, after) => ⟨[], some (.ok ()), after⟩
      | (.ok .blocked, after) => ⟨[.blocked], some (.ok ()), after⟩
      | (.ok event, after) =>
          let rest := after.run patience
          { rest with events := event :: rest.events }

end Device

end PacketBus
