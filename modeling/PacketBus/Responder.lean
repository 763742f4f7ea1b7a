import PacketBus.Command
import PacketBus.Packet.Build

/-! Responders answer requests, and a chain of them answers like its first member that can.
A responder may carry state, and what it leaves in the response stays there when it declines.
-/

namespace PacketBus

/-- What a responder made of a request. -/
structure Answer (R : Type) where
  /-- The request was recognised and the response is to be sent. -/
  accepted : Bool
  response : Packet
  /-- The responder as it is afterwards. -/
  responder : R

/-- Something that answers requests. -/
class Responder (R : Type) where
  /-- Looks at a request and may fill in a response. -/
  respond : R → (request response : Packet) → Answer R

/-- Responders joined in pairs, each of which may be a pair again. -/
inductive Chain (R : Type) where
  | single (responder : R)
  | orElse (first second : Chain R)
  deriving Repr

namespace Chain

variable {R : Type}

/-- The members of a chain in the order they are asked. -/
def members : Chain R → List R
  | single responder => [responder]
  | orElse first second => first.members ++ second.members

variable [Responder R]

/-- Asks the first part, and the second only if the first declines. -/
def respond (request : Packet) : Chain R → Packet → Answer (Chain R)
  | single responder, response =>
      let answer := Responder.respond responder request response
      ⟨answer.accepted, answer.response, single answer.responder⟩
  | orElse first second, response =>
      let tried := respond request first response
      if tried.accepted then ⟨true, tried.response, orElse tried.responder second⟩
      else
        let answer := respond request second tried.response
        ⟨answer.accepted, answer.response, orElse tried.responder answer.responder⟩

instance : Responder (Chain R) where
  respond chain request response := chain.respond request response

end Chain

/-- The answer of a responder that accepts a request exactly if it could build a response. -/
def Answer.ofBuilt {R : Type} (responder : R) (response : Packet)
    : Except Packet.Failure Packet → Answer R
  | .ok built => ⟨true, built, responder⟩
  | .error _ => ⟨false, response, responder⟩

/-- The services of a device that keep no state. -/
inductive Service where
  /-- Answers a ping with an empty ping. -/
  | ping
  /-- Sends the payload of an echo request back. -/
  | echo
  deriving DecidableEq, Repr

namespace Service

/-- The command that a service answers. -/
def command : Service → UInt8
  | ping => Command.ping
  | echo => Command.echo

/-- The payload that a service answers with. -/
def reply (request : Packet) : Service → List UInt8
  | ping => []
  | echo => request.payload

instance : Responder Service where
  respond service request response :=
    if request.command? = some service.command then
      .ofBuilt service response (response.withMessage service.command (service.reply request))
    else ⟨false, response, service⟩

end Service

end PacketBus
