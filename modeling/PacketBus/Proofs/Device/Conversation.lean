import PacketBus.Responder
import PacketBus.Proofs.Emission.Outstanding
import PacketBus.Proofs.Packet.Soundness
import PacketBus.Proofs.Stream.RoundTrip

/-! The conversation that a stream of bytes leads to, where no port and no time has a part in it.
Each packet that the stream completes is answered once, and its answer is sent to the end before
the next byte is looked at.
-/

namespace PacketBus

open PacketBus.Frame (wire)

-----------------------------------------------------------------------------------------
-- Responders that keep a response sound
-----------------------------------------------------------------------------------------

/-- A responder changes a response only in ways in which packets can be changed. -/
class LawfulResponder (R : Type) [Responder R] : Prop where
  isSound (responder : R) (request : Packet) {response : Packet} (sound : response.IsSound)
    : (Responder.respond responder request response).response.IsSound

theorem Packet.IsSound.clear (p : Packet)
    : p.clear.IsSound :=
  ⟨Nat.zero_le _, nofun⟩

instance : LawfulResponder Service where
  isSound service request response sound := by
    simp only [Responder.respond]
    split
    · cases built : response.withMessage service.command (service.reply request) with
      | ok filled => exact Packet.IsSound.withMessage built
      | error _ => exact sound
    · exact sound

/-- A chain is as lawful as its members, by induction on the chain. -/
theorem Chain.isSound_respond {R : Type} [Responder R] [LawfulResponder R] (chain : Chain R)
    (request : Packet) {response : Packet} (sound : response.IsSound)
    : (chain.respond request response).response.IsSound := by
  induction chain generalizing response with
  | single responder => exact LawfulResponder.isSound responder request sound
  | orElse first second tried next =>
      simp only [Chain.respond]
      split
      · exact tried sound
      · exact next (tried sound)

instance {R : Type} [Responder R] [LawfulResponder R] : LawfulResponder (Chain R) where
  isSound chain request _ sound := chain.isSound_respond request sound

-----------------------------------------------------------------------------------------
-- Answering a stream
-----------------------------------------------------------------------------------------

/-- A responder, the packet of its responses, and all that was sent of them. -/
structure Conversation (R : Type) where
  responder : R
  response : Packet
  sent : List UInt8 := []

namespace Conversation

variable {R : Type} [Responder R]

/-- Hands a request to the responder, with a response that holds nothing, and sends what the
responder built, if it accepted the request and built anything. -/
def answer (c : Conversation R) (request : Packet) : Conversation R :=
  let answer := Responder.respond c.responder request c.response.clear
  if answer.accepted && !answer.response.isEmpty then
    let body := answer.response.body
    { responder := answer.responder
      response := { answer.response with emitter := .closed body }
      sent := c.sent ++ wire body }
  else { c with responder := answer.responder, response := answer.response }

/-- The conversation over a stream of bytes that is received into a packet. -/
def upTo (c : Conversation R) (incoming : Packet) (input : List UInt8) : Conversation R :=
  (Packet.completed (incoming.trace input)).foldl answer c

theorem upTo_append (c : Conversation R) (incoming : Packet) (front back : List UInt8)
    : c.upTo incoming (front ++ back) = (c.upTo incoming front).upTo (incoming.fed front) back := by
  simp only [upTo, Packet.completed, Packet.trace_append, List.filterMap_append, List.foldl_append]

/-- What was sent stays sent. -/
theorem sent_answer (c : Conversation R) (request : Packet)
    : c.sent <+: (c.answer request).sent := by
  simp only [answer]
  split
  · exact List.prefix_append _ _
  · exact List.prefix_rfl

/-- A stream adds to what was sent before it, by induction on the packets that it completes. -/
theorem sent_upTo (c : Conversation R) (incoming : Packet) (input : List UInt8)
    : c.sent <+: (c.upTo incoming input).sent := by
  unfold upTo
  generalize Packet.completed (incoming.trace input) = requests
  induction requests generalizing c with
  | nil => exact List.prefix_rfl
  | cons request rest ih => exact (c.sent_answer request).trans (ih (c.answer request))

theorem sent_upTo_mono (c : Conversation R) (incoming : Packet) {heard input : List UInt8}
    (part : heard <+: input)
    : (c.upTo incoming heard).sent <+: (c.upTo incoming input).sent := by
  obtain ⟨more, rfl⟩ := part
  rw [upTo_append]
  exact sent_upTo _ _ _

end Conversation

end PacketBus
