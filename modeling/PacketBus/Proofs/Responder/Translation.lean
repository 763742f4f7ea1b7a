import PacketBus.Proofs.Device.Polling

/-! Responders that give the same answers.
A run of requests and a device see nothing of a responder but its answers, so with a responder that
gives the same ones they come to the same.
-/

namespace PacketBus

variable {P R S ε : Type}

/-- The answer with another responder in the place of the one that gave it. -/
def Answer.map (image : R → S) (answer : Answer R) : Answer S :=
  ⟨answer.accepted, answer.response, image answer.responder⟩

/-- The device with the image of its responder. -/
def Device.servedBy (image : R → S) (device : Device P R) : Device P S :=
  { device with responder := image device.responder }

variable [Responder R] [Responder S]

/-- A responder and its image give the same answers, now and later. -/
structure Responder.Translates (image : R → S) : Prop where
  respond
    : ∀ responder request response,
        Responder.respond (image responder) request response
          = (Responder.respond responder request response).map image

/-- What a responder makes of a number of requests, each with the response that it is given for it,
and the responder behind them. -/
def Responder.serveEach (responder : R) : List (Packet × Packet) → List (Bool × Packet) × R
  | [] => ([], responder)
  | (request, response) :: rest =>
      let answer := Responder.respond responder request response
      let later := serveEach answer.responder rest
      ((answer.accepted, answer.response) :: later.1, later.2)

variable {image : R → S}

/-- By induction on the requests. -/
theorem Responder.Translates.serveEach (same : Responder.Translates image) (responder : R)
    (requests : List (Packet × Packet))
    : Responder.serveEach (image responder) requests
      = ((Responder.serveEach responder requests).1,
          image (Responder.serveEach responder requests).2) := by
  induction requests generalizing responder with
  | nil => rfl
  | cons asked rest ih =>
      simp only [Responder.serveEach, same.respond, Answer.map, ih]

/-- A device hands a request to its responder, and all else that it does is its own. -/
theorem Responder.Translates.serve (same : Responder.Translates image) (device : Device P R)
    : @Device.serve P S ε _ (device.servedBy image)
      = ((@Device.serve P R ε _ device).1, (@Device.serve P R ε _ device).2.servedBy image) := by
  rcases answered : Responder.respond device.responder device.link.incoming device.response.clear
    with ⟨accepted, response, responder⟩
  simp only [Device.serve, Device.servedBy, same.respond, Answer.map, answered]
  split
  · rcases device.link.prepare response with ⟨failure | response, link⟩
    · rfl
    · rfl
  · rfl

theorem Responder.Translates.step [Port P ε] (same : Responder.Translates image)
    (device : Device P R)
    : (device.servedBy image).step = (device.step.1, device.step.2.servedBy image) := by
  cases sending : device.isSending with
  | true =>
      simp only [Device.step, Device.servedBy, sending, if_true, Device.stepSending]
      split
      · rfl
      · rfl
      · rfl
  | false =>
      simp only [Device.step, Device.servedBy, sending, Bool.false_eq_true, if_false,
        Device.stepReading]
      rcases device.link.receive with ⟨(e | fault) | _ | _ | _, link⟩
      · simp only
        split
        · rfl
        · rfl
      · rfl
      · rfl
      · rfl
      · exact same.serve { device with link, isSending := false }

/-- By induction on the steps. -/
theorem Responder.Translates.polled [Port P ε] (same : Responder.Translates image)
    (device : Device P R) (count : Nat)
    : (device.servedBy image).polled count = (device.polled count).servedBy image := by
  induction count generalizing device with
  | zero => rfl
  | succ count ih => rw [Device.polled, Device.polled, same.step, ih]

end PacketBus
