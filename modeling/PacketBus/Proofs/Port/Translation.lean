import PacketBus.Device
import PacketBus.Proofs.Link.Writing

/-! Ports that give the same answers.
A link and a device see nothing of a port but its answers, so over a port that gives the same ones
they come to the same; a record of the port is one that they never notice.
-/

namespace PacketBus

/-- A port and its image give the same answers to calls that move bytes. -/
structure Port.Translates {P Q ε : Type} [Port P ε] [Port Q ε] (image : P → Q) : Prop where
  read : ∀ port, Port.read (image port) = ((Port.read port).1, image (Port.read port).2)
  write
    : ∀ port byte,
        Port.write (image port) byte = ((Port.write port byte).1, image (Port.write port byte).2)

theorem RecordedPort.translates_port {P ε : Type} [Port P ε]
    : Port.Translates (RecordedPort.port : RecordedPort P ε → P) :=
  ⟨fun _ => rfl, fun _ _ => rfl⟩

variable {P Q R ε : Type}

/-- The link over the image of its port. -/
def Link.onto (image : P → Q) (link : Link P) : Link Q :=
  { link with port := image link.port }

/-- The device over the image of its port. -/
def Device.onto (image : P → Q) (device : Device P R) : Device Q R :=
  { device with link := device.link.onto image }

variable [Port P ε] [Port Q ε] {image : P → Q}

/-- A read goes by the answer of the port. -/
theorem Link.receive_onto_of_read {link : Link P}
    (read : Port.read (image link.port) = ((Port.read link.port).1, image (Port.read link.port).2))
    : (link.onto image).receive = (link.receive.1, link.receive.2.onto image) := by
  simp only [receive, onto, read]
  rcases Port.read link.port with ⟨fault | _ | byte, port⟩
  · rfl
  · rfl
  · simp only
    rcases link.incoming.receive byte with ⟨failure | status, incoming⟩
    · rfl
    · rfl

theorem Link.receive_onto (same : Port.Translates image) (link : Link P)
    : (link.onto image).receive = (link.receive.1, link.receive.2.onto image) :=
  receive_onto_of_read (same.read link.port)

/-- By the recursion of a push. -/
theorem Link.push_onto (same : Port.Translates image) (link : Link P) (packet : Packet)
    : (link.onto image).push packet
      = ⟨(link.push packet).result, (link.push packet).link.onto image,
          (link.push packet).packet⟩ := by
  have write {port next : P} {byte : UInt8} {answer : Except ε Bool}
      (answered : Port.write port byte = (answer, next))
      : Port.write (image port) byte = (answer, image next) := by
    rw [same.write, answered]
  have offer {link : Link P} {packet : Packet} {offered : Except Packet.Failure (WireByte × Packet)}
      (next : link.nextByte packet = offered)
      : (link.onto image).nextByte packet = offered := next
  fun_induction Link.push link packet with
  | case1 link packet failure failed => exact push_of_no_byte (offer failed)
  | case2 link packet byte next offered fault port answered =>
      exact push_of_failed (offer offered) (write answered)
  | case3 link packet byte next offered port answered =>
      exact push_of_refused (offer offered) (write answered)
  | case4 link packet byte next offered port answered last =>
      exact push_of_last (offer offered) (write answered) last
  | case5 link packet byte next offered port answered more ih =>
      exact (push_of_taken (offer offered) (write answered) more).trans ih

omit [Port P ε] [Port Q ε] in
theorem Device.serve_onto [Responder R] (device : Device P R)
    : @Device.serve Q R ε _ (device.onto image)
      = ((@Device.serve P R ε _ device).1, (@Device.serve P R ε _ device).2.onto image) := by
  rcases answered : Responder.respond device.responder device.link.incoming device.response.clear
    with ⟨accepted, response, responder⟩
  simp only [serve, onto, Link.onto, Link.prepare, answered]
  split
  · rcases response.rewind with failure | response
    · rfl
    · rfl
  · rfl

theorem Device.step_onto [Responder R] (same : Port.Translates image) (device : Device P R)
    : (device.onto image).step = (device.step.1, device.step.2.onto image) := by
  have push := Link.push_onto same device.link device.response
  have receive := Link.receive_onto same device.link
  cases sending : device.isSending with
  | true =>
      simp only [step, onto, sending, if_true, stepSending, push]
      split
      · rfl
      · rfl
      · rfl
  | false =>
      simp only [step, onto, sending, Bool.false_eq_true, if_false, stepReading, receive]
      rcases device.link.receive with ⟨(e | fault) | _ | _ | _, link⟩
      · simp only
        split
        · rfl
        · rfl
      · rfl
      · rfl
      · rfl
      · exact serve_onto { device with link, isSending := false }

end PacketBus
