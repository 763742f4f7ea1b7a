import PacketBus.Proofs.Device.Steps
import PacketBus.Proofs.Link.Underway
import PacketBus.Proofs.Packet.Forgetting
import PacketBus.Proofs.Port.Schedule

/-! What a device sends and the bytes that are left in the storage of its responses.
A response is cleared before a responder fills it, so that what goes out is what the responder
stores, unless it leaves the place of the command to what was there.
-/

namespace PacketBus

variable {P R S ε : Type}

/-- A responder that fills in a response by a plan for each request. -/
structure PlanningResponder (S : Type) where
  state : S
  plan : S → (request : Packet) → Packet.Plan (Bool × S)

instance : Responder (PlanningResponder S) where
  respond r request response :=
    let (history, accepted, state) := (r.plan r.state request).play response
    ⟨accepted, response.after history, { r with state }⟩

/-- Whatever it is asked and whatever has become of it, the responder puts no payload behind a
command before it has stored anything in a response. -/
def PlanningResponder.StoresFirst (r : PlanningResponder S) : Prop :=
  ∀ state request (response : Packet),
    ¬response.clear.RecallsIn ((r.plan state request).play response.clear).1

-----------------------------------------------------------------------------------------
-- Sending
-----------------------------------------------------------------------------------------

theorem Packet.Resembles.nextByte {p q : Packet} (h : p.Resembles q) (link : Link P)
    : Meets (fun sent sent' => sent.1 = sent'.1 ∧ sent.2.Resembles sent'.2) (link.nextByte p)
        (link.nextByte q) := by
  unfold Link.nextByte
  cases link.held with
  | some byte => exact .done ⟨rfl, h⟩
  | none => exact h.emit

/-- The port is offered the same bytes of both, by the recursion of a push. -/
theorem Packet.Resembles.push [Port P ε] {p q : Packet} (h : p.Resembles q) (link : Link P)
    : (link.push p).result = (link.push q).result ∧ (link.push p).link = (link.push q).link
      ∧ (link.push p).packet.Resembles (link.push q).packet := by
  fun_induction Link.push link p generalizing q with
  | case1 link p failure failed =>
      rw [Link.push_of_no_byte ((h.nextByte link).of_error failed)]
      exact ⟨rfl, rfl, h⟩
  | case2 link p byte next offered fault port answered =>
      obtain ⟨⟨_, next'⟩, offered', rfl, later⟩ := (h.nextByte link).of_ok offered
      rw [Link.push_of_failed offered' answered]
      exact ⟨rfl, rfl, later⟩
  | case3 link p byte next offered port answered =>
      obtain ⟨⟨_, next'⟩, offered', rfl, later⟩ := (h.nextByte link).of_ok offered
      rw [Link.push_of_refused offered' answered]
      exact ⟨rfl, rfl, later⟩
  | case4 link p byte next offered port answered last =>
      obtain ⟨⟨_, next'⟩, offered', rfl, later⟩ := (h.nextByte link).of_ok offered
      rw [Link.push_of_last offered' answered last]
      exact ⟨rfl, rfl, later⟩
  | case5 link p byte next offered port answered more ih =>
      obtain ⟨⟨_, next'⟩, offered', rfl, later⟩ := (h.nextByte link).of_ok offered
      rw [Link.push_of_taken offered' answered more]
      exact ih later

namespace Device

-----------------------------------------------------------------------------------------
-- Devices that differ in what was left in their responses
-----------------------------------------------------------------------------------------

/-- Two devices differ in their responses alone, which matter only while one is sent. -/
structure Mirrors (device other : Device P R) : Prop where
  link : device.link = other.link
  responder : device.responder = other.responder
  isSending : device.isSending = other.isSending
  room : device.response.capacity = other.response.capacity
  sending : device.isSending = true → device.response.Resembles other.response

variable {device other : Device P (PlanningResponder S)}

/-- Both build the same response to the same request and begin to send it. -/
theorem Mirrors.serve (h : device.Mirrors other) (first : device.responder.StoresFirst)
    : (@serve P _ ε _ device).1 = (@serve P _ ε _ other).1
      ∧ (@serve P _ ε _ device).2.Mirrors (@serve P _ ε _ other).2
      ∧ (@serve P _ ε _ device).2.responder.StoresFirst := by
  have cleared := Packet.resembles_clear h.room
  have untouched := first device.responder.state device.link.incoming device.response
  obtain ⟨same, filled⟩ := cleared.play (Packet.IsSound.clear _) _ (.inr untouched)
  simp only [Device.serve, Responder.respond, ← h.link, ← h.responder, ← same]
  generalize (device.responder.plan _ _).play device.response.clear = played at filled
  obtain ⟨history, accepted, state⟩ := played
  have empty : (device.response.clear.after history).isEmpty
      = (other.response.clear.after history).isEmpty :=
    congrArg Packet.View.isEmpty filled.toAlike.view
  have meets := filled.rewind
  simp only [Link.prepare, ← empty]
  generalize device.response.clear.after history = response at filled meets
  generalize other.response.clear.after history = response' at filled meets
  split
  · generalize response.rewind = rewound at meets
    generalize response'.rewind = rewound' at meets
    cases meets with
    | failed => exact ⟨rfl, ⟨rfl, rfl, h.isSending, filled.room, fun _ => filled⟩, first⟩
    | done related => exact ⟨rfl, ⟨rfl, rfl, rfl, related.room, fun _ => related⟩, first⟩
  · exact ⟨rfl, ⟨rfl, rfl, h.isSending, filled.room, fun _ => filled⟩, first⟩

/-- A step of both brings the same, whether they send or read. -/
theorem Mirrors.step [Port P ε] (h : device.Mirrors other) (first : device.responder.StoresFirst)
    : device.step.1 = other.step.1 ∧ device.step.2.Mirrors other.step.2
      ∧ device.step.2.responder.StoresFirst := by
  cases busy : device.isSending with
  | true =>
      have busy' := h.isSending.symm.trans busy
      obtain ⟨result, link, next⟩ := (h.sending busy).push device.link
      simp only [Device.step, busy, busy', if_true, stepSending, ← h.link, ← result]
      split
      · exact ⟨rfl, ⟨link, h.responder, rfl, next.room, fun _ => next⟩, first⟩
      · exact ⟨rfl, ⟨link, h.responder, rfl, next.room, fun _ => next⟩, first⟩
      · exact ⟨rfl, ⟨link, h.responder, rfl, next.room, fun _ => next⟩, first⟩
  | false =>
      have idle' := h.isSending.symm.trans busy
      have heard : ({ device with link := device.link.receive.2 } : Device _ _).Mirrors
          { other with link := device.link.receive.2 } :=
        ⟨rfl, h.responder, h.isSending, h.room, h.sending⟩
      rw [step_of_idle busy, step_of_idle idle', ← h.link]
      rcases device.link.receive.1 with (e | fault) | _ | _ | _
      · exact ⟨rfl, heard, first⟩
      · exact ⟨rfl, heard, first⟩
      · exact ⟨rfl, heard, first⟩
      · exact ⟨rfl, heard, first⟩
      · exact heard.serve first

/-- By induction on the steps. -/
theorem Mirrors.polled [Port P ε] (h : device.Mirrors other) (first : device.responder.StoresFirst)
    (count : Nat)
    : (device.polled count).Mirrors (other.polled count)
      ∧ (device.polled count).responder.StoresFirst := by
  induction count generalizing device other with
  | zero => exact ⟨h, first⟩
  | succ count ih =>
      obtain ⟨_, later, first'⟩ := h.step first
      exact ih later first'

end Device

/-- A packet that is cleared keeps one byte of its past, the one in the place of the command, and so
does a new packet of its storage. Its owner learns nothing of the past but by an operation that puts
a payload behind that place before anything is stored, and then learns whether the byte is the same.
A device whose responder stores first does and sends the same with every past of its response. -/
theorem clear_leaves_the_command_place [Port P ε]
    : (∀ (p q : Packet) (history : List Packet.Operation), p.capacity = q.capacity
        → p.clear.view = q.clear.view
          ∧ (p.clear.transcript history = q.clear.transcript history
              ↔ p.storage.head? = q.storage.head? ∨ ¬p.clear.RecallsIn history))
      ∧ (∀ (storage storage' : List UInt8) (history : List Packet.Operation),
          storage.length = storage'.length
          → let p := Packet.ofStorage storage
            let q := Packet.ofStorage storage'
            p.view = q.view
            ∧ (p.transcript history = q.transcript history
                ↔ storage.head? = storage'.head? ∨ ¬p.RecallsIn history))
      ∧ ∀ (device : Device P (PlanningResponder S)) (response : Packet) (count : Nat),
          device.isSending = false → device.responder.StoresFirst
          → device.response.capacity = response.capacity
          → let other := { device with response }
            (device.polled count).step.1 = (other.polled count).step.1
            ∧ (device.polled count).link = (other.polled count).link
            ∧ (device.polled count).responder = (other.polled count).responder := by
  refine ⟨?_, ?_, ?_⟩
  · intro p q history room
    have cleared := Packet.resembles_clear room
    exact ⟨cleared.toAlike.view, cleared.transcript_eq_iff (Packet.IsSound.clear p) history⟩
  · intro storage storage' history room
    have new := Packet.resembles_ofStorage room
    exact ⟨new.toAlike.view, new.transcript_eq_iff (Packet.isSound_ofStorage storage) history⟩
  · intro device response count idle first room other
    have mirrors : device.Mirrors other :=
      ⟨rfl, rfl, rfl, room, fun busy => absurd (idle.symm.trans busy) Bool.false_ne_true⟩
    obtain ⟨mirrors', first'⟩ := mirrors.polled first count
    exact ⟨(mirrors'.step first').1, mirrors'.link, mirrors'.responder⟩

/-- Behind a message of the command 55 a payload is sent under that command, also where the message
was cleared or is what an unused storage begins with. A command that is stored first hides it, and a
device that answers a request in such a storage sends no byte of it. -/
theorem clear_leaves_the_command_place_to_a_payload
    : let used : Packet := { storage := [0x55, 0xAA, 0xBB, 0xCC], size := 4 }
      let unused : Packet := .ofStorage [0, 0, 0, 0]
      let recalling : List Packet.Operation := [.withPayload [0x07]]
      let storing : List Packet.Operation := [.withCommand 0x01, .withPayload [0x07]]
      let responder : PlanningResponder Unit :=
        { state := ()
          plan := fun _ request =>
            .perform (.withMessage 0x02 request.payload) fun _ _ => .finish (true, ()) }
      let port : ScheduledPort Unit :=
        { reads := [0xC0, 0x02, 0x09, 0x15, 0xC0].map fun byte => .ok (some byte) }
      let link : Link (ScheduledPort Unit) := .onPort port [0, 0, 0, 0]
      let device : Device (RecordedPort (ScheduledPort Unit) Unit) (PlanningResponder Unit) :=
        { link := Link.recorded link, responder, response := used }
      let other := { device with response := unused }
      used.clear.transcript recalling ≠ unused.clear.transcript recalling
      ∧ ((used.clear.after recalling).writeFrame (List.replicate 5 0)).1.buffer
          = Frame.wire [0x55, 0x07]
      ∧ ((unused.clear.after recalling).writeFrame (List.replicate 5 0)).1.buffer
          = Frame.wire [0x00, 0x07]
      ∧ used.clear.transcript storing = unused.clear.transcript storing
      ∧ (Packet.ofStorage used.storage).transcript recalling ≠ unused.transcript recalling
      ∧ (device.polled 6).link = (other.polled 6).link
      ∧ (device.polled 6).link.port.accepted = Frame.wire [0x02, 0x09] := by
  intro used unused recalling storing responder port link device other
  obtain ⟨cleared, new, answered⟩ :=
    clear_leaves_the_command_place (P := RecordedPort (ScheduledPort Unit) Unit) (S := Unit)
  have recalls : used.clear.RecallsIn recalling := ⟨rfl, .inl ⟨rfl, by decide⟩⟩
  have stores : ¬used.clear.RecallsIn storing :=
    fun ⟨_, either⟩ => either.elim id fun ⟨empty, _⟩ => absurd empty (by decide)
  have first : responder.StoresFirst := fun _ _ _ ⟨_, either⟩ => either.elim id id
  have differ : used.storage.head? ≠ unused.storage.head? := by decide
  refine ⟨?_, by decide +kernel, by decide +kernel, ?_, ?_, ?_, by decide +kernel⟩
  · exact fun same => ((cleared used unused recalling rfl).2.mp same).elim differ (· recalls)
  · exact (cleared used unused storing rfl).2.mpr (.inr stores)
  · exact fun same => ((new used.storage [0, 0, 0, 0] recalling rfl).2.mp same).elim differ (· recalls)
  · exact (answered device unused 6 rfl first rfl).2.1

end PacketBus
