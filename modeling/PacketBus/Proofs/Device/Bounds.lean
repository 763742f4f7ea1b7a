import PacketBus.Proofs.Device.Turns
import PacketBus.Proofs.Emission.WholeFrames
import PacketBus.Proofs.Link.Leftover
import PacketBus.Proofs.Packet.Representation

/-! How much a device does before it returns.
A poll reads once or offers no more than one frame of its response, with one byte more where the
owner has left a byte of another packet on the link. A run ends with the bytes that can be read:
each of them takes one poll, and the response to the request that it may complete one more.
-/

namespace PacketBus

open PacketBus.Frame (wire)

variable {P R ε : Type}

-----------------------------------------------------------------------------------------
-- Responders that keep to the storage of a response
-----------------------------------------------------------------------------------------

/-- What a responder makes of a response is what operations of an owner make of it. -/
class OperatingResponder (R : Type) [Responder R] : Prop extends LawfulResponder R where
  history (responder : R) (request response : Packet)
    : ∃ operations,
        (Responder.respond responder request response).response = response.after operations

instance : OperatingResponder Service where
  history service request response := by
    simp only [Responder.respond]
    split
    · refine ⟨[.withMessage service.command (service.reply request)], ?_⟩
      cases built : response.withMessage service.command (service.reply request) with
      | ok filled => simp [Answer.ofBuilt, Packet.perform, Packet.settle, built]
      | error failure => simp [Answer.ofBuilt, Packet.perform, Packet.settle, built]
    · exact ⟨[], rfl⟩

/-- A member that declines leaves its operations before those of the next one; by induction on the
chain. -/
theorem Chain.history_respond [Responder R] [OperatingResponder R] (chain : Chain R)
    (request response : Packet)
    : ∃ operations, (chain.respond request response).response = response.after operations := by
  induction chain generalizing response with
  | single responder => exact OperatingResponder.history responder request response
  | orElse first second tried next =>
      obtain ⟨early, left⟩ := tried response
      simp only [Chain.respond]
      split
      · exact ⟨early, left⟩
      · obtain ⟨late, made⟩ := next (response.after early)
        exact ⟨early ++ late, by rw [left, made, Packet.after_append]⟩

instance [Responder R] [OperatingResponder R] : OperatingResponder (Chain R) where
  history chain request response := chain.history_respond request response

instance {S : Type} : OperatingResponder (FreeResponder S) where
  history responder request response :=
    ⟨(responder.choose responder.state request response).1, rfl⟩

namespace Packet

/-- A response is built in the storage that it is given. -/
theorem capacity_respond [Responder R] [OperatingResponder R] (responder : R)
    (request response : Packet)
    : (Responder.respond responder request response.clear).response.capacity
      = response.capacity := by
  obtain ⟨operations, made⟩ := OperatingResponder.history responder request response.clear
  rw [made, (response.isConsistent_clear.after operations).2]
  rfl

end Packet

/-- A port that holds a number of unread bytes gets no more of them while it is called, and it finds
nothing to read only when none is left. What it does when it fails to read is left open. -/
structure Port.Stores [Port P ε] (holds : P → Nat → Prop) : Prop where
  read_byte
    : ∀ {port unread byte}, holds port unread → (Port.read port).1 = .ok (some byte)
      → ∃ fewer, unread = fewer + 1 ∧ holds (Port.read port).2 fewer
  read_nothing
    : ∀ {port unread}, holds port unread → (Port.read port).1 = .ok none → unread = 0
  write : ∀ {port unread} byte, holds port unread → holds (Port.write port byte).2 unread

/-- The bytes that the reads of a schedule are going to bring. -/
def ScheduledPort.unread (port : ScheduledPort ε) : List UInt8 :=
  port.reads.filterMap fun answer => answer.toOption.join

/-- A schedule may count as unread what its reads bring, if each of them brings a byte or fails. -/
theorem ScheduledPort.stores
    : Port.Stores fun (port : ScheduledPort ε) unread =>
        .ok none ∉ port.reads ∧ port.unread.length = unread where
  read_byte {port unread byte} held answered := by
    obtain ⟨whole, rfl⟩ := held
    cases reads : port.reads with
    | nil => simp [Port.read, reads] at answered
    | cons answer rest =>
        obtain rfl : answer = .ok (some byte) := by simpa [Port.read, reads] using answered
        have left : (Port.read port).2.reads = rest := congrArg List.tail reads
        rw [reads, List.mem_cons, not_or] at whole
        have shorter : port.unread.length = (Port.read port).2.unread.length + 1 := by
          simp [ScheduledPort.unread, reads, left, Except.toOption]
        exact ⟨_, shorter, left ▸ whole.2, rfl⟩
  read_nothing {port unread} held answered := by
    obtain ⟨whole, rfl⟩ := held
    cases reads : port.reads with
    | nil => simp [ScheduledPort.unread, reads]
    | cons answer rest =>
        obtain rfl : answer = .ok none := by simpa [Port.read, reads] using answered
        simp [reads] at whole
  write _ held := held

namespace Device

-----------------------------------------------------------------------------------------
-- What a device owes
-----------------------------------------------------------------------------------------

/-- The device sends, and in front of its whole response its link holds a byte of another packet. -/
def isPreceded (device : Device P R) : Bool :=
  device.isSending && device.link.precedes device.response

/-- The response lies in a storage of this size, and one that is sent is under way. -/
structure OwesWithin (device : Device P R) (room : Nat) : Prop where
  capacity : device.response.capacity = room
  underway : device.isSending = true → device.response.IsUnderway

variable {device : Device (RecordedPort P ε) R} {room : Nat}

/-- A frame has two delimiters, and its body and checksum take two places a byte at most. -/
theorem OwesWithin.length_wire_le (h : device.OwesWithin room)
    (sized : device.response.size ≤ device.response.capacity)
    : (wire device.response.body).length ≤ 2 * room + 4 := by
  have body : device.response.body.length ≤ room := by
    rw [Packet.length_body sized, ← h.capacity]
    exact Nat.le_trans device.response.bodySize_le sized
  have bounds := Packet.frameSize_bounds device.response
  rw [Frame.length_wire]
  simp only [Packet.frameSize] at bounds
  omega

-----------------------------------------------------------------------------------------
-- What a poll spends
-----------------------------------------------------------------------------------------

/-- What a poll of a device that sends nothing comes to, by the answer to its one read. A byte that
the link holds is given up for a response, or stays. -/
inductive Listens [Port P ε] (device : Device (RecordedPort P ε) R)
    : Except (Link.Failure ε) Event → Device (RecordedPort P ε) R → Prop
  | nothing {after} (answered : (Port.read device.link.port).1 = .ok none)
    (silent : after.isSending = false)
    : device.Listens (.ok .idle) after
  | byte {byte event after} (answered : (Port.read device.link.port).1 = .ok (some byte))
    (busy : event ≠ .idle) (free : event ≠ .blocked)
    (held : after.link.held = none ∨ after.link.held = device.link.held)
    : device.Listens (.ok event) after
  | fault {fault after} (answered : (Port.read device.link.port).1 = .error fault)
    : device.Listens (.error (.port fault)) after

/-- What a poll of a device that sends comes to, with the calls it makes. -/
inductive Offers (device : Device (RecordedPort P ε) R) (calls : List (Port.Call ε))
    : Except (Link.Failure ε) Event → Device (RecordedPort P ε) R → Prop
  | sent {after} (silent : after.isSending = false) (free : after.link.held = none)
    : device.Offers calls (.ok .sent) after
  | refused {byte after} (busy : after.isSending = true)
    (known : byte ∈ wire after.response.body ∨ device.link.held.map (·.value) = some byte)
    (last : calls.getLast? = some (.write byte (.ok false)))
    : device.Offers calls (.ok .blocked) after
  | failed {failure after} : device.Offers calls (.error failure) after

section Polls

variable [Responder R] [Port P ε]

/-- A device that sends nothing reads once, and a response that it begins is under way with nothing
in front of it. -/
theorem OwesWithin.listens [OperatingResponder R] (h : device.OwesWithin room)
    (idle : device.isSending = false)
    : device.Listens device.step.1 device.step.2
      ∧ device.step.2.OwesWithin room ∧ device.step.2.isPreceded = false := by
  obtain ⟨result, incoming, received, reads⟩ := device.link.receive_reads
  have quiet : OwesWithin
      { device with link := { device.link with port := (Port.read device.link.port).2, incoming } }
      room :=
    ⟨h.capacity, fun busy => absurd (idle.symm.trans busy) Bool.false_ne_true⟩
  have silent {link : Link (RecordedPort P ε)} : isPreceded { device with link } = false := by
    simp [isPreceded, idle]
  rw [step_of_idle idle, received]
  cases reads with
  | failed answered => exact ⟨.fault answered, quiet, silent⟩
  | nothing answered => exact ⟨.nothing answered idle, quiet, silent⟩
  | unfinished answered taken =>
      exact ⟨.byte answered (by simp) (by simp) (.inr rfl), quiet, silent⟩
  | lost answered taken harmless =>
      exact ⟨.byte answered (by simp) (by simp) (.inr rfl), quiet, silent⟩
  | complete answered taken long =>
      have capacity :=
        (Packet.capacity_respond device.responder incoming device.response).trans h.capacity
      simp only
      rcases serve_cases { device with
          link := { device.link with port := (Port.read device.link.port).2, incoming } }
        with ⟨_, emitter, writes, served⟩ | ⟨_, served⟩
      · rw [served]
        refine ⟨.byte answered (by simp) (by simp) (.inl rfl),
          ⟨capacity, fun _ => writes.isUnderway⟩, ?_⟩
        simp [isPreceded, Link.precedes]
      · rw [served]
        refine ⟨.byte answered (by simp) (by simp) (.inr rfl),
          ⟨capacity, fun busy => absurd (idle.symm.trans busy) Bool.false_ne_true⟩, ?_⟩
        simp [isPreceded, idle]

/-- A device that sends offers bytes of one frame at most, behind a byte that comes in front of it;
unless that byte is refused again, nothing is left in front of the response. -/
theorem OwesWithin.offers (h : device.OwesWithin room) (busy : device.isSending = true)
    : device.step.2.OwesWithin room
      ∧ (device.step.2.isPreceded = true → device.isPreceded = true)
      ∧ ∃ calls, device.step.2.link.port.calls = device.link.port.calls ++ calls
        ∧ calls ≠ [] ∧ (∀ call ∈ calls, call.IsWrite)
        ∧ calls.length ≤ 2 * room + 4 + device.isPreceded.toNat
        ∧ device.Offers calls device.step.1 device.step.2 := by
  have underway := h.underway busy
  have frame := h.length_wire_le underway.sized
  have spends := device.link.spends_push underway
  have complete := @Link.held_of_complete _ _ device.link device.response _
  have preceded : device.isPreceded = device.link.precedes device.response := by
    rw [isPreceded, busy, Bool.true_and]
  rw [step_of_push busy, preceded]
  generalize device.link.push device.response = pushed at spends complete ⊢
  obtain @⟨calls, result, port, held, emitter, some, written, few, stops⟩ := spends
  have bound : calls.length ≤ 2 * room + 4 + (device.link.precedes device.response).toNat :=
    Nat.le_trans few (Nat.add_le_add_right frame _)
  have alike {after : Device (RecordedPort P ε) R} (left : after.isPreceded = true)
      : after.link.precedes after.response = true :=
    ((Bool.and_eq_true ..).mp left).2
  cases stops with
  | complete =>
      exact ⟨⟨h.capacity, nofun⟩, nofun, calls, rfl, some, written, bound,
        .sent rfl (complete rfl)⟩
  | @kept byte _ _ _ before still same last =>
      refine ⟨⟨h.capacity, fun _ => same ▸ underway⟩, fun left => ?_, calls, rfl, some, written,
        bound, .refused busy (.inr (by rw [before]; rfl)) last⟩
      have left := alike left
      rwa [same, Link.precedes_of_held_eq still] at left
  | refused own last underway free =>
      refine ⟨⟨h.capacity, fun _ => underway⟩, fun left => ?_, calls, rfl, some, written, bound,
        .refused busy (.inl own) last⟩
      cases (alike left).symm.trans free
  | failed underway free =>
      refine ⟨⟨h.capacity, fun _ => underway⟩, fun left => ?_, calls, rfl, some, written, bound,
        .failed⟩
      cases (alike left).symm.trans free

end Polls

section Runs

variable [Responder R] [Port P ε]

/-- How a run ends that begins with a number of bytes unread: there is nothing left to read, or no
room to write, or something failed. -/
inductive RunsOut (device : Device (RecordedPort P ε) R) (unread : Nat)
    : Run (RecordedPort P ε) R ε → Prop
  | drained {events last} (silent : last.isSending = false)
    (heard : last.link.port.delivered.length = device.link.port.delivered.length + unread)
    (asked : last.link.port.calls.getLast? = some (.read (.ok none)))
    : device.RunsOut unread ⟨events, some (.ok ()), last⟩
  | refused {events byte last} (busy : last.isSending = true)
    (blocked : events.getLast? = some .blocked)
    (known : byte ∈ wire last.response.body ∨ device.link.held.map (·.value) = some byte)
    (offered : last.link.port.calls.getLast? = some (.write byte (.ok false)))
    : device.RunsOut unread ⟨events, some (.ok ()), last⟩
  | failed {events failure last} : device.RunsOut unread ⟨events, some (.error failure), last⟩

omit [Responder R] [Port P ε] in
/-- What was read before counts for the whole run, and a byte that is still held was held
before. -/
theorem RunsOut.later {after : Device (RecordedPort P ε) R} {unread fewer : Nat}
    {rest : Run (RecordedPort P ε) R ε} (h : after.RunsOut fewer rest)
    (heard
      : after.link.port.delivered.length + fewer = device.link.port.delivered.length + unread)
    (held : after.link.held = none ∨ after.link.held = device.link.held) (event : Event)
    : device.RunsOut unread { rest with events := event :: rest.events } := by
  cases h with
  | drained silent heard' asked => exact .drained silent (heard'.trans heard) asked
  | @refused events byte last busy blocked known offered =>
      have before
          : byte ∈ wire last.response.body ∨ device.link.held.map (·.value) = some byte := by
        rcases known with own | other
        · exact .inl own
        · rcases held with free | same
          · simp [free] at other
          · exact .inr (same ▸ other)
      refine .refused busy ?_ before offered
      rw [List.getLast?_cons, blocked]
      rfl
  | failed => exact .failed

variable {holds : P → Nat → Prop} {unread patience : Nat}

omit [Responder R] [Port P ε] in
/-- A run that has run out has a result, and without a failure there is nothing left to read, or no
room for a byte of the response or for the one held before. -/
theorem RunsOut.result {ended : Run (RecordedPort P ε) R ε} (h : device.RunsOut unread ended)
    : ∃ result, ended.result? = some result
        ∧ (result = .ok ()
          → ended.device.isSending = false
              ∧ ended.device.link.port.delivered.length
                = device.link.port.delivered.length + unread
              ∧ ended.device.link.port.calls.getLast? = some (.read (.ok none))
            ∨ ended.device.isSending = true ∧ ended.events.getLast? = some .blocked
              ∧ ∃ byte,
                ended.device.link.port.calls.getLast? = some (.write byte (.ok false))
                ∧ (byte ∈ wire ended.device.response.body
                  ∨ device.link.held.map (·.value) = some byte)) := by
  cases h with
  | drained silent heard asked => exact ⟨_, rfl, fun _ => .inl ⟨silent, heard, asked⟩⟩
  | refused busy blocked known offered =>
      exact ⟨_, rfl, fun _ => .inr ⟨busy, blocked, _, offered, known⟩⟩
  | failed => exact ⟨_, rfl, nofun⟩

end Runs

/-- A device has taken up a ping and has a response of reserved bytes to send, which fills its
storage. Before the first byte of it the owner begins to write a packet of his own, over a port that
answers the writes in this order. -/
def interrupted (writes : List (Except Unit Bool))
    : Device (RecordedPort (ScheduledPort Unit) Unit) (FreeResponder Unit) :=
  let ping : List UInt8 := [0xC0, 0x01, 0x07, 0xC0]
  let port : ScheduledPort Unit := { reads := ping.map fun byte => .ok (some byte), writes }
  let reserved : FreeResponder Unit :=
    { state := ()
      choose := fun _ _ _ => ([.withMessage 0xC0 [0xC0, 0xC0, 0xC0, 0xC0]], true, ()) }
  let start := onLink { port := { port }, incoming := .ofStorage [0, 0] } reserved [0, 0, 0, 0, 0]
  let asked := start.step.2.step.2.step.2.step.2
  let other : Packet := { storage := [0x01], size := 1 }
  { asked with link := ((asked.link.prepare other).2.push other).link }

end Device

end PacketBus
