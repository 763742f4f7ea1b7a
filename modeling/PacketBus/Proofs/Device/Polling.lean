import PacketBus.Device
import PacketBus.Proofs.Reception.Running

/-! A device that is polled a number of times in a row.
While the bytes it reads complete no packet, a device only reads: its responder, its response and
what it may write stay as they are. A packet that they complete is handed to the responder.
-/

namespace PacketBus

section Reads

variable {P ε : Type}

/-- The bytes among the answers of a port to reads. -/
def Port.delivered (answers : List (Except ε (Option UInt8))) : List UInt8 :=
  answers.filterMap fun answer =>
    match answer with
    | .ok byte? => byte?
    | .error _ => none

theorem Port.delivered_cons (answer : Except ε (Option UInt8))
    (rest : List (Except ε (Option UInt8)))
    : (Port.delivered [answer] = [] ∧ Port.delivered (answer :: rest) = Port.delivered rest)
      ∨ ∃ byte, answer = .ok (some byte)
        ∧ Port.delivered (answer :: rest) = byte :: Port.delivered rest := by
  cases answer with
  | error fault => exact .inl ⟨rfl, rfl⟩
  | ok byte? =>
      cases byte? with
      | none => exact .inl ⟨rfl, rfl⟩
      | some byte => exact .inr ⟨byte, rfl, rfl⟩

variable [Port P ε]

/-- What a port answers to a number of reads in a row, and the port behind them. -/
def Port.reads (port : P) : Nat → List (Except ε (Option UInt8)) × P
  | 0 => ([], port)
  | count + 1 =>
      let rest := reads (Port.read port).2 count
      ((Port.read port).1 :: rest.1, rest.2)

end Reads

namespace Device

variable {P R ε : Type} [Responder R] [Port P ε]

/-- The device behind a number of steps, whatever these bring. -/
def polled (device : Device P R) : Nat → Device P R
  | 0 => device
  | count + 1 => device.step.2.polled count

omit [Responder R] in
/-- The packet that the next step hands to the responder. -/
def request? (device : Device P R) : Option Packet :=
  if device.isSending then none
  else
    match device.link.receive with
    | (.ok (some .complete), link) => some link.incoming
    | _ => none

/-- The packets that a number of steps hand to the responder, in order. -/
def requests (device : Device P R) : Nat → List Packet
  | 0 => []
  | count + 1 => device.request?.toList ++ device.step.2.requests count

variable {device : Device P R}

-----------------------------------------------------------------------------------------
-- One step
-----------------------------------------------------------------------------------------

theorem step_of_request? {request : Packet} (requested : device.request? = some request)
    : ∃ link : Link P, link.incoming = request
        ∧ device.step = ({ device with link } : Device P R).serve := by
  unfold request? at requested
  split at requested
  · cases requested
  · next idle =>
      split at requested
      · next link received =>
          refine ⟨link, Option.some.inj requested, ?_⟩
          simp only [step, if_neg idle, stepReading, received]
      · cases requested

/-- A step without a request, of a device that does not send, changes the link alone. -/
theorem step_of_no_request (idle : device.isSending = false) (quiet : device.request? = none)
    : device.step.2 = { device with link := device.link.receive.2 } := by
  have idle' : ¬device.isSending = true := by simp [idle]
  rw [request?, if_neg idle'] at quiet
  simp only [step, if_neg idle', stepReading]
  split at quiet
  · cases quiet
  · next other =>
      generalize device.link.receive = received at other ⊢
      obtain ⟨result, link⟩ := received
      cases result with
      | error failure =>
          cases failure with
          | packet e =>
              simp only
              split
              · rfl
              · rfl
          | port fault => rfl
      | ok status? =>
          cases status? with
          | none => rfl
          | some status =>
              cases status with
              | unfinished => rfl
              | complete => exact absurd rfl (other link)

/-- A read that brings no byte changes the port alone. -/
theorem step_of_nothing {answer : Except ε (Option UInt8)} {port : P}
    (idle : device.isSending = false) (read : Port.read device.link.port = (answer, port))
    (nothing : Port.delivered [answer] = [])
    : device.request? = none
      ∧ device.step.2 = { device with link := { device.link with port } } := by
  have received : device.link.receive.2 = { device.link with port }
      ∧ device.request? = none := by
    cases answer with
    | error fault => simp [Link.receive, request?, read]
    | ok byte? =>
        cases byte? with
        | none => simp [Link.receive, request?, read]
        | some byte => simp [Port.delivered] at nothing
  exact ⟨received.2, by rw [step_of_no_request idle received.2, received.1]⟩

/-- A byte that completes no packet changes the port and the packet alone. -/
theorem step_of_byte {byte : UInt8} {port : P} {result : Except Packet.Failure FrameStatus}
    {incoming : Packet} (idle : device.isSending = false)
    (read : Port.read device.link.port = (.ok (some byte), port))
    (taken : device.link.incoming.receive byte = (result, incoming))
    (incomplete : result ≠ .ok .complete)
    : device.request? = none
      ∧ device.step.2 = { device with link := { device.link with port, incoming } } := by
  have received : device.link.receive.2 = { device.link with port, incoming }
      ∧ device.request? = none := by
    cases result with
    | error e => simp [Link.receive, request?, read, taken]
    | ok status =>
        cases status with
        | unfinished => simp [Link.receive, request?, read, taken]
        | complete => exact absurd rfl incomplete
  exact ⟨received.2, by rw [step_of_no_request idle received.2, received.1]⟩

omit [Responder R] in
theorem request?_of_byte {byte : UInt8} {port : P} {incoming : Packet}
    (idle : device.isSending = false)
    (read : Port.read device.link.port = (.ok (some byte), port))
    (completed : device.link.incoming.receive byte = (.ok .complete, incoming))
    : device.request? = some incoming := by
  simp [request?, idle, Link.receive, read, completed]

-----------------------------------------------------------------------------------------
-- A number of steps
-----------------------------------------------------------------------------------------

/-- While the bytes read complete no packet, steps read them and do nothing else, by induction on
the steps. -/
theorem polled_of_takes {count : Nat} {bytes : List UInt8} {incoming : Packet}
    (idle : device.isSending = false)
    (delivered : Port.delivered (Port.reads device.link.port count).1 = bytes)
    (taken : Packet.Takes (· ≠ .ok .complete) device.link.incoming bytes incoming)
    : device.requests count = []
      ∧ device.polled count
        = { device with
            link :=
              { device.link with port := (Port.reads device.link.port count).2, incoming } } := by
  induction count generalizing device bytes with
  | zero =>
      obtain rfl : [] = bytes := delivered
      cases taken
      exact ⟨rfl, rfl⟩
  | succ count ih =>
      rcases read : Port.read device.link.port with ⟨answer, port⟩
      simp only [Port.reads, read, requests, polled] at delivered ⊢
      rcases Port.delivered_cons answer (Port.reads port count).1 with
        ⟨nothing, more⟩ | ⟨byte, rfl, more⟩
      · obtain ⟨quiet, after⟩ := step_of_nothing idle read nothing
        rw [quiet, after]
        exact ih idle (more.symm.trans delivered) taken
      · obtain rfl := more.symm.trans delivered
        cases taken with
        | cons first permitted taken =>
            obtain ⟨quiet, after⟩ := step_of_byte idle read first permitted
            rw [quiet, after]
            exact ih idle rfl taken

/-- A byte that completes a packet, behind bytes that complete none, makes that packet a request; by
induction on the steps. -/
theorem mem_requests_of_takes {count : Nat} {front rest : List UInt8} {byte : UInt8}
    {middle request : Packet} (idle : device.isSending = false)
    (delivered : Port.delivered (Port.reads device.link.port count).1 = front ++ byte :: rest)
    (taken : Packet.Takes (· ≠ .ok .complete) device.link.incoming front middle)
    (completed : middle.receive byte = (.ok .complete, request))
    : request ∈ device.requests count := by
  induction count generalizing device front with
  | zero => exact absurd delivered.symm (List.append_ne_nil_of_right_ne_nil _ (List.cons_ne_nil _ _))
  | succ count ih =>
      rcases read : Port.read device.link.port with ⟨answer, port⟩
      simp only [Port.reads, read, requests] at delivered ⊢
      rcases Port.delivered_cons answer (Port.reads port count).1 with
        ⟨nothing, more⟩ | ⟨byte, rfl, more⟩
      · obtain ⟨quiet, after⟩ := step_of_nothing idle read nothing
        rw [quiet, after]
        exact ih idle (more.symm.trans delivered) taken
      · have arrived := more.symm.trans delivered
        cases taken with
        | nil =>
            -- The byte read now is the one that completes the packet.
            obtain ⟨rfl, _⟩ := List.cons.inj arrived
            rw [request?_of_byte idle read completed]
            exact List.mem_append_left _ (List.mem_singleton_self _)
        | cons first permitted taken =>
            obtain ⟨rfl, later⟩ := List.cons.inj arrived
            obtain ⟨quiet, after⟩ := step_of_byte idle read first permitted
            rw [quiet, after]
            exact ih idle later taken

/-- A request among those of a number of steps is served by one of them, by induction on the
steps. -/
theorem exists_serve_of_mem_requests {count : Nat} {request : Packet}
    (requested : request ∈ device.requests count)
    : ∃ earlier < count, ∃ link : Link P, link.incoming = request
        ∧ (device.polled earlier).step
          = ({ device.polled earlier with link } : Device P R).serve := by
  induction count generalizing device with
  | zero => cases requested
  | succ count ih =>
      rcases List.mem_append.mp requested with now | later
      · obtain ⟨link, received, served⟩ := step_of_request? (Option.mem_toList.mp now)
        exact ⟨0, Nat.zero_lt_succ count, link, received, served⟩
      · obtain ⟨earlier, before, link, received, served⟩ := ih later
        exact ⟨earlier + 1, Nat.succ_lt_succ before, link, received, served⟩

end Device

end PacketBus
