import PacketBus.Proofs.Exchange.Attempts
import PacketBus.Proofs.Reception.Restart

/-! What an exchange takes for its response.
It is the first packet that the bytes read in an attempt complete, as a packet that has never
received anything would find it, and nothing else that is read has a part in the exchange.
-/

namespace PacketBus

open Packet (InStep)

namespace Exchange

variable {P : Type}

/-- The bytes read since the last byte was offered have completed no packet before the response,
and the response is as a fresh packet finds it. -/
inductive Hears (x : Exchange (RecordedPort P Fault)) (capacity : Nat) : Prop
  | sending (busy : x.stage = .sending)
    (quiet : (Packet.fresh capacity).firstPacket? x.host.link.port.heard = none)
    (room : x.host.link.incoming.capacity = capacity)
  | waiting {deadline} (waits : x.stage = .waiting deadline)
    (quiet : (Packet.fresh capacity).firstPacket? x.host.link.port.heard = none)
    (inStep
      : InStep capacity x.host.link.incoming
          ((Packet.fresh capacity).fed x.host.link.port.heard))
  | answered {packet} (done : x.stage = .answered)
    (found
      : (Packet.fresh capacity).firstPacket? x.host.link.port.heard
        = some (packet, x.host.link.port.heard.length))
    (agrees : x.host.link.incoming.Agrees packet)
  | failed {failure} (done : x.stage = .failed failure)
    (quiet : (Packet.fresh capacity).firstPacket? x.host.link.port.heard = none)

variable [Port P Fault] [Clock P] {x : Exchange (RecordedPort P Fault)} {n : Nat}

/-- Offering a byte makes an exchange forget what it has heard, and once the frame is complete it
listens as if it had never heard anything. -/
theorem Hears.stepSending {body owed : List UInt8} (room : x.host.link.incoming.capacity = n)
    (writes : x.host.link.Writes x.request body owed) (busy : x.stage = .sending)
    : x.stepSending.Hears n ∧ x.stepSending.host.link.port.heard = [] := by
  obtain ⟨calls, port, held, emitter, result, ending, stepped⟩ := stepSending_of_writes writes
  obtain ⟨offers, some⟩ := ending.isWrite
  let port' : RecordedPort P Fault := ⟨port, x.host.link.port.calls ++ calls⟩
  have silent : port'.heard = [] :=
    Port.Call.heard_append_writes x.host.link.port.calls (some writes.nonempty) offers
  have quiet : (Packet.fresh n).firstPacket? port'.heard = none := by
    rw [silent]
    rfl
  rw [stepped]
  cases ending with
  | complete closed =>
      refine ⟨.waiting rfl quiet ?_, silent⟩
      change InStep n x.host.link.incoming.abandonFrame ((Packet.fresh n).fed port'.heard)
      rw [silent, ← room]
      exact Packet.inStep_abandonFrame _
  | refused split later => exact ⟨.sending busy quiet room, silent⟩
  | failed split later => exact ⟨.failed rfl quiet, silent⟩

omit [Port P Fault] [Clock P] in
theorem Hears.room_of_sending (h : x.Hears n) (busy : x.stage = .sending)
    : x.host.link.incoming.capacity = n := by
  cases h with
  | sending _ _ room => exact room
  | waiting waits => cases waits.symm.trans busy
  | answered done => cases done.symm.trans busy
  | failed done => cases done.symm.trans busy

omit [Port P Fault] [Clock P] in
theorem Hears.of_waiting (h : x.Hears n) {deadline : Nat} (waits : x.stage = .waiting deadline)
    : (Packet.fresh n).firstPacket? x.host.link.port.heard = none
      ∧ InStep n x.host.link.incoming ((Packet.fresh n).fed x.host.link.port.heard) := by
  cases h with
  | sending busy => cases busy.symm.trans waits
  | waiting _ quiet inStep => exact ⟨quiet, inStep⟩
  | answered done => cases done.symm.trans waits
  | failed done => cases done.symm.trans waits

/-- Before the deadline one read is made. -/
theorem calls_stepWaiting {deadline : Nat} (early : Clock.now x.host.link.port < deadline)
    : (x.stepWaiting deadline).host.link.port.calls
      = x.host.link.port.calls ++ [.read (Port.read x.host.link.port).1] := by
  obtain ⟨result, incoming, log, _, reads, stepped⟩ := stepWaiting_of_early early
  rw [stepped]
  cases reads with
  | failed _ | nothing _ | unfinished _ _ | lost _ _ _ | complete _ _ _ => rfl

/-- What one read before the deadline may come to: a fault of the port ends the exchange, the first
packet is its response, and anything else leaves it waiting. -/
inductive Listens (x next : Exchange (RecordedPort P Fault)) (deadline : Nat) : Prop
  | failed {fault} (answer : (Port.read x.host.link.port).1 = .error fault)
    (ended : next.stage = .failed (.transport fault))
  | waits {byte?} (answer : (Port.read x.host.link.port).1 = .ok byte?)
    (same : next.stage = .waiting deadline) (attempt : next.attempt = x.attempt)
  | answered {byte} (answer : (Port.read x.host.link.port).1 = .ok (some byte))
    (ended : next.stage = .answered)

theorem Hears.stepWaiting (h : x.Hears n) {deadline : Nat} (waits : x.stage = .waiting deadline)
    (early : Clock.now x.host.link.port < deadline)
    : (x.stepWaiting deadline).Hears n ∧ x.Listens (x.stepWaiting deadline) deadline := by
  obtain ⟨quiet, inStep⟩ := h.of_waiting waits
  obtain ⟨result, incoming, log, _, reads, stepped⟩ := stepWaiting_of_early early
  let port := (Port.read x.host.link.port).2
  rw [stepped]
  cases reads with
  | failed answered =>
      have heard : port.heard = x.host.link.port.heard ++ [] := RecordedPort.heard_read answered
      rw [List.append_nil] at heard
      exact ⟨.failed rfl (heard ▸ quiet), .failed answered rfl⟩
  | nothing answered =>
      have heard : port.heard = x.host.link.port.heard ++ [] := RecordedPort.heard_read answered
      rw [List.append_nil] at heard
      exact ⟨.waiting waits (heard ▸ quiet) (heard ▸ inStep), .waits answered waits rfl⟩
  | @unfinished byte _ answered taken =>
      have heard : port.heard = x.host.link.port.heard ++ [byte] := RecordedPort.heard_read answered
      obtain ⟨inStep', quiet'⟩ := inStep.concat quiet byte
      rw [taken] at inStep' quiet'
      exact ⟨.waiting waits (heard ▸ quiet') (heard ▸ inStep'), .waits answered waits rfl⟩
  | @lost byte _ _ answered taken harmless =>
      have heard : port.heard = x.host.link.port.heard ++ [byte] := RecordedPort.heard_read answered
      obtain ⟨inStep', quiet'⟩ := inStep.concat quiet byte
      rw [taken] at inStep' quiet'
      exact ⟨.waiting waits (heard ▸ quiet') (heard ▸ inStep'), .waits answered waits rfl⟩
  | @complete byte _ answered taken long =>
      have heard : port.heard = x.host.link.port.heard ++ [byte] := RecordedPort.heard_read answered
      obtain ⟨_, found⟩ := inStep.concat quiet byte
      rw [taken] at found
      obtain ⟨packet, found, agrees⟩ := found
      exact ⟨.answered rfl (heard ▸ found) agrees, .answered answered rfl⟩

omit [Port P Fault] [Clock P] in
/-- An attempt begins with what was heard in the one before, until its first byte is offered. -/
theorem hears_send (quiet : (Packet.fresh n).firstPacket? x.host.link.port.heard = none)
    (room : x.host.link.incoming.capacity = n)
    : x.send.Hears n := by
  simp only [send, Link.prepare]
  generalize x.request.rewind = rewound
  cases rewound with
  | error failure => exact .failed rfl quiet
  | ok request => exact .sending rfl quiet room

omit [Port P Fault] [Clock P] in
theorem Hears.retry (h : x.Hears n) {deadline : Nat} (waits : x.stage = .waiting deadline)
    : x.retry.Hears n := by
  obtain ⟨quiet, inStep⟩ := h.of_waiting waits
  unfold Exchange.retry
  split
  · exact hears_send quiet inStep.room
  · exact .failed rfl quiet

variable {settings : LinkSettings} {request : Packet} {late : Nat}

/-- By where the exchange stands. -/
theorem Hears.step (h : x.Hears n) (attempts : x.Attempts settings request late)
    : x.step.Hears n := by
  cases staged : x.stage with
  | sending =>
      obtain ⟨owed, writes⟩ := attempts.stands.writes_of_sending staged
      simp only [Exchange.step, staged]
      exact (Hears.stepSending (h.room_of_sending staged) writes staged).1
  | waiting deadline =>
      simp only [Exchange.step, staged]
      by_cases early : Clock.now x.host.link.port < deadline
      · exact (h.stepWaiting staged early).1
      · rw [Exchange.stepWaiting, if_neg early]
        exact h.retry staged
  | answered | failed _ =>
      simp only [Exchange.step, staged]
      exact h

omit [Port P Fault] [Clock P] in
/-- Whatever else happens to the port, only its calls matter. -/
theorem Hears.of_calls (h : x.Hears n) {port : RecordedPort P Fault}
    (calls : port.calls = x.host.link.port.calls)
    : Hears { x with host := { x.host with link := { x.host.link with port } } } n := by
  obtain ⟨inner, _⟩ := port
  subst calls
  cases h with
  | sending busy quiet room => exact .sending busy quiet room
  | waiting waits quiet inStep => exact .waiting waits quiet inStep
  | answered done found agrees => exact .answered done found agrees
  | failed done quiet => exact .failed done quiet

/-- By induction on the acts. -/
theorem Hears.after (h : x.Hears n) (attempts : x.Attempts settings request late)
    (sized : request.size ≤ request.capacity) (command : request.body ≠ []) (acts : List (Act P))
    : (x.after acts).Hears n := by
  induction acts generalizing x late with
  | nil => exact h
  | cons act rest ih =>
      cases act with
      | step => exact ih (h.step attempts) (attempts.step sized command)
      | adjust change => exact ih (h.of_calls rfl) (attempts.of_calls rfl)

/-- An exchange takes the first packet of an attempt for its response. Whatever the packet that
frames are received into was left with, whatever the port answers and wherever the deadlines fall,
the exchange is answered when the bytes read since a byte was last offered complete a packet for the
first time, with the message that a fresh packet finds in them, and asks nothing of the port behind
it. A wait begins with nothing heard; until its deadline it reads, and ends with a fault of the port
or with the first packet, whatever frames are lost; at its deadline it ends without a call. -/
theorem accepts_first_packet (host : Host P) (sound : request.IsSound) (acts : List (Act P))
    : let x := (Exchange.start host.recorded request).after acts
      let port := x.host.link.port
      let fresh := Packet.fresh host.link.incoming.capacity
      (match x.result? with
        | some (.ok response) =>
            ∃ packet, fresh.firstPacket? port.heard = some (packet, port.heard.length)
              ∧ response.Agrees packet
        | some (.error _) | none => fresh.firstPacket? port.heard = none)
      ∧ x.result? ≠ some (.error (.packet .brokenState))
      ∧ (x.result?.isSome = true
          → ∀ later, (x.after later).result? = x.result?
            ∧ (x.after later).host.link.port.calls = port.calls)
      ∧ (x.stage = .sending → x.step.host.link.port.heard = [])
      ∧ ∀ deadline, x.stage = .waiting deadline
        → if Clock.now port < deadline then
            x.step.host.link.port.calls = port.calls ++ [.read (Port.read port).1]
              ∧ x.Listens x.step deadline
          else
            x.step.host.link.port.calls = port.calls
              ∧ (x.step.stage = .sending ∧ x.step.attempt = x.attempt + 1
                ∨ x.step.stage = .failed (.noResponse host.settings.responseTimeout)) := by
  intro x port fresh
  have finished : x.result?.isSome = true → ∀ later, (x.after later).result? = x.result?
      ∧ (x.after later).host.link.port.calls = port.calls := by
    intro settled later
    obtain ⟨result, _, calls⟩ := after_of_finished settled later
    exact ⟨result, calls⟩
  cases held : request.command? with
  | none =>
      obtain ⟨failed, silent, _⟩ := start_of_no_command host sound held
      obtain ⟨result, _, calls⟩ := after_of_finished (by rw [failed]; rfl) acts
      have result : x.result? = some (.error (.packet .tooShort)) := result.trans failed
      have unheard : port.heard = [] := congrArg Port.Call.heard (calls.trans silent)
      refine ⟨?_, by simp [result], finished, ?_, ?_⟩
      · rw [result, unheard]
        rfl
      · intro busy
        simp [result?, busy] at result
      · intro deadline waits
        simp [result?, waits] at result
  | some command =>
      have command := sound.body_ne_nil held
      have begun := attempts_start host sound.size_le command
      have attempts := begun.after sound.size_le command acts
      have hears : x.Hears host.link.incoming.capacity :=
        (hears_send rfl rfl).after begun sound.size_le command acts
      refine ⟨?_, attempts.stands.result?_ne_packet _, finished, ?_, ?_⟩
      · cases hears with
        | sending busy quiet _ => simpa only [result?, busy] using quiet
        | waiting waits quiet _ => simpa only [result?, waits] using quiet
        | answered done found agrees => simpa only [result?, done] using ⟨_, found, agrees⟩
        | failed done quiet => simpa only [result?, done] using quiet
      · intro busy
        obtain ⟨owed, writes⟩ := attempts.stands.writes_of_sending busy
        simp only [Exchange.step, busy]
        exact (Hears.stepSending (hears.room_of_sending busy) writes busy).2
      · intro deadline waits
        simp only [Exchange.step, waits]
        split
        · next early => exact ⟨calls_stepWaiting early, (hears.stepWaiting waits early).2⟩
        · next expired =>
            rw [Exchange.stepWaiting, if_neg expired]
            exact ⟨congrArg RecordedPort.calls (port_retry x),
              attempts.stage_retry sound.size_le command⟩

/-- A host that was left behind an escape mark hears a byte of noise and a frame without content
before the response, and leaves the byte behind it unread. -/
theorem accepts_first_packet_behind_noise
    : let response : List UInt8 := [0x33, 0xC0, 0x01, 0xC0, 0xC0, 0x01, 0x07, 0xC0]
      let incoming : Packet :=
        { storage := [0x02, 0xAA, 0x55], size := 3, verified := true, receiver := .escaped }
      let host : Host LineEnd :=
        { link := { port := { incoming := response ++ [0x99], room := 9 }, incoming }
          settings := {}
          names := .ofCapacity 0 }
      let x := host.recorded.exchange Host.pingRequest 9
      Host.pingRequest.IsSound ∧ x.result? = some (.ok x.host.link.incoming)
      ∧ x.host.link.port.port.incoming = [0x99]
      ∧ ∃ packet, (Packet.fresh 3).firstPacket? response = some (packet, 8)
        ∧ x.host.link.incoming.Agrees packet := by
  intro response incoming host x
  have sound : Host.pingRequest.IsSound := ⟨Nat.le_refl 1, nofun⟩
  have result : x.result? = some (.ok x.host.link.incoming) := by decide +kernel
  have heard : x.host.link.port.heard = response := by decide +kernel
  have whole : x = _ := run_eq_after (Exchange.start host.recorded Host.pingRequest) 9
  obtain ⟨accepts, _⟩ := accepts_first_packet host sound (List.replicate 9 .step)
  rw [← whole, result] at accepts
  obtain ⟨packet, found, agrees⟩ := accepts
  rw [heard] at found
  exact ⟨sound, result, by decide +kernel, packet, found, agrees⟩

end Exchange

end PacketBus
