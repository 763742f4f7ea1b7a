import PacketBus.Proofs.Dialogue.Line
import PacketBus.Proofs.Exchange.Steps
import PacketBus.Proofs.Link.Underway
import PacketBus.Proofs.Packet.Soundness

/-! The attempts of an exchange, over any port and whatever happens to it meanwhile.
The port takes the frame of the request once for each attempt, and the next attempt begins only
when the wait of the one before has come to its deadline.
-/

namespace PacketBus

open PacketBus.Frame (wire)

/-- So many frames of one message, one after the other. -/
def Frame.copies (count : Nat) (body : List UInt8) : List UInt8 :=
  (List.replicate count (wire body)).flatten

theorem Frame.copies_succ (count : Nat) (body : List UInt8)
    : copies (count + 1) body = copies count body ++ wire body := by
  simp [copies, List.replicate_succ']

open PacketBus.Frame (copies copies_succ)

/-- The host with a record of its port from now on. -/
def Host.recorded {P : Type} (host : Host P) : Host (RecordedPort P Fault) :=
  { host with link := host.link.recorded }

namespace Exchange

/-- What may happen to an exchange. -/
inductive Act (P : Type) where
  | step
  /-- Something happens to the port that is no call of it; time may pass as well. -/
  | adjust (change : P → P)

variable {P : Type} [Port P Fault] [Clock P]

/-- The exchange behind one act. -/
def perform (x : Exchange (RecordedPort P Fault)) : Act P → Exchange (RecordedPort P Fault)
  | .step => x.step
  | .adjust change =>
      let link := { x.host.link with port := x.host.link.port.adjust change }
      { x with host := { x.host with link } }

/-- The exchange behind a number of acts. -/
def after (x : Exchange (RecordedPort P Fault)) (acts : List (Act P))
    : Exchange (RecordedPort P Fault) :=
  acts.foldl perform x

/-- A run is a number of steps and nothing else, by induction on the patience; behind the end of the
exchange a step does nothing. -/
theorem run_eq_after (x : Exchange (RecordedPort P Fault)) (patience : Nat)
    : x.run patience = x.after (List.replicate patience .step) := by
  induction patience generalizing x with
  | zero => rfl
  | succ patience ih =>
      by_cases finished : x.result?.isSome = true
      · have ended : x.run patience = x := by
          cases patience with
          | zero => rfl
          | succ _ => exact if_pos finished
        calc x.run (patience + 1)
          _ = x := if_pos finished
          _ = x.after (List.replicate patience .step) := ended.symm.trans (ih x)
          _ = x.step.after (List.replicate patience .step) := by rw [step_of_finished finished]
      · exact (if_neg finished).trans (ih x.step)

omit [Port P Fault] in
/-- The wait for a response has come to its deadline. -/
def isLate (x : Exchange P) : Bool :=
  match x.stage with
  | .waiting deadline => deadline ≤ Clock.now x.host.link.port
  | .sending | .answered | .failed _ => false

/-- How many waits come to their deadline in a number of acts. -/
def expiries (x : Exchange (RecordedPort P Fault)) : List (Act P) → Nat
  | [] => 0
  | .step :: rest => x.isLate.toNat + x.step.expiries rest
  | act :: rest => (x.perform act).expiries rest

-----------------------------------------------------------------------------------------
-- Where an exchange stands after a number of deadlines
-----------------------------------------------------------------------------------------

omit [Port P Fault] [Clock P] in
/-- What the port has been asked and has taken of the message `body` when `late` waits have come to
their deadlines. -/
inductive Stands (x : Exchange (RecordedPort P Fault)) (settings : LinkSettings)
    (body : List UInt8) (late : Nat) : Prop
  | sending {part owed} (busy : x.stage = .sending) (attempt : x.attempt = late + 1)
    (allowed : late < settings.attempts)
    (writes : x.host.link.Writes x.request body owed) (split : part ++ owed = wire body)
    (account : x.host.link.port.accepted = copies late body ++ part)
    (unfailed : x.host.link.port.calls.filterMap Port.Call.fault? = [])
  | waiting {deadline} (waits : x.stage = .waiting deadline) (attempt : x.attempt = late + 1)
    (allowed : late < settings.attempts)
    (account : x.host.link.port.accepted = copies (late + 1) body)
    (unfailed : x.host.link.port.calls.filterMap Port.Call.fault? = [])
  | answered (done : x.stage = .answered) (allowed : late < settings.attempts)
    (account : x.host.link.port.accepted = copies (late + 1) body)
  | givenUp (done : x.stage = .failed (.noResponse settings.responseTimeout))
    (spent : late = settings.attempts)
    (account : x.host.link.port.accepted = copies late body)
  | readFailed {fault earlier} (done : x.stage = .failed (.transport fault))
    (allowed : late < settings.attempts)
    (calls : x.host.link.port.calls = earlier ++ [.read (.error fault)])
    (unfailed : earlier.filterMap Port.Call.fault? = [])
    (account : x.host.link.port.accepted = copies (late + 1) body)
  | writeFailed {fault earlier part byte} (done : x.stage = .failed (.transport fault))
    (allowed : late < settings.attempts)
    (calls : x.host.link.port.calls = earlier ++ [.write byte (.error fault)])
    (unfailed : earlier.filterMap Port.Call.fault? = []) (begun : part ++ [byte] <+: wire body)
    (account : x.host.link.port.accepted = copies late body ++ part)

omit [Port P Fault] [Clock P] in
/-- An exchange asks with the settings and the request that it began with. -/
structure Attempts (x : Exchange (RecordedPort P Fault)) (settings : LinkSettings)
    (request : Packet) (late : Nat) : Prop where
  settled : x.host.settings = settings
  asked : ∃ emitter : Emitter, x.request = { request with emitter }
  stands : x.Stands settings request.body late

variable {x : Exchange (RecordedPort P Fault)} {settings : LinkSettings} {request : Packet}
  {body : List UInt8} {late : Nat}

omit [Port P Fault] [Clock P] in
theorem Stands.writes_of_sending (h : x.Stands settings body late) (busy : x.stage = .sending)
    : ∃ owed, x.host.link.Writes x.request body owed := by
  cases h with
  | sending _ _ _ writes => exact ⟨_, writes⟩
  | waiting waits => cases waits.symm.trans busy
  | answered done => cases done.symm.trans busy
  | givenUp done => cases done.symm.trans busy
  | readFailed done => cases done.symm.trans busy
  | writeFailed done => cases done.symm.trans busy

omit [Port P Fault] [Clock P] in
theorem Stands.of_waiting (h : x.Stands settings body late) {deadline : Nat}
    (waits : x.stage = .waiting deadline)
    : x.attempt = late + 1 ∧ late < settings.attempts
      ∧ x.host.link.port.accepted = copies (late + 1) body
      ∧ x.host.link.port.calls.filterMap Port.Call.fault? = [] := by
  cases h with
  | waiting _ attempt allowed account unfailed => exact ⟨attempt, allowed, account, unfailed⟩
  | sending busy => cases busy.symm.trans waits
  | answered done => cases done.symm.trans waits
  | givenUp done => cases done.symm.trans waits
  | readFailed done => cases done.symm.trans waits
  | writeFailed done => cases done.symm.trans waits

omit [Port P Fault] [Clock P] in
/-- An attempt begins with the whole frame, whatever is left of an earlier one. -/
theorem Attempts.send (sized : request.size ≤ request.capacity) (command : request.body ≠ [])
    (settled : x.host.settings = settings)
    (same : ∃ emitter : Emitter, x.request = { request with emitter })
    (attempt : x.attempt = late + 1) (allowed : late < settings.attempts)
    (account : x.host.link.port.accepted = copies late request.body)
    (unfailed : x.host.link.port.calls.filterMap Port.Call.fault? = [])
    : x.send.Attempts settings request late := by
  obtain ⟨emitter, same⟩ := same
  have body_eq : x.request.body = request.body := by
    rw [same]
    rfl
  obtain ⟨emitter', log, writes, sent⟩ :=
    send_of_command (x := x) (by rw [same]; exact sized) (by rw [body_eq]; exact command)
  rw [body_eq] at writes
  rw [sent]
  refine ⟨settled, ⟨emitter', by rw [same]⟩, ?_⟩
  exact .sending rfl attempt allowed writes (List.nil_append _) (by simpa using account) unfailed

/-- A push goes on with the frame of the attempt, by the ways a push ends. -/
theorem Attempts.stepSending (h : x.Attempts settings request late) (busy : x.stage = .sending)
    : x.stepSending.Attempts settings request late := by
  obtain ⟨rfl, ⟨_, same⟩, stands⟩ := h
  cases stands with
  | @sending part owed _ attempt allowed writes split account unfailed =>
      obtain ⟨calls, port, held, emitter, result, ending, stepped⟩ := stepSending_of_writes writes
      have request' : { x.request with emitter } = { request with emitter } := by rw [same]
      simp only [RecordedPort.accepted] at account
      rw [stepped]
      cases ending with
      | complete closed =>
          refine ⟨rfl, ⟨emitter, request'⟩, .waiting rfl attempt allowed ?_ ?_⟩
          · simp [await, RecordedPort.accepted, account, copies_succ, split]
          · simp [await, unfailed]
      | @refused sent byte rest _ _ split' later =>
          have goesOn : part ++ sent ++ byte :: rest = wire request.body := by
            rw [← split, split', List.append_assoc]
          refine ⟨rfl, ⟨emitter, request'⟩, .sending busy attempt allowed later goesOn ?_ ?_⟩
          · simp [RecordedPort.accepted, account, List.filterMap_cons]
          · simp [unfailed, List.filterMap_cons]
      | @failed sent byte rest fault _ _ split' later =>
          have begun : part ++ sent ++ [byte] <+: wire request.body :=
            ⟨rest, by simp [← split, split']⟩
          have calls_eq := (List.append_assoc x.host.link.port.calls (Port.Call.accepts sent)
            [.write byte (.error fault)]).symm
          refine ⟨rfl, ⟨emitter, request'⟩, .writeFailed rfl allowed calls_eq ?_ begun ?_⟩
          · simp [unfailed]
          · simp [fail, RecordedPort.accepted, account, List.filterMap_cons]
  | waiting waits => cases waits.symm.trans busy
  | answered done => cases done.symm.trans busy
  | givenUp done => cases done.symm.trans busy
  | readFailed done => cases done.symm.trans busy
  | writeFailed done => cases done.symm.trans busy

omit [Port P Fault] [Clock P] in
/-- A deadline that is reached ends the attempt, and the next one begins if one is left. -/
theorem Attempts.retry (h : x.Attempts settings request late)
    (sized : request.size ≤ request.capacity) (command : request.body ≠ []) {deadline : Nat}
    (waits : x.stage = .waiting deadline)
    : x.retry.Attempts settings request (late + 1) := by
  obtain ⟨rfl, same, stands⟩ := h
  obtain ⟨attempt, allowed, account, unfailed⟩ := stands.of_waiting waits
  unfold Exchange.retry
  split
  · next more =>
      rw [attempt] at more
      exact Attempts.send sized command rfl same (congrArg (· + 1) attempt) more account unfailed
  · next spent =>
      rw [attempt] at spent
      exact ⟨rfl, same, .givenUp rfl (Nat.le_antisymm allowed (Nat.not_lt.mp spent)) account⟩

omit [Port P Fault] [Clock P] in
theorem Attempts.stage_retry (h : x.Attempts settings request late)
    (sized : request.size ≤ request.capacity) (command : request.body ≠ [])
    : x.retry.stage = .sending ∧ x.retry.attempt = x.attempt + 1
      ∨ x.retry.stage = .failed (.noResponse settings.responseTimeout) := by
  obtain ⟨rfl, ⟨emitter, same⟩, _⟩ := h
  unfold Exchange.retry
  split
  · have sized' : x.request.size ≤ x.request.capacity := by
      rw [same]
      exact sized
    have command' : x.request.body ≠ [] := by
      rw [same]
      exact command
    exact .inl (stage_send sized' command')
  · exact .inr rfl

/-- Before the deadline nothing is offered to the port. -/
theorem Attempts.stepWaiting (h : x.Attempts settings request late) {deadline : Nat}
    (waits : x.stage = .waiting deadline) (early : Clock.now x.host.link.port < deadline)
    : (x.stepWaiting deadline).Attempts settings request late := by
  obtain ⟨rfl, same, stands⟩ := h
  obtain ⟨attempt, allowed, account, unfailed⟩ := stands.of_waiting waits
  obtain ⟨result, incoming, log, _, reads, stepped⟩ := stepWaiting_of_early early
  have read := x.host.link.port.calls_read
  have account' := (RecordedPort.accepted_read x.host.link.port).trans account
  have unfailed' {byte? : Option UInt8} (answered : (Port.read x.host.link.port).1 = .ok byte?) :=
    RecordedPort.unfailed_read unfailed answered
  rw [stepped]
  cases reads with
  | failed answered =>
      rw [answered] at read
      exact ⟨rfl, same, .readFailed rfl allowed read unfailed account'⟩
  | nothing answered =>
      exact ⟨rfl, same, .waiting waits attempt allowed account' (unfailed' answered)⟩
  | unfinished answered taken =>
      exact ⟨rfl, same, .waiting waits attempt allowed account' (unfailed' answered)⟩
  | lost answered taken harmless =>
      exact ⟨rfl, same, .waiting waits attempt allowed account' (unfailed' answered)⟩
  | complete answered taken long => exact ⟨rfl, same, .answered rfl allowed account'⟩

/-- By where the exchange stands. -/
theorem Attempts.step (h : x.Attempts settings request late)
    (sized : request.size ≤ request.capacity) (command : request.body ≠ [])
    : x.step.Attempts settings request (late + x.isLate.toNat) := by
  cases staged : x.stage with
  | sending =>
      simp only [Exchange.step, isLate, staged]
      exact h.stepSending staged
  | waiting deadline =>
      simp only [Exchange.step, isLate, staged]
      by_cases early : Clock.now x.host.link.port < deadline
      · rw [decide_eq_false (Nat.not_le.mpr early)]
        exact h.stepWaiting staged early
      · rw [decide_eq_true (Nat.not_lt.mp early), Exchange.stepWaiting, if_neg early]
        exact h.retry sized command staged
  | answered | failed _ =>
      simp only [Exchange.step, isLate, staged]
      exact h

omit [Port P Fault] [Clock P] in
/-- Whatever else happens to the port, only its calls matter. -/
theorem Attempts.of_calls (h : x.Attempts settings request late) {port : RecordedPort P Fault}
    (calls : port.calls = x.host.link.port.calls)
    : Attempts { x with host := { x.host with link := { x.host.link with port } } } settings request
        late := by
  obtain ⟨inner, _⟩ := port
  subst calls
  obtain ⟨rfl, same, stands⟩ := h
  refine ⟨rfl, same, ?_⟩
  cases stands with
  | sending busy attempt allowed writes split account unfailed =>
      exact .sending busy attempt allowed (writes.of_held_eq rfl) split account unfailed
  | waiting waits attempt allowed account unfailed =>
      exact .waiting waits attempt allowed account unfailed
  | answered done allowed account => exact .answered done allowed account
  | givenUp done spent account => exact .givenUp done spent account
  | readFailed done allowed calls unfailed account =>
      exact .readFailed done allowed calls unfailed account
  | writeFailed done allowed calls unfailed begun account =>
      exact .writeFailed done allowed calls unfailed begun account

/-- By induction on the acts. -/
theorem Attempts.after (h : x.Attempts settings request late)
    (sized : request.size ≤ request.capacity) (command : request.body ≠ []) (acts : List (Act P))
    : (x.after acts).Attempts settings request (late + x.expiries acts) := by
  induction acts generalizing x late with
  | nil => exact h
  | cons act rest ih =>
      cases act with
      | step =>
          have later := ih (h.step sized command)
          rwa [Nat.add_assoc] at later
      | adjust change => exact ih (h.of_calls rfl)

/-- A finished exchange asks nothing of the port any more, by induction on the acts. -/
theorem after_of_finished (finished : x.result?.isSome = true) (acts : List (Act P))
    : (x.after acts).result? = x.result? ∧ (x.after acts).request = x.request
      ∧ (x.after acts).host.link.port.calls = x.host.link.port.calls := by
  induction acts generalizing x with
  | nil => exact ⟨rfl, rfl, rfl⟩
  | cons act rest ih =>
      cases act with
      | step =>
          rw [after, List.foldl_cons, perform, step_of_finished finished]
          exact ih finished
      | adjust change => exact ih finished

omit [Port P Fault] [Clock P] in
theorem attempts_start (host : Host P) (sized : request.size ≤ request.capacity)
    (command : request.body ≠ [])
    : (start host.recorded request).Attempts host.settings request 0 :=
  Attempts.send (x := { host := host.recorded, request }) sized command rfl
    ⟨request.emitter, rfl⟩ rfl (Nat.succ_pos _) rfl rfl

omit [Port P Fault] [Clock P] in
/-- A request without a command fails at once. -/
theorem start_of_no_command (host : Host P) (sound : request.IsSound)
    (nothing : request.command? = none)
    : let start := Exchange.start host.recorded request
      start.result? = some (.error (.packet .tooShort)) ∧ start.host.link.port.calls = []
      ∧ start.request = request := by
  intro start
  obtain ⟨log, sent⟩ := send_of_no_command (x := { host := host.recorded, request })
    (sound.bodySize_of_no_command nothing)
  have refused : start = _ := sent
  rw [refused]
  exact ⟨rfl, rfl, rfl⟩

omit [Port P Fault] [Clock P] in
/-- No packet is to blame when an exchange of a request with a command fails. -/
theorem Stands.result?_ne_packet (h : x.Stands settings body late) (failure : Packet.Failure)
    : x.result? ≠ some (.error (.packet failure)) := by
  cases h with
  | sending done | waiting done | answered done | givenUp done | readFailed done
  | writeFailed done => simp [result?, done]

omit [Port P Fault] [Clock P] in
/-- At every moment the port has taken the beginning of one more frame than there were deadlines. -/
theorem Stands.accepted_prefix (h : x.Stands settings body late)
    : x.host.link.port.accepted <+: copies (late + 1) body := by
  cases h with
  | @sending part owed _ _ _ _ split account _ =>
      rw [account, copies_succ, List.prefix_append_right_inj]
      exact ⟨owed, split⟩
  | waiting _ _ _ account _ => exact account ▸ List.prefix_rfl
  | answered _ _ account => exact account ▸ List.prefix_rfl
  | givenUp _ _ account =>
      rw [account, copies_succ]
      exact List.prefix_append _ _
  | readFailed _ _ _ _ account => exact account ▸ List.prefix_rfl
  | @writeFailed _ _ part byte _ _ _ _ begun account =>
      rw [account, copies_succ, List.prefix_append_right_inj]
      exact (List.prefix_append part [byte]).trans begun

/-- An exchange sends the frame of its request once for each attempt. Whatever the host and the
packet of the request were left in, whatever the port answers and wherever the deadlines fall, the
request keeps what it holds, and what the port takes is counted by the waits that have come to their
deadlines: there is a frame more when the exchange is answered or a read has failed, just the frames
of all attempts when no response came, and less than a frame more when a write has failed. A call
that fails is the last one. A request without a command fails at once. -/
theorem sends_one_frame_per_attempt (host : Host P) (sound : request.IsSound) (acts : List (Act P))
    : let start := Exchange.start host.recorded request
      let x := start.after acts
      let late := start.expiries acts
      let calls := x.host.link.port.calls
      let accepted := x.host.link.port.accepted
      let attempts := host.settings.attempts
      (∃ emitter : Emitter, x.request = { request with emitter })
      ∧ (request.command? = none → x.result? = some (.error (.packet .tooShort)) ∧ calls = [])
      ∧ (request.command? ≠ none
          → accepted <+: copies (late + 1) request.body
            ∧ match x.result? with
              | none => late < attempts
              | some (.ok _) => late < attempts ∧ accepted = copies (late + 1) request.body
              | some (.error (.noResponse milliseconds)) =>
                  milliseconds = host.settings.responseTimeout ∧ late = attempts
                    ∧ accepted = copies attempts request.body
              | some (.error (.transport fault)) =>
                  late < attempts
                    ∧ ∃ earlier call, calls = earlier ++ [call]
                      ∧ earlier.filterMap Port.Call.fault? = []
                      ∧ (call = .read (.error fault) ∧ accepted = copies (late + 1) request.body
                        ∨ ∃ part byte, call = .write byte (.error fault)
                          ∧ part ++ [byte] <+: wire request.body
                          ∧ accepted = copies late request.body ++ part)
              | some (.error (.packet _)) | some (.error (.wrongResponse _))
              | some (.error (.badSettings _)) => False) := by
  intro start x late calls accepted attempts
  cases held : request.command? with
  | none =>
      obtain ⟨failed, silent, kept⟩ := start_of_no_command host sound held
      obtain ⟨result, same, calls⟩ := after_of_finished (by rw [failed]; rfl) acts
      exact ⟨⟨request.emitter, same.trans kept⟩, fun _ => ⟨result.trans failed, calls.trans silent⟩,
        absurd rfl⟩
  | some command =>
      have command := sound.body_ne_nil held
      have kept : x.Attempts host.settings request late := by
        have after := (attempts_start host sound.size_le command).after sound.size_le command acts
        rwa [Nat.zero_add] at after
      obtain ⟨_, asked, stands⟩ := kept
      refine ⟨asked, nofun, fun _ => ⟨stands.accepted_prefix, ?_⟩⟩
      cases stands with
      | sending busy _ allowed _ _ _ _ => simpa only [result?, busy] using allowed
      | waiting waits _ allowed _ _ => simpa only [result?, waits] using allowed
      | answered done allowed account => simpa only [result?, done] using ⟨allowed, account⟩
      | givenUp done spent account =>
          simp only [result?, done]
          exact ⟨trivial, spent, account.trans (congrArg (copies · request.body) spent)⟩
      | readFailed done allowed calls unfailed account =>
          simp only [result?, done]
          exact ⟨allowed, _, _, calls, unfailed, .inl ⟨rfl, account⟩⟩
      | writeFailed done allowed calls unfailed begun account =>
          simp only [result?, done]
          exact ⟨allowed, _, _, calls, unfailed, .inr ⟨_, _, rfl, begun, account⟩⟩

/-- Two attempts with half an earlier frame before them and a port that refuses a byte of the first;
no response comes. -/
theorem sends_one_frame_per_attempt_without_response
    : let host : Host LineEnd :=
        { link :=
            { port := { room := 3 }
              incoming := .ofStorage [0, 0]
              held := some ⟨0x55, .unfinished⟩ }
          settings := { retries := 1 }
          names := .ofCapacity 0 }
      let request : Packet := { storage := [0x02, 0xC0], size := 2, emitter := ⟨.escaped, 1, 0x07⟩ }
      let elapse : Act LineEnd := .adjust fun l => { l with time := l.time + 100, room := 20 }
      let acts : List (Act LineEnd) :=
        [.step, elapse, .step, .step, elapse, .step, .step, elapse, .step]
      let x := (Exchange.start host.recorded request).after acts
      request.IsSound ∧ x.result? = some (.error (.noResponse 100))
      ∧ (Exchange.start host.recorded request).expiries acts = 2
      ∧ x.host.link.port.accepted = copies 2 [0x02, 0xC0] := by
  intro host request elapse acts x
  have sound : request.IsSound := ⟨Nat.le_refl 2, nofun⟩
  have result : x.result? = some (.error (.noResponse 100)) := by decide +kernel
  obtain ⟨_, _, sends⟩ := sends_one_frame_per_attempt host sound acts
  obtain ⟨_, ending⟩ := sends (by decide +kernel)
  rw [result] at ending
  obtain ⟨_, late, accepted⟩ := ending
  exact ⟨sound, result, late, accepted⟩

end Exchange

end PacketBus
