import PacketBus.Proofs.Device.Steps
import PacketBus.Proofs.Link.Underway
import PacketBus.Proofs.Port.Schedule

/-! A device that takes turns with its owner and with what happens to its port.
Each response is taken up once and said to its end once, and in between the device does nothing but
offer its bytes, whatever the responder has left in it and wherever the port fails.
-/

namespace PacketBus

variable {P R ε : Type}

/-- A responder that does to a response what an owner can do to a packet, and answers as it likes.
Its choice may depend on all that it has seen. -/
structure FreeResponder (S : Type) where
  state : S
  choose : S → (request response : Packet) → List Packet.Operation × Bool × S

instance {S : Type} : Responder (FreeResponder S) where
  respond r request response :=
    let (operations, accepted, state) := r.choose r.state request response
    ⟨accepted, response.after operations, { r with state }⟩

instance {S : Type} : LawfulResponder (FreeResponder S) where
  isSound _ _ _ sound := sound.after _

namespace Device

/-- What may happen to a device. -/
inductive Turn (P : Type) where
  | poll
  /-- The owner works on the packet that frames are received into. -/
  | operate (operation : Packet.Operation)
  /-- Something happens to the port that is no call of it. -/
  | adjust (change : P → P)

/-- The operations among a number of turns, in order. -/
def Turn.operations (turns : List (Turn P)) : List Packet.Operation :=
  turns.filterMap fun turn =>
    match turn with
    | .operate operation => some operation
    | .poll | .adjust _ => none

/-- A poll has taken up a response. -/
def isAnswered : Except (Link.Failure ε) Event → Bool
  | .ok (.answered _) => true
  | .ok .idle | .ok .reading | .ok (.unanswered _) | .ok .blocked | .ok .sent | .ok (.lost _)
  | .error _ => false

/-- A poll has said the rest of a response. -/
def isSent : Except (Link.Failure ε) Event → Bool
  | .ok .sent => true
  | .ok .idle | .ok .reading | .ok (.answered _) | .ok (.unanswered _) | .ok .blocked
  | .ok (.lost _) | .error _ => false

/-- A poll has not said the rest of a response: the port had no room, or failed. -/
def IsHeldUp (result : Except (Link.Failure ε) Event) : Prop :=
  result = .ok .blocked ∨ ∃ fault, result = .error (.port fault)

section Runs

variable [Responder R] [Port P ε]

/-- The device behind one turn. -/
def take (device : Device (RecordedPort P ε) R) : Turn P → Device (RecordedPort P ε) R
  | .poll => device.step.2
  | .operate operation =>
      let incoming := (device.link.incoming.perform operation).2
      { device with link := { device.link with incoming } }
  | .adjust change =>
      { device with link := { device.link with port := device.link.port.adjust change } }

/-- The device behind a number of turns. -/
def behind (device : Device (RecordedPort P ε) R) (turns : List (Turn P))
    : Device (RecordedPort P ε) R :=
  turns.foldl take device

/-- What the polls among a number of turns come to, in order. -/
def results (device : Device (RecordedPort P ε) R)
    : List (Turn P) → List (Except (Link.Failure ε) Event)
  | [] => []
  | .poll :: rest => device.step.1 :: device.step.2.results rest
  | turn :: rest => (device.take turn).results rest

end Runs

-----------------------------------------------------------------------------------------
-- What a poll may come to
-----------------------------------------------------------------------------------------

/-- Between two moments a device has offered bytes of its response and done nothing else. Only the
owner has worked on the packet that frames are received into. -/
structure Sends (before after : Device (RecordedPort P ε) R) (operations : List Packet.Operation)
    : Prop where
  response : ∃ emitter : Emitter, after.response = { before.response with emitter }
  responder : after.responder = before.responder
  incoming : after.link.incoming = before.link.incoming.after operations
  calls
    : ∃ calls, after.link.port.calls = before.link.port.calls ++ calls
      ∧ ∀ call ∈ calls, call.IsWrite

theorem Sends.refl (device : Device (RecordedPort P ε) R)
    : Sends device device [] :=
  ⟨⟨device.response.emitter, rfl⟩, rfl, rfl, [], (List.append_nil _).symm,
    fun _ member => absurd member List.not_mem_nil⟩

theorem Sends.trans {before middle after : Device (RecordedPort P ε) R}
    {early late : List Packet.Operation} (first : Sends before middle early)
    (second : Sends middle after late)
    : Sends before after (early ++ late) := by
  obtain ⟨⟨_, begun⟩, responder, incoming, calls, made, writes⟩ := first
  obtain ⟨⟨emitter, gone⟩, responder', incoming', calls', made', writes'⟩ := second
  refine ⟨⟨emitter, by rw [gone, begun]⟩, responder'.trans responder, ?_, calls ++ calls', ?_, ?_⟩
  · rw [incoming', incoming, Packet.after_append]
  · rw [made', made, List.append_assoc]
  · intro call member
    rcases List.mem_append.mp member with early | late
    · exact writes call early
    · exact writes' call late

variable [Port P ε]

/-- What a poll may come to, and the device behind it. -/
inductive Polls (device : Device (RecordedPort P ε) R)
    : Except (Link.Failure ε) Event → Device (RecordedPort P ε) R → Prop
  | listens {event after} (idle : device.isSending = false) (silent : after.isSending = false)
    (quiet : event = .idle ∨ event = .reading ∨ ∃ failure, event = .lost failure)
    : device.Polls (.ok event) after
  | fails {fault after} (same : after.isSending = device.isSending)
    (sends : device.isSending = true → device.Sends after [])
    : device.Polls (.error (.port fault)) after
  | declines {command after} (idle : device.isSending = false) (silent : after.isSending = false)
    (completed : device.link.completes? = some after.link.incoming)
    (held : after.link.incoming.command? = some command)
    : device.Polls (.ok (.unanswered command)) after
  | answers {command after} (idle : device.isSending = false) (busy : after.isSending = true)
    (completed : device.link.completes? = some after.link.incoming)
    (held : after.link.incoming.command? = some command)
    : device.Polls (.ok (.answered command)) after
  | waits {after} (busy : device.isSending = true) (same : after.isSending = true)
    (sends : device.Sends after [])
    : device.Polls (.ok .blocked) after
  | ends {after} (busy : device.isSending = true) (silent : after.isSending = false)
    (sends : device.Sends after [])
    : device.Polls (.ok .sent) after

omit [Port P ε] in
/-- The packet that frames are received into is sound, and a device that sends owes bytes of its
response. -/
structure IsOrderly (device : Device (RecordedPort P ε) R) : Prop where
  sound : device.link.incoming.IsSound
  writes
    : device.isSending = true
      → ∃ owed, device.link.Writes device.response device.response.body owed

variable [Responder R] {device : Device (RecordedPort P ε) R}

/-- A packet that was received whole holds a command. -/
theorem exists_command {packet : Packet} (sound : packet.IsSound) (long : 2 ≤ packet.size)
    : ∃ command, packet.command? = some command := by
  have nonempty : packet.bytes ≠ [] := by
    have room := sound.size_le
    simp only [Packet.capacity] at room
    rw [Packet.bytes, ← List.length_pos_iff, List.length_take]
    omega
  exact ⟨_, List.head?_eq_some_head nonempty⟩

omit [Port P ε] in
/-- A request is served under its own command, whatever comes of it. -/
theorem IsOrderly.serve [LawfulResponder R] (h : device.IsOrderly)
    (idle : device.isSending = false) (long : 2 ≤ device.link.incoming.size)
    : let result := (@serve _ R ε _ device).1
      let after := (@serve _ R ε _ device).2
      after.IsOrderly
      ∧ after.link.incoming = device.link.incoming
      ∧ ∃ command, device.link.incoming.command? = some command
        ∧ (result = .ok (.answered command) ∧ after.isSending = true
          ∨ result = .ok (.unanswered command) ∧ after.isSending = false) := by
  obtain ⟨command, held⟩ := exists_command h.sound long
  rcases @serve_cases _ R ε _ _ device with ⟨_, emitter, writes, served⟩ | ⟨_, served⟩
  · simp only [served, held]
    exact ⟨⟨h.sound, fun _ => ⟨_, writes⟩⟩, trivial, command, rfl, .inl (by simp)⟩
  · simp only [served, held]
    refine ⟨⟨h.sound, fun busy => ?_⟩, trivial, command, rfl, .inr (by simp [idle])⟩
    cases idle.symm.trans busy

/-- A device that sends nothing reads, by what its read comes to. -/
theorem IsOrderly.polls_of_idle [LawfulResponder R] (h : device.IsOrderly)
    (idle : device.isSending = false)
    : device.Polls device.step.1 device.step.2 ∧ device.step.2.IsOrderly := by
  obtain ⟨result, incoming, received, reads⟩ := device.link.receive_reads
  let link := { device.link with port := (Port.read device.link.port).2, incoming }
  have orderly : IsOrderly { device with link } :=
    ⟨reads.isSound h.sound, fun busy => nomatch idle.symm.trans busy⟩
  rw [step_of_idle idle, received]
  cases reads with
  | failed answered =>
      refine ⟨.fails rfl fun busy => ?_, orderly⟩
      cases idle.symm.trans busy
  | nothing answered => exact ⟨.listens idle idle (.inl rfl), orderly⟩
  | unfinished answered taken => exact ⟨.listens idle idle (.inr (.inl rfl)), orderly⟩
  | lost answered taken harmless => exact ⟨.listens idle idle (.inr (.inr ⟨_, rfl⟩)), orderly⟩
  | complete answered taken long =>
      obtain ⟨served, same, command, held, outcome⟩ := orderly.serve (ε := ε) idle long
      have completed := (Link.completes?_of_complete received).trans (congrArg some same.symm)
      have held' := (congrArg Packet.command? same).trans held
      refine ⟨?_, served⟩
      rcases outcome with ⟨answers, busy⟩ | ⟨declines, quiet⟩
      · have polled := Polls.answers idle busy completed held'
        rwa [← answers] at polled
      · have polled := Polls.declines idle quiet completed held'
        rwa [← declines] at polled

/-- A device that sends goes on with its response, by what its push comes to. -/
theorem IsOrderly.polls_of_sending (h : device.IsOrderly) (busy : device.isSending = true)
    : device.Polls device.step.1 device.step.2 ∧ device.step.2.IsOrderly := by
  obtain ⟨owed, writes⟩ := h.writes busy
  obtain ⟨calls, port, held, emitter, result, ending, stepped⟩ := step_of_writes busy writes
  have written := ending.isWrite.1
  rw [stepped]
  cases ending with
  | complete closed =>
      exact ⟨.ends busy rfl ⟨⟨emitter, rfl⟩, rfl, rfl, _, rfl, written⟩, h.sound, nofun⟩
  | refused split later =>
      exact ⟨.waits busy busy ⟨⟨emitter, rfl⟩, rfl, rfl, _, rfl, written⟩, h.sound,
        fun _ => ⟨_, later⟩⟩
  | failed split later =>
      exact ⟨.fails rfl fun _ => ⟨⟨emitter, rfl⟩, rfl, rfl, _, rfl, written⟩, h.sound,
        fun _ => ⟨_, later⟩⟩

theorem IsOrderly.polls [LawfulResponder R] (h : device.IsOrderly)
    : device.Polls device.step.1 device.step.2 ∧ device.step.2.IsOrderly := by
  cases sending : device.isSending with
  | false => exact h.polls_of_idle sending
  | true => exact h.polls_of_sending sending

omit [Responder R] in
/-- While a device sends, a poll goes on with the response, and is held up or has said the rest. -/
theorem Polls.of_sending {result : Except (Link.Failure ε) Event}
    {after : Device (RecordedPort P ε) R} (polled : device.Polls result after)
    (busy : device.isSending = true)
    : device.Sends after []
      ∧ (result = .ok .sent ∧ after.isSending = false
        ∨ IsHeldUp result ∧ after.isSending = true) := by
  cases polled with
  | listens idle silent quiet => cases idle.symm.trans busy
  | declines idle silent completed held => cases idle.symm.trans busy
  | answers idle busy' completed held => cases idle.symm.trans busy
  | fails same sends => exact ⟨sends busy, .inr ⟨.inr ⟨_, rfl⟩, same.trans busy⟩⟩
  | waits _ same sends => exact ⟨sends, .inr ⟨.inl rfl, same⟩⟩
  | ends _ silent sends => exact ⟨sends, .inl ⟨rfl, silent⟩⟩

omit [Responder R] in
/-- Only the port fails. -/
theorem Polls.fault_of_error {failure : Link.Failure ε} {after : Device (RecordedPort P ε) R}
    (polled : device.Polls (.error failure) after)
    : ∃ fault, failure = .port fault := by
  cases polled with
  | fails same sends => exact ⟨_, rfl⟩

omit [Responder R] in
/-- A request is reported under the command of the packet that was completed. -/
theorem Polls.of_request {result : Except (Link.Failure ε) Event}
    {after : Device (RecordedPort P ε) R} {command : UInt8} (polled : device.Polls result after)
    (served : result = .ok (.answered command) ∨ result = .ok (.unanswered command))
    : device.link.completes? = some after.link.incoming
      ∧ after.link.incoming.command? = some command
      ∧ (after.isSending = true ↔ result = .ok (.answered command)) := by
  rcases served with rfl | rfl
  · cases polled with
    | listens idle silent quiet => rcases quiet with h | h | ⟨_, h⟩ <;> cases h
    | answers idle busy completed held => exact ⟨completed, held, by simp [busy]⟩
  · cases polled with
    | listens idle silent quiet => rcases quiet with h | h | ⟨_, h⟩ <;> cases h
    | declines idle silent completed held => exact ⟨completed, held, by simp [silent]⟩

-----------------------------------------------------------------------------------------
-- A number of turns
-----------------------------------------------------------------------------------------

omit [Port P ε] [Responder R] in
theorem isOrderly_onLink {link : Link P} (sound : link.incoming.IsSound) (responder : R)
    (responses : List UInt8)
    : (onLink (@Link.recorded P ε link) responder responses).IsOrderly :=
  ⟨sound, nofun⟩

omit [Port P ε] [Responder R] in
/-- The owner of the packet that frames are received into has no part in what is being sent. -/
theorem IsOrderly.operate (h : device.IsOrderly) (operation : Packet.Operation)
    : IsOrderly
        { device with
          link :=
            { device.link with incoming := (device.link.incoming.perform operation).2 } } where
  sound := h.sound.perform operation
  writes busy := by
    obtain ⟨owed, writes⟩ := h.writes busy
    exact ⟨owed, writes.of_held_eq rfl⟩

omit [Port P ε] [Responder R] in
theorem IsOrderly.adjust (h : device.IsOrderly) (change : P → P)
    : IsOrderly
        { device with link := { device.link with port := device.link.port.adjust change } } where
  sound := h.sound
  writes busy := by
    obtain ⟨owed, writes⟩ := h.writes busy
    exact ⟨owed, writes.of_held_eq rfl⟩

/-- By induction on the turns. -/
theorem IsOrderly.behind [LawfulResponder R] (h : device.IsOrderly) (turns : List (Turn P))
    : (device.behind turns).IsOrderly := by
  induction turns generalizing device with
  | nil => exact h
  | cons turn rest ih =>
      cases turn with
      | poll => exact ih h.polls.2
      | operate operation => exact ih (h.operate operation)
      | adjust change => exact ih (h.adjust change)

/-- One response is taken up and not said to its end while a device sends, and none otherwise; by
induction on the turns, with what each poll adds. -/
theorem IsOrderly.balance [LawfulResponder R] (h : device.IsOrderly) (turns : List (Turn P))
    : (device.results turns).countP isAnswered + device.isSending.toNat
      = (device.results turns).countP isSent + (device.behind turns).isSending.toNat := by
  induction turns generalizing device with
  | nil => rfl
  | cons turn rest ih =>
      cases turn with
      | operate operation => exact ih (h.operate operation)
      | adjust change => exact ih (h.adjust change)
      | poll =>
          obtain ⟨polled, orderly⟩ := h.polls
          have later := ih orderly
          change (device.step.1 :: device.step.2.results rest).countP isAnswered + _
            = (device.step.1 :: device.step.2.results rest).countP isSent
              + (device.step.2.behind rest).isSending.toNat
          generalize device.step.1 = result at polled ⊢
          generalize device.step.2 = after at polled later ⊢
          simp only [List.countP_cons]
          cases polled with
          | listens idle silent quiet =>
              rcases quiet with rfl | rfl | ⟨failure, rfl⟩
              all_goals simpa [isAnswered, isSent, idle, silent] using later
          | fails same sends => simpa [isAnswered, isSent, same] using later
          | declines idle silent completed held =>
              simpa [isAnswered, isSent, idle, silent] using later
          | answers idle busy completed held =>
              simpa [isAnswered, isSent, idle, busy] using later
          | waits busy same sends => simpa [isAnswered, isSent, busy, same] using later
          | ends busy silent sends =>
              simp only [silent, busy, Bool.toNat_false, Bool.toNat_true] at later ⊢
              simp [isAnswered, isSent]
              omega

/-- Until it has said the rest of a response a device goes on with it and is held up; by induction
on the turns. -/
theorem IsOrderly.sends_behind [LawfulResponder R] (h : device.IsOrderly)
    (busy : device.isSending = true) {turns : List (Turn P)}
    (unsaid : .ok .sent ∉ device.results turns)
    : (device.behind turns).isSending = true
      ∧ device.Sends (device.behind turns) (Turn.operations turns)
      ∧ ∀ result ∈ device.results turns, IsHeldUp result := by
  induction turns generalizing device with
  | nil => exact ⟨busy, .refl device, fun _ member => absurd member List.not_mem_nil⟩
  | cons turn rest ih =>
      cases turn with
      | operate operation =>
          obtain ⟨busy', sends, heldUp⟩ := ih (h.operate operation) busy unsaid
          have worked : device.Sends
              { device with
                link :=
                  { device.link with incoming := (device.link.incoming.perform operation).2 } }
              [operation] :=
            { Sends.refl device with incoming := rfl }
          exact ⟨busy', worked.trans sends, heldUp⟩
      | adjust change =>
          obtain ⟨busy', sends, heldUp⟩ := ih (h.adjust change) busy unsaid
          have untouched : device.Sends
              { device with link := { device.link with port := device.link.port.adjust change } }
              [] :=
            { Sends.refl device with incoming := rfl }
          exact ⟨busy', untouched.trans sends, heldUp⟩
      | poll =>
          obtain ⟨polled, orderly⟩ := h.polls
          simp only [results, List.mem_cons, not_or] at unsaid
          obtain ⟨now, later⟩ := unsaid
          obtain ⟨sends, ⟨said, _⟩ | ⟨heldUp, busy'⟩⟩ := polled.of_sending busy
          · exact absurd said.symm now
          · obtain ⟨busy', sends', heldUp'⟩ := ih orderly busy' later
            refine ⟨busy', sends.trans sends', ?_⟩
            intro result member
            rcases List.mem_cons.mp member with rfl | member
            · exact heldUp
            · exact heldUp' result member

/-- A device says one response at a time, whatever its link was left with, whatever its responder
does to the responses and its owner to the packet received, and whatever its port does. Of the
responses taken up one is not said to its end while the device sends, and it is not empty; no poll
fails but by the port; a request is reported under the command of the packet that was just
completed. From the poll that takes up a response to the one that says the rest of it, the device is
held up and does nothing else. -/
theorem says_one_response_at_a_time [LawfulResponder R] {link : Link P}
    (sound : link.incoming.IsSound) (responder : R) (responses : List UInt8) (turns : List (Turn P))
    : let start := onLink (@Link.recorded P ε link) responder responses
      let device := start.behind turns
      (start.results turns).countP isAnswered
          = (start.results turns).countP isSent + device.isSending.toNat
        ∧ (device.isSending = true → device.response.isEmpty = false)
        ∧ (∀ failure, device.step.1 = .error failure → ∃ fault, failure = .port fault)
        ∧ (∀ command,
            device.step.1 = .ok (.answered command) ∨ device.step.1 = .ok (.unanswered command)
            → device.link.completes? = some device.step.2.link.incoming
              ∧ device.step.2.link.incoming.command? = some command
              ∧ (device.step.2.isSending = true ↔ device.step.1 = .ok (.answered command)))
        ∧ (device.isSending = true
            → ∀ later, .ok .sent ∉ device.results later
              → let waiting := device.behind later
                waiting.isSending = true
                ∧ device.Sends waiting (Turn.operations later)
                ∧ (∀ result ∈ device.results later, IsHeldUp result)
                ∧ waiting.Sends waiting.step.2 []
                ∧ (waiting.step.1 = .ok .sent ∨ IsHeldUp waiting.step.1)) := by
  intro start device
  have fresh : start.IsOrderly := isOrderly_onLink sound responder responses
  have orderly : device.IsOrderly := fresh.behind turns
  have polled := orderly.polls.1
  refine ⟨?_, ?_, ?_, ?_, ?_⟩
  · have idle : start.isSending = false := rfl
    simpa [idle] using fresh.balance turns
  · intro busy
    obtain ⟨owed, writes⟩ := orderly.writes busy
    exact device.response.isEmpty_of_body writes.command
  · intro failure failed
    rw [failed] at polled
    exact polled.fault_of_error
  · intro command served
    exact polled.of_request served
  · intro busy later unsaid waiting
    obtain ⟨busy', sends, heldUp⟩ := orderly.sends_behind busy unsaid
    obtain ⟨sends', outcome⟩ := (orderly.behind later).polls.1.of_sending busy'
    exact ⟨busy', sends, heldUp, sends', outcome.imp And.left And.left⟩

/-- A responder leaves half a frame in its response and claims to have answered; the link was left
with a packet and a byte, the port fails on one byte of the response and refuses the next one, and
the owner disturbs what comes in. -/
theorem says_one_response_at_a_time_of_half_a_frame
    : let responder : FreeResponder Unit :=
        { state := (), choose := fun _ _ _ => ([.receive 0xC0, .receive 0x05], true, ()) }
      let port : ScheduledPort Unit :=
        { reads := [.ok (some 0xC0), .ok (some 0x01), .ok (some 0x07), .ok (some 0xC0)]
          writes := [.ok true, .error (), .ok false] }
      let incoming : Packet := { storage := [0x01, 0x07], size := 2, verified := true }
      let link : Link (ScheduledPort Unit) := { port, incoming, held := some ⟨0x55, .unfinished⟩ }
      let start := onLink (@Link.recorded (ScheduledPort Unit) Unit link) responder [0, 0]
      let device := start.behind [.poll, .poll, .operate .rewind, .poll, .poll]
      let later : List (Turn (ScheduledPort Unit)) := [.poll, .operate (.receive 0xC0), .poll]
      let waiting := device.behind later
      link.incoming.IsSound ∧ device.isSending = true ∧ .ok .sent ∉ device.results later
      ∧ device.results later = [.error (.port ()), .ok .blocked]
      ∧ waiting.isSending = true ∧ waiting.response.body = [0x05]
      ∧ device.Sends waiting [.receive 0xC0] := by
  intro responder port incoming link start device later waiting
  have sound : link.incoming.IsSound := ⟨Nat.le_refl 2, fun _ => Nat.le_refl 2⟩
  obtain ⟨_, _, _, _, goesOn⟩ := says_one_response_at_a_time sound responder [0, 0]
    [.poll, .poll, .operate .rewind, .poll, .poll]
  have busy : device.isSending = true := by decide +kernel
  have unsaid : .ok .sent ∉ device.results later := by decide +kernel
  obtain ⟨busy', sends, _⟩ := goesOn busy later unsaid
  exact ⟨sound, busy, unsaid, by decide +kernel, busy', by decide +kernel, sends⟩

end Device

end PacketBus
