import PacketBus.Proofs.Dialogue.Visit

/-! What moves leave of a visit.
A step of the host goes on with the call or completes it, so every move keeps both ends in step, and
a call that has returned was answered and leaves nothing behind.
-/

namespace PacketBus

open PacketBus.Frame (wire)

namespace Visit

variable {storage : List UInt8} {calls : List Call} {v : Visit}

-----------------------------------------------------------------------------------------
-- A step of the host
-----------------------------------------------------------------------------------------

section Exchanges

variable {x : Exchange (RecordedPort LineEnd Fault)} {before : List UInt8} {call : Call}

/-- An exchange that begins owes the frame of its call. -/
theorem reaches_start {host : Host (RecordedPort LineEnd Fault)}
    (sent : host.link.port.accepted = before) (heard : host.link.port.delivered = before)
    : Reaches (.start host call.request) before call
      ∧ (Exchange.start host call.request).attempt = 1
      ∧ (Exchange.start host call.request).host.link.port = host.link.port
      ∧ (Exchange.start host call.request).host.link.incoming = host.link.incoming := by
  have command : call.request.body ≠ [] := by simp [call.request_body, Call.body]
  obtain ⟨emitter, prepared, writes⟩ := host.link.prepare_of_command call.request_sized command
  rw [call.request_body] at writes
  simp only [Exchange.start, Exchange.send, prepared]
  exact ⟨.sending rfl writes (congrArg (· ++ wire call.body) sent) heard, rfl, trivial, trivial⟩

/-- What a step of an exchange leaves behind that goes on with its first attempt. -/
structure Continues (storage : List UInt8) (x : Exchange (RecordedPort LineEnd Fault))
    (before : List UInt8) (call : Call) : Prop where
  reaches : Reaches x before call
  attempt : x.attempt = 1
  incoming : x.host.link.incoming = (Packet.ofStorage storage).fed x.host.link.port.delivered

/-- A push goes on with the frame, and the answer is awaited behind it. -/
theorem Continues.sending {owed : List UInt8} (h : Continues storage x before call)
    (busy : x.stage = .sending) (writes : x.host.link.Writes x.request call.body owed)
    (sent : x.host.link.port.accepted ++ owed = before ++ wire call.body)
    (heard : x.host.link.port.delivered = before)
    (between : x.host.link.incoming.receiver = .between)
    : Continues storage x.step before call := by
  obtain ⟨_, attempt, received⟩ := h
  have kept := (x.host.link.port_push Line.keeps_conserves x.request).lost
  obtain ⟨incoming, delivered, emitter, packed, outcome⟩ := writes.push_of_kept kept
  have resting : x.host.link.incoming.abandonFrame = x.host.link.incoming :=
    Packet.abandonFrame_of_whole (by simp [Packet.isMidFrame, between])
  rcases outcome with ⟨complete, _, taken⟩ | ⟨unfinished, rest, later, taken⟩
  · simp only [Exchange.step, busy, Exchange.stepSending, complete, Exchange.await]
    refine ⟨.waiting rfl (taken.trans sent) ?_ (List.nil_append _) (by simp [wire]), attempt, ?_⟩
    · rw [List.append_nil]
      exact delivered.trans heard
    · simpa [incoming, delivered, resting] using received
  · simp only [Exchange.step, busy, Exchange.stepSending, unfinished]
    refine ⟨.sending rfl later (taken.trans sent) (delivered.trans heard), attempt, ?_⟩
    simpa [incoming, delivered] using received

/-- A read before the deadline goes on with the answer, or completes it with its last byte. -/
theorem Continues.waiting {deadline : Nat} {front back : List UInt8}
    (h : Continues storage x before call) (waits : x.stage = .waiting deadline)
    (timely : Clock.now x.host.link.port < deadline)
    (sent : x.host.link.port.accepted = before ++ wire call.body)
    (heard : x.host.link.port.delivered = before ++ front)
    (split : front ++ back = wire call.body) (more : back ≠ [])
    (arrived : Line.arrived x.host.link.port <+: before ++ wire call.body)
    (between : ((Packet.ofStorage storage).fed before).receiver = .between)
    (fits : call.Fits ((Packet.ofStorage storage).fed before).capacity)
    : Continues storage x.step before call := by
  obtain ⟨host, request, _, stage, log⟩ := x
  obtain rfl : stage = .waiting deadline := waits
  obtain ⟨_, attempt, received⟩ := h
  obtain ⟨received', _, accepted⟩ := Link.receive_heard received
  have sent' := accepted.trans sent
  simp only [Exchange.step, Exchange.stepWaiting, if_pos timely]
  rcases Line.receive_cases host.link with
    ⟨_, none, delivered⟩ | ⟨byte, rest, incoming, delivered, some⟩
  · rw [none] at received' sent' ⊢
    exact ⟨.waiting rfl sent' (delivered.trans heard) split more, attempt, received'⟩
  · -- The byte is the next one of the answer.
    have part : before ++ (front ++ [byte]) <+: before ++ wire call.body := by
      refine List.IsPrefix.trans ?_ arrived
      rw [Line.arrived, incoming, heard]
      simp
    rw [List.prefix_append_right_inj, ← split, List.prefix_append_right_inj] at part
    obtain ⟨back', rfl⟩ := part
    rw [List.singleton_append] at split
    obtain ⟨q, ended, _, _, brings⟩ := ends_call (.inl between) fits
    rw [← split] at ended
    have result := ended.receive
    rw [← Packet.fed_append, ← heard, ← received] at result
    have heard' : (Port.read host.link.port).2.delivered = before ++ (front ++ [byte]) := by
      rw [delivered, ← List.append_assoc]
      exact congrArg (· ++ [byte]) heard
    by_cases last : back' = []
    · subst last
      have taken := some _ _ result
      rw [taken] at received' sent' ⊢
      exact ⟨.answered rfl sent' (heard'.trans (congrArg (before ++ ·) split)) brings, attempt,
        received'⟩
    · rw [if_neg last] at result
      have taken := some _ _ (Prod.ext result rfl)
      have split' : front ++ [byte] ++ back' = wire call.body := by simpa using split
      rw [taken] at received' sent' ⊢
      exact ⟨.waiting rfl sent' heard' split' last, attempt, received'⟩

end Exchanges

/-- A host that has been answered has returned, and no other has. -/
theorem Reaches.answered_of_result? {x : Exchange (RecordedPort LineEnd Fault)}
    {before : List UInt8} {call : Call} (h : Reaches x before call)
    (finished : x.result?.isSome = true)
    : x.host.link.port.accepted = before ++ wire call.body
      ∧ x.host.link.port.delivered = before ++ wire call.body
      ∧ x.result? = some (.ok x.host.link.incoming) ∧ call.Brings x.host.link.incoming := by
  cases h with
  | sending busy writes sent heard => simp [Exchange.result?, busy] at finished
  | waiting waits sent heard split more => simp [Exchange.result?, waits] at finished
  | answered done sent heard brings =>
      exact ⟨sent, heard, by simp [Exchange.result?, done], brings⟩

theorem Consistent.settled (h : v.Consistent storage calls)
    (finished : v.exchange.result?.isSome = true)
    : IsSettled (v.call, v.exchange) := by
  obtain ⟨_, _, result, brings⟩ := h.reaches.answered_of_result? finished
  exact ⟨h.attempt, _, result, Call.isAnsweredBy_of_message brings.command brings.payload⟩

theorem Consistent.continues (h : v.Consistent storage calls)
    : Continues storage v.exchange (frames (v.past.map Prod.fst)) v.call where
  reaches := h.reaches
  attempt := h.attempt
  incoming := h.incoming

theorem lt_of_not_isLate (timely : ¬v.IsLate) {deadline : Nat}
    (waits : v.exchange.stage = .waiting deadline)
    : Clock.now v.exchange.host.link.port < deadline :=
  Nat.lt_of_not_le fun late => timely ⟨deadline, waits, late⟩

/-- The host goes on with its call as long as this has not returned, by how far it has come. -/
theorem Consistent.step_exchange (h : v.Consistent storage calls) (fits : AllFit storage calls)
    (timely : ¬v.IsLate)
    : Continues storage v.exchange.step (frames (v.past.map Prod.fst)) v.call := by
  have large := h.asked_fit_host fits
  have before : ∀ call ∈ v.past.map Prod.fst, call.Fits storage.length := fun call member =>
    large call (List.mem_append_left _ member)
  obtain ⟨between, room⟩ := fed_frames (p := Packet.ofStorage storage) rfl before
  have continues := h.continues
  cases h.reaches with
  | sending busy writes sent heard =>
      refine continues.sending busy writes sent heard ?_
      rw [h.incoming, hostPort, heard]
      exact between
  | @waiting deadline _ _ waits sent heard split more =>
      have due := lt_of_not_isLate timely waits
      have arrived := h.arrived fits
      rw [frames_asked] at arrived
      refine continues.waiting waits due sent heard split more arrived between ?_
      rw [room]
      exact large v.call (List.mem_append_right _ List.mem_cons_self)
  | answered done sent heard brings =>
      have same : v.exchange.step = v.exchange := by simp only [Exchange.step, done]
      rw [same]
      exact continues

/-- The next call begins where the last one has ended, between frames. -/
theorem Consistent.host_next (h : v.Consistent storage calls)
    (finished : v.exchange.result?.isSome = true) {next : Call} {later : List Call}
    (waiting : v.waiting = next :: later)
    : Consistent storage calls
        { v with
          call := next
          exchange := .start v.exchange.host next.request
          waiting := later
          past := v.past ++ [(v.call, v.exchange)] } := by
  obtain ⟨sent, heard, _, _⟩ := h.reaches.answered_of_result? finished
  have grown : frames ((v.past ++ [(v.call, v.exchange)]).map Prod.fst)
      = frames (v.past.map Prod.fst) ++ wire v.call.body := by
    rw [List.map_append, frames_append, List.map_singleton, frames_singleton]
  rw [← grown] at sent heard
  obtain ⟨reaches, attempt, port, incoming⟩ := @reaches_start _ next _ sent heard
  have same : (Exchange.start v.exchange.host next.request).host.link.port = v.hostPort := port
  refine {
    requests := ?_
    answers := ?_
    tracks := h.tracks
    serving := h.serving
    order := ?_
    attempt
    incoming := ?_
    reaches
    past := ?_ }
  · rw [hostPort, same]
    exact h.requests
  · rw [hostPort, same]
    exact h.answers
  · rw [← h.order, waiting, List.map_append, List.append_assoc]
    rfl
  · rw [hostPort, same, incoming]
    exact h.incoming
  · intro entry member
    rcases List.mem_append.mp member with earlier | now
    · exact h.past entry earlier
    · obtain rfl := List.mem_singleton.mp now
      exact h.settled finished

theorem Consistent.host_on (h : v.Consistent storage calls) (fits : AllFit storage calls)
    (timely : ¬v.IsLate)
    : Consistent storage calls { v with exchange := v.exchange.step } := by
  obtain ⟨reaches, attempt, incoming⟩ := h.step_exchange fits timely
  have pause : ∀ port : RecordedPort LineEnd Fault, Line.Conserves port (Clock.pause port) :=
    fun port => .of_adjust port Clock.pause rfl rfl
  have moved : Line.Conserves v.hostPort v.exchange.step.host.link.port :=
    v.exchange.port_step Line.keeps_conserves pause
  exact {
    requests := h.requests.of_sender moved
    answers := h.answers.of_receiver moved
    tracks := h.tracks
    serving := h.serving
    order := h.order
    attempt
    incoming
    reaches
    past := h.past }

theorem Consistent.host (h : v.Consistent storage calls) (fits : AllFit storage calls)
    (timely : ¬v.IsLate)
    : (v.perform .host).Consistent storage calls := by
  simp only [perform, stepHost]
  split
  · next finished =>
      split
      · exact h
      · next waiting => exact h.host_next finished waiting
  · exact h.host_on fits timely

theorem Consistent.perform (h : v.Consistent storage calls) (fits : AllFit storage calls)
    {move : Move} (timely : move = .host → ¬v.IsLate)
    : (v.perform move).Consistent storage calls := by
  cases move with
  | host => exact h.host fits (timely rfl)
  | server => exact h.server_move fits
  | line act => exact h.line act

theorem consistent_start (hostSettings serverSettings : LinkSettings) (storage : List UInt8)
    (first : Call) (later : List Call)
    : (start hostSettings serverSettings storage first later).Consistent storage
        (first :: later) := by
  obtain ⟨reaches, attempt, port, incoming⟩ :=
    @reaches_start [] first (.onPort { port := {} } storage hostSettings) rfl rfl
  have same : (start hostSettings serverSettings storage first later).hostPort = { port := {} } :=
    port
  refine {
    requests := ?_
    answers := ?_
    tracks := ⟨rfl, rfl, .silent rfl rfl rfl⟩
    serving := rfl
    order := rfl
    attempt
    incoming := ?_
    reaches
    past := fun _ none => absurd none List.not_mem_nil }
  · rw [same]
    rfl
  · rw [same]
    rfl
  · rw [same]
    exact incoming.trans rfl

theorem after_append (v : Visit) (front back : List Move)
    : v.after (front ++ back) = (v.after front).after back :=
  List.foldl_append

theorem IsTimely.front {front back : List Move} (h : v.IsTimely (front ++ back))
    : v.IsTimely front :=
  fun _ part => h _ (part.trans (List.prefix_append front back))

theorem IsTimely.back {front back : List Move} (h : v.IsTimely (front ++ back))
    : (v.after front).IsTimely back := by
  intro later part
  rw [← after_append]
  apply h
  rwa [List.append_assoc, List.prefix_append_right_inj]

/-- By induction on the moves. -/
theorem Consistent.after (h : v.Consistent storage calls) (fits : AllFit storage calls)
    {moves : List Move} (timely : v.IsTimely moves)
    : (v.after moves).Consistent storage calls := by
  induction moves generalizing v with
  | nil => exact h
  | cons move rest ih =>
      have next : (v.perform move).Consistent storage calls := by
        refine h.perform fits ?_
        rintro rfl
        exact timely [] ⟨rest, rfl⟩
      exact ih next (@IsTimely.back v [move] rest timely)

-----------------------------------------------------------------------------------------
-- A call that has returned
-----------------------------------------------------------------------------------------

theorem eq_nil_of_prefix_self {α : Type} {front back : List α} (part : front ++ back <+: front)
    : back = [] := by
  have shorter := part.length_le
  rw [List.length_append] at shorter
  exact List.length_eq_zero_iff.mp (by omega)

/-- A packet that has received the frames of calls is not in the middle of another. -/
theorem isMidFrame_of_frames {p : Packet} (between : p.receiver = .between)
    (fits : ∀ call ∈ calls, call.Fits p.capacity)
    : (p.fed (frames calls)).isMidFrame = false := by
  obtain ⟨between', _⟩ := fed_frames between fits
  simp [Packet.isMidFrame, between']

/-- Once a call has returned, all that was sent for it was read, so that nothing is left. -/
theorem Consistent.isClear (h : v.Consistent storage calls) (fits : AllFit storage calls)
    (finished : v.exchange.result?.isSome = true)
    : v.IsClear := by
  obtain ⟨sent, heard, _, _⟩ := h.reaches.answered_of_result? finished
  rw [← frames_asked] at sent heard
  obtain ⟨repeated, _⟩ := h.reply fits
  -- What the host has read is what it has sent, so all that lies between is the same.
  have read : frames v.asked <+: v.serverPort.accepted := by
    have part := h.answers.delivered
    rwa [hostPort, heard] at part
  have known : frames v.asked <+: v.serverPort.delivered :=
    read.trans (h.said.1.trans repeated)
  have requests : v.serverPort.delivered ++ (v.serverPort.port.incoming ++ v.hostPort.port.outgoing)
      <+: v.serverPort.delivered := by
    have whole := h.requests
    rw [Line.Joins, hostPort, sent, Line.arrived, List.append_assoc] at whole
    rwa [hostPort, ← whole]
  have answers : v.hostPort.delivered ++ (v.hostPort.port.incoming ++ v.serverPort.port.outgoing)
      <+: v.hostPort.delivered := by
    have whole := h.answers
    rw [Line.Joins, Line.arrived, List.append_assoc] at whole
    rw [← whole, hostPort, heard]
    exact h.said.1.trans (repeated.trans h.heard)
  have silent : v.session.device.isSending = false := by
    cases h.tracks.reports with
    | silent idle account response => exact idle
    | @sending owed busy writes account response =>
        have more : v.serverPort.accepted ++ owed <+: v.serverPort.accepted := by
          rw [serverPort, account]
          exact repeated.trans (h.heard.trans read)
        exact absurd (eq_nil_of_prefix_self more) writes.nonempty
  have atHost : v.exchange.host.link.incoming.isMidFrame = false := by
    rw [h.incoming, hostPort, heard]
    exact isMidFrame_of_frames rfl (h.asked_fit_host fits)
  have atServer : v.session.device.link.incoming.isMidFrame = false := by
    have same : v.session.device.link.port.delivered = frames v.asked :=
      h.heard.eq_of_length (Nat.le_antisymm h.heard.length_le known.length_le)
    rw [h.tracks.heard, same]
    exact isMidFrame_of_frames rfl (h.asked_fit_server fits)
  obtain ⟨arrivedRequests, goneRequests⟩ :=
    List.append_eq_nil_iff.mp (eq_nil_of_prefix_self requests)
  obtain ⟨arrivedAnswers, goneAnswers⟩ :=
    List.append_eq_nil_iff.mp (eq_nil_of_prefix_self answers)
  exact ⟨⟨goneRequests, arrivedRequests⟩, ⟨goneAnswers, arrivedAnswers⟩, silent, atHost, atServer⟩

/-- Every call that has returned was answered, and they have returned in their order. -/
theorem Consistent.returned (h : v.Consistent storage calls)
    : v.returned.map Prod.fst <+: calls ∧ ∀ entry ∈ v.returned, IsSettled entry := by
  by_cases finished : v.exchange.result?.isSome = true
  · rw [Visit.returned, if_pos finished]
    refine ⟨?_, ?_⟩
    · rw [List.map_append]
      exact h.asked_part
    · intro entry member
      rcases List.mem_append.mp member with earlier | now
      · exact h.past entry earlier
      · obtain rfl := List.mem_singleton.mp now
        exact h.settled finished
  · rw [Visit.returned, if_neg finished, List.append_nil]
    exact ⟨⟨_, h.order⟩, h.past⟩

end Visit

end PacketBus
