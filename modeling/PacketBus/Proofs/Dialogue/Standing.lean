import PacketBus.Proofs.Dialogue.Line
import PacketBus.Proofs.Dialogue.Asking

/-! How far an end of a line has come.
All that goes over a line only grows, and an end that can go on does so: it sends what there is room
for and reads what has come.
-/

namespace PacketBus

namespace Line

/-- How many bytes an end has sent, how many have come to it, how many of these it has read, and
whether the line takes another. -/
structure Standing where
  sent : Nat
  arrived : Nat
  read : Nat
  isOpen : Bool

def standing (p : RecordedPort LineEnd Fault) : Standing where
  sent := p.accepted.length
  arrived := (arrived p).length
  read := p.delivered.length
  isOpen := decide (0 < p.port.room)

/-- A measure in which a byte that is sent counts for more than the room that it takes. -/
def Standing.weight (s : Standing) : Nat :=
  2 * s.sent + s.arrived + s.read + s.isOpen.toNat

/-- Nothing has become less, and a line is closed only by what is sent. -/
structure Standing.Grows (s t : Standing) : Prop where
  sent : s.sent ≤ t.sent
  arrived : s.arrived ≤ t.arrived
  read : s.read ≤ t.read
  opened : t.sent = s.sent → s.isOpen = true → t.isOpen = true

namespace Standing.Grows

variable {s t u : Standing}

theorem refl (s : Standing)
    : s.Grows s :=
  ⟨Nat.le_refl _, Nat.le_refl _, Nat.le_refl _, fun _ => id⟩

theorem trans (h : s.Grows t) (next : t.Grows u)
    : s.Grows u where
  sent := Nat.le_trans h.sent next.sent
  arrived := Nat.le_trans h.arrived next.arrived
  read := Nat.le_trans h.read next.read
  opened same opened := by
    have first := h.sent
    have second := next.sent
    exact next.opened (by omega) (h.opened (by omega) opened)

/-- What grows weighs no less, and as much as before only if it is the same. -/
theorem weight (h : s.Grows t)
    : s.weight ≤ t.weight ∧ (t.weight ≤ s.weight → t = s) := by
  obtain ⟨sent, arrived, read, isOpen⟩ := s
  obtain ⟨sent', arrived', read', isOpen'⟩ := t
  obtain ⟨moreSent, moreArrived, moreRead, opened⟩ := h
  simp only [Standing.weight, mk.injEq] at *
  by_cases same : sent' = sent
  · -- Where nothing was sent no room was taken.
    subst same
    cases isOpen with
    | true =>
        obtain rfl : isOpen' = true := opened rfl rfl
        exact ⟨by omega, fun heavy => ⟨rfl, by omega, by omega, rfl⟩⟩
    | false =>
        cases isOpen' with
        | false => exact ⟨by omega, fun heavy => ⟨rfl, by omega, by omega, rfl⟩⟩
        | true =>
            simp only [Bool.toNat_false, Bool.toNat_true]
            omega
  · have room := isOpen.toNat_le
    omega

end Standing.Grows

/-- An end that has made some calls more, and lost nothing that has come, has come farther. -/
theorem grows_of_calls {before after : RecordedPort LineEnd Fault} (moved : Conserves before after)
    (grown : ∃ more, after.calls = before.calls ++ more)
    (opened : after.accepted.length = before.accepted.length → 0 < before.port.room
      → 0 < after.port.room)
    : (standing before).Grows (standing after) := by
  obtain ⟨more, calls⟩ := grown
  refine ⟨?_, Nat.le_of_eq (congrArg List.length moved.arrived.symm), ?_, fun same room => ?_⟩
  · simp [standing, RecordedPort.accepted, calls]
  · simp [standing, RecordedPort.delivered, calls]
  · exact decide_eq_true (opened same (of_decide_eq_true room))

/-- Every call leaves an end as far as it was or farther, and takes room only for a byte. -/
theorem keeps_grows
    : Port.Keeps fun before after => (standing before).Grows (standing after) where
  refl port := .refl _
  trans h next := h.trans next
  read port := grows_of_calls (keeps_conserves.read port) (RecordedPort.keeps_calls.read port)
    fun _ => id
  write := by
    intro port byte
    refine grows_of_calls (keeps_conserves.write port byte)
      (RecordedPort.keeps_calls.write port byte) fun same opened => ?_
    obtain ⟨⟨incoming, outgoing, room, time⟩, calls⟩ := port
    cases room with
    | zero => exact opened
    | succ room => simp [RecordedPort.accepted, Port.write] at same

/-- What happens to an end without a call of it takes nothing away, as long as it leaves the room
and what has come. -/
theorem grows_adjust (p : RecordedPort LineEnd Fault) (change : LineEnd → LineEnd)
    (incoming : p.port.incoming <+: (change p.port).incoming)
    (room : p.port.room ≤ (change p.port).room)
    : (standing p).Grows (standing (p.adjust change)) where
  sent := Nat.le_refl _
  arrived := by
    have longer := incoming.length_le
    simpa [standing, arrived, RecordedPort.adjust, RecordedPort.delivered] using longer
  read := Nat.le_refl _
  opened _ opened := decide_eq_true (Nat.lt_of_lt_of_le (of_decide_eq_true opened) room)

theorem grows_carry (sender receiver : RecordedPort LineEnd Fault)
    : (standing sender).Grows (standing (carry sender receiver).1)
      ∧ (standing receiver).Grows (standing (carry sender receiver).2) := by
  unfold carry
  split
  · exact ⟨.refl _, .refl _⟩
  · exact ⟨grows_adjust _ _ List.prefix_rfl (Nat.le_refl _),
      grows_adjust _ _ (List.prefix_append _ _) (Nat.le_refl _)⟩

theorem grows_act (host device : RecordedPort LineEnd Fault) (a : Act)
    : (standing host).Grows (standing (act host device a).1)
      ∧ (standing device).Grows (standing (act host device a).2) := by
  cases a with
  | carryRequest => exact grows_carry host device
  | carryAnswer => exact (grows_carry device host).symm
  | elapse milliseconds => exact ⟨grows_adjust _ _ List.prefix_rfl (Nat.le_refl _), .refl _⟩
  | requestRoom bytes => exact ⟨grows_adjust _ _ List.prefix_rfl (Nat.le_add_right _ _), .refl _⟩
  | answerRoom bytes => exact ⟨.refl _, grows_adjust _ _ List.prefix_rfl (Nat.le_add_right _ _)⟩

theorem isOpen_of_room (p : RecordedPort LineEnd Fault) {bytes : Nat} (some : 0 < bytes)
    : (standing (p.adjust fun l => { l with room := l.room + bytes })).isOpen = true :=
  decide_eq_true (Nat.add_pos_right _ some)

/-- If a byte could be carried and none has come, none is on its way. -/
theorem Joins.arrived_of_still {sender receiver : RecordedPort LineEnd Fault}
    (h : Joins sender receiver)
    (still : (standing (Line.carry sender receiver).2).arrived = (standing receiver).arrived)
    : (standing receiver).arrived = (standing sender).sent := by
  simp only [standing]
  rw [h]
  cases gone : sender.port.outgoing with
  | nil => rw [List.append_nil]
  | cons byte rest =>
      simp [Line.carry, gone, standing, arrived, RecordedPort.adjust, RecordedPort.delivered]
        at still

end Line

/-- A push that stops before the end of a frame has found no room, by the recursion of the push. -/
theorem Link.room_of_unfinished (link : Link (RecordedPort LineEnd Fault)) (packet : Packet)
    (unfinished : (link.push packet).result = .ok .unfinished)
    : (link.push packet).link.port.port.room = 0 := by
  fun_induction Link.push link packet with
  | case1 link packet failure failed => cases unfinished
  | case2 link packet byte next offered fault port answered => cases unfinished
  | case3 link packet byte next offered port answered =>
      obtain ⟨⟨⟨incoming, outgoing, room, time⟩, calls⟩, _⟩ := link
      cases room with
      | zero => exact congrArg (fun p => p.2.port.room) answered.symm
      | succ room => simp [Port.write] at answered
  | case4 link packet byte next offered port answered last => cases unfinished
  | case5 link packet byte next offered port answered more ih => exact ih unfinished

/-- A push takes a byte if there is room for one. -/
theorem Link.Writes.sent_push {link : Link (RecordedPort LineEnd Fault)} {packet : Packet}
    {body owed : List UInt8} (writes : link.Writes packet body owed)
    (opened : (Line.standing link.port).isOpen = true)
    : (Line.standing (link.push packet).link.port).sent ≠ (Line.standing link.port).sent := by
  intro same
  have kept := (link.port_push Line.keeps_conserves packet).lost
  have room := (link.port_push Line.keeps_grows packet).opened same opened
  simp only [Line.standing, decide_eq_true_eq] at same room
  obtain ⟨_, _, _, _, ⟨_, _, taken⟩ | ⟨unfinished, _⟩⟩ := writes.push_of_kept kept
  · rw [taken, List.length_append, Nat.add_eq_left] at same
    exact writes.nonempty (List.length_eq_zero_iff.mp same)
  · exact absurd (link.room_of_unfinished packet unfinished) (Nat.ne_of_gt room)

/-- An exchange that waits and reads nothing has nothing to read. -/
theorem Exchange.incoming_of_still {x : Exchange (RecordedPort LineEnd Fault)} {deadline : Nat}
    (waits : x.stage = .waiting deadline) (timely : Clock.now x.host.link.port < deadline)
    (still : (Line.standing x.step.host.link.port).read = (Line.standing x.host.link.port).read)
    : x.host.link.port.port.incoming = [] := by
  obtain ⟨⟨⟨⟨⟨incoming, outgoing, room, time⟩, calls⟩, packet, held, debug⟩, settings, names⟩,
    request, attempt, stage, log⟩ := x
  obtain rfl : stage = .waiting deadline := waits
  cases incoming with
  | nil => rfl
  | cons byte rest =>
      simp only [Exchange.step, Exchange.stepWaiting, if_pos timely, Link.receive, Port.read,
        List.head?_cons] at still
      rcases received : packet.receive byte with ⟨failure | _ | _, q⟩
      · simp only [received, Exchange.take] at still
        by_cases losesFrameOnly : failure.losesFrameOnly = true
        · simp [losesFrameOnly, Exchange.note, Line.standing, RecordedPort.delivered] at still
        · simp [losesFrameOnly, Exchange.fail, Line.standing, RecordedPort.delivered] at still
      · simp [received, Exchange.take, Line.standing, RecordedPort.delivered] at still
      · simp [received, Exchange.take, Exchange.note, Line.standing, RecordedPort.delivered]
          at still

end PacketBus
