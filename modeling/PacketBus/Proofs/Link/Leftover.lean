import PacketBus.Proofs.Link.Writing

/-! A push over a link that may hold a byte of another packet.
The byte held goes first, whatever packet is pushed, and what the emitter owes comes behind it.
Inside a frame it takes the place of a byte that is sent already, so only in front of a whole frame
it makes for one call more.
-/

namespace PacketBus

open PacketBus.Frame (wire)

variable {P ε : Type}

/-- The frame of a packet is to be sent, and its emitter stands before it or inside it. -/
structure Packet.IsUnderway (packet : Packet) : Prop where
  sized : packet.size ≤ packet.capacity
  command : packet.body ≠ []
  owes : ∃ owed, packet.emitter.Owes packet.body owed

namespace Link

/-- The link holds a byte in front of the whole frame of a packet, and it is not the last one of its
own frame. -/
def precedes (link : Link P) (packet : Packet) : Bool :=
  packet.emitter.phase = .between && link.held.any (·.status = .unfinished)

variable {link : Link P} {packet : Packet} {body owed : List UInt8}

theorem precedes_of_free (free : link.held = none)
    : link.precedes packet = false := by
  simp [precedes, free]

theorem precedes_of_held_eq {other : Link P} (same : other.held = link.held)
    : other.precedes packet = link.precedes packet := by
  simp only [precedes, same]

/-- A byte that is held in front of what is owed takes a place of the frame, or comes in front of
the whole of it. -/
theorem length_le_of_held {first : WireByte} (kept : link.held = some first)
    (more : first.status = .unfinished) (owes : packet.emitter.Owes packet.body owed)
    : owed.length + 1 ≤ (wire packet.body).length + (link.precedes packet).toNat := by
  obtain ⟨before, rfl⟩ | ⟨-, behind⟩ := owes.place
  · simp [precedes, before, kept, more]
  · have fewer := behind.length_le
    have opened : 0 < (wire packet.body).length := by simp [wire]
    rw [List.length_tail] at fewer
    omega

/-- A packet stays under way when the byte that is held for it is lost. -/
theorem Writes.isUnderway (h : link.Writes packet body owed)
    : packet.IsUnderway := by
  refine ⟨h.sized, by rw [h.body_eq]; exact h.command, ?_⟩
  cases h.owes with
  | emitter free owes => exact ⟨_, owes⟩
  | @held byte rest kept behind =>
      by_cases last : rest = []
      · rw [if_pos last] at behind
        exact ⟨wire packet.body, behind ▸ Emitter.Owes.between⟩
      · rw [if_neg last] at behind
        exact ⟨_, behind⟩

/-- A byte that is held for the packet itself is not in front of its whole frame. -/
theorem Writes.precedes (h : link.Writes packet body owed) (part : owed <:+ wire body)
    : link.precedes packet = false := by
  obtain rfl := h.body_eq
  cases h.owes with
  | emitter free owes => exact precedes_of_free free
  | @held byte rest kept behind =>
      by_cases last : rest = []
      · simp [Link.precedes, kept, last]
      · rw [if_neg last] at behind
        have fewer : rest.length < (wire packet.body).length := part.length_le
        obtain ⟨-, rfl⟩ | ⟨inside, -⟩ := behind.place
        · exact absurd fewer (Nat.lt_irrefl _)
        · simp [Link.precedes, inside]

-----------------------------------------------------------------------------------------
-- A push of a packet that is under way
-----------------------------------------------------------------------------------------

/-- How a push of a packet that is under way stops, by the calls it makes: it is the byte held that
is refused once more, or a byte of the frame. -/
inductive Stops (link : Link (RecordedPort P ε)) (packet : Packet)
    : List (Port.Call ε) → Except (Failure ε) FrameStatus → Link (RecordedPort P ε) → Packet → Prop
  | complete {calls after next} : Stops link packet calls (.ok .complete) after next
  | kept {byte calls after next} (held : link.held = some byte) (still : after.held = link.held)
    (same : next = packet) (last : calls.getLast? = some (.write byte.value (.ok false)))
    : Stops link packet calls (.ok .unfinished) after next
  | refused {byte calls after next} (own : byte ∈ wire packet.body)
    (last : calls.getLast? = some (.write byte (.ok false))) (underway : next.IsUnderway)
    (free : after.precedes next = false)
    : Stops link packet calls (.ok .unfinished) after next
  | failed {fault calls after next} (underway : next.IsUnderway)
    (free : after.precedes next = false)
    : Stops link packet calls (.error (.port fault)) after next

/-- What a push of the rest of a frame comes to, behind whatever calls were made before it. -/
theorem Ending.stops {calls : List (Port.Call ε)} {result : Except (Failure ε) FrameStatus}
    {link after : Link (RecordedPort P ε)} {next : Packet}
    (h : Ending packet.body owed calls result after next) (part : owed <:+ wire packet.body)
    (front : List (Port.Call ε))
    : Stops link packet (front ++ calls) result after next := by
  cases h with
  | complete closed => exact .complete
  | @refused sent byte rest _ _ split later =>
      have behind : byte :: rest <:+ wire packet.body :=
        (split ▸ List.suffix_append sent (byte :: rest)).trans part
      refine .refused (behind.subset List.mem_cons_self) ?_ later.isUnderway (later.precedes behind)
      rw [← List.append_assoc, List.getLast?_concat]
  | @failed sent byte rest fault _ _ split later =>
      refine .failed later.isUnderway (later.precedes ?_)
      split
      · exact List.suffix_refl _
      · exact ((List.suffix_cons byte rest).trans (split ▸ List.suffix_append sent _)).trans part

variable [Port P ε]

/-- Nothing is held behind a frame that is complete; by the recursion of a push. -/
theorem held_of_complete (done : (link.push packet).result = .ok .complete)
    : (link.push packet).link.held = none := by
  fun_induction Link.push link packet with
  | case1 | case2 | case3 => cases done
  | case4 => rfl
  | case5 link packet byte next offered port answered more ih => exact ih done

/-- What a push of a packet that is under way comes to. It writes at least once, no more often than
the frame has bytes, and once more if the link holds a byte in front of the whole of it. -/
inductive Spends (link : Link (RecordedPort P ε)) (packet : Packet)
    : Pushed (RecordedPort P ε) ε → Prop
  | intro {calls : List (Port.Call ε)} {result port held emitter} (some : calls ≠ [])
    (written : ∀ call ∈ calls, call.IsWrite)
    (few : calls.length ≤ (wire packet.body).length + (link.precedes packet).toNat)
    (stops
      : Stops link packet calls result
          { link with port := ⟨port, link.port.calls ++ calls⟩, held } { packet with emitter })
    : Spends link packet
        ⟨result, { link with port := ⟨port, link.port.calls ++ calls⟩, held },
          { packet with emitter }⟩

/-- A link that holds nothing brings what the emitter owes. -/
theorem push_of_free {link : Link (RecordedPort P ε)} (free : link.held = none)
    (h : packet.IsUnderway)
    : ∃ (owed : List UInt8) (calls : List (Port.Call ε)) (port : P) (held : Option WireByte)
        (emitter : Emitter),
        let after := { link with port := ⟨port, link.port.calls ++ calls⟩, held }
        let next := { packet with emitter }
        packet.emitter.Owes packet.body owed
        ∧ link.push packet = ⟨(link.push packet).result, after, next⟩
        ∧ Ending packet.body owed calls (link.push packet).result after next := by
  obtain ⟨sized, command, owed, owes⟩ := h
  have writes : link.Writes packet packet.body owed :=
    { sized, body_eq := rfl, command, owes := .emitter free owes, nonempty := owes.ne_nil }
  obtain ⟨calls, port, held, emitter, linked, packed, ending⟩ := writes.push
  exact ⟨owed, calls, port, held, emitter, owes, by rw [← linked, ← packed], ending⟩

theorem spends_of_free {link : Link (RecordedPort P ε)} (free : link.held = none)
    (h : packet.IsUnderway)
    : Spends link packet (link.push packet) := by
  obtain ⟨owed, calls, port, held, emitter, owes, pushed, ending⟩ := push_of_free free h
  rw [pushed]
  have few : calls.length ≤ (wire packet.body).length :=
    Nat.le_trans ending.length_le owes.suffix.length_le
  exact .intro (ending.isWrite.2 owes.ne_nil) ending.isWrite.1 (Nat.le_add_right_of_le few)
    (ending.stops owes.suffix [])

omit [Port P ε] in
/-- A push that stops at the byte held makes one call, and the packet stays as it is. -/
theorem spends_of_single {link : Link (RecordedPort P ε)} {first : WireByte}
    {answer : Except ε Bool} {port : P} {held : Option WireByte}
    {result : Except (Failure ε) FrameStatus}
    (stops
      : Stops link packet [.write first.value answer] result
          { link with port := ⟨port, link.port.calls ++ [.write first.value answer]⟩, held } packet)
    : Spends link packet
        ⟨result, { link with port := ⟨port, link.port.calls ++ [.write first.value answer]⟩, held },
          packet⟩ := by
  have one : 1 ≤ (wire packet.body).length + (link.precedes packet).toNat := by
    simp only [wire, List.length_append, List.length_cons]
    omega
  exact @Spends.intro _ _ link packet [.write first.value answer] result port held packet.emitter
    (List.cons_ne_nil _ _) (by simp [Port.Call.IsWrite]) one stops

/-- A byte that is held is offered first. If it is taken and is not the last one of its own frame,
what the emitter owes comes behind it. -/
theorem spends_of_held {link : Link (RecordedPort P ε)} {first : WireByte}
    (kept : link.held = some first) (h : packet.IsUnderway)
    : Spends link packet (link.push packet) := by
  have offered : link.nextByte packet = .ok (first, packet) := by rw [nextByte, kept]
  rcases answered : Port.write link.port.port first.value with ⟨answer, port⟩
  have written : Port.write link.port first.value
      = (answer, ⟨port, link.port.calls ++ [.write first.value answer]⟩) := by
    simp only [Port.write, answered]
  rcases answer with fault | _ | _
  · rw [push_of_failed offered written]
    exact spends_of_single (.failed h (precedes_of_free rfl))
  · rw [push_of_refused offered written]
    exact spends_of_single (.kept kept kept.symm rfl rfl)
  · cases last : first.status with
    | complete =>
        rw [push_of_last offered written last]
        exact spends_of_single .complete
    | unfinished =>
        rw [push_of_taken offered written last]
        let rest : Link (RecordedPort P ε) :=
          { link with
            port := ⟨port, link.port.calls ++ [.write first.value (.ok true)]⟩
            held := none }
        have free : rest.held = none := rfl
        obtain ⟨owed, calls, port', held, emitter, owes, pushed, ending⟩ := push_of_free free h
        have stops := @Ending.stops _ _ _ _ _ _ link _ _ ending owes.suffix
          [.write first.value (.ok true)]
        have few : calls.length + 1 ≤ (wire packet.body).length + (link.precedes packet).toNat :=
          Nat.le_trans (Nat.succ_le_succ ending.length_le) (length_le_of_held kept last owes)
        have all : ∀ call ∈ [.write first.value (.ok true)] ++ calls, call.IsWrite :=
          List.forall_mem_cons.mpr ⟨trivial, ending.isWrite.1⟩
        rw [pushed]
        simp only [rest, List.append_assoc] at stops ⊢
        exact .intro (List.cons_ne_nil _ _) all few stops

/-- Whatever a link holds, a packet that is under way is pushed within these bounds. -/
theorem spends_push {link : Link (RecordedPort P ε)} (h : packet.IsUnderway)
    : Spends link packet (link.push packet) := by
  cases kept : link.held with
  | none => exact spends_of_free kept h
  | some first => exact spends_of_held kept h

end Link

end PacketBus
