import PacketBus.Proofs.Link.Writing

/-! A write under way, over any port and with anything else that goes on meanwhile.
What the port has taken or failed on and what is still owed make up the frame, with one more copy
of the frame in front of it for each closing delimiter on which the port failed.
-/

namespace PacketBus

open PacketBus.Frame (wire)

/-- The link with a record of its port from now on. -/
def Link.recorded {P ε : Type} (link : Link P) : Link (RecordedPort P ε) :=
  { link with port := { port := link.port } }

/-- A link and the packet that is being written over it, with a record of the port from the
beginning of the write. -/
structure Writing (P ε : Type) where
  link : Link (RecordedPort P ε)
  packet : Packet

/-- What may happen while a packet is being written. -/
inductive Writing.Act (P : Type) where
  | push
  | receive
  /-- Another packet is to be written. -/
  | prepare (other : Packet)
  /-- Something happens to the port that is no call of it. -/
  | adjust (change : P → P)

namespace Writing

variable {P ε : Type}

/-- Begins to write a packet, and to record the port. -/
def start (link : Link P) (packet : Packet) : Except Packet.Failure (Writing P ε) :=
  let (result, link) := link.recorded.prepare packet
  result.map (⟨link, ·⟩)

variable [Port P ε]

/-- What a push of the packet comes to. -/
def pushed (w : Writing P ε) : Link.Pushed (RecordedPort P ε) ε :=
  w.link.push w.packet

/-- The write behind one act. -/
def perform (w : Writing P ε) : Act P → Writing P ε
  | .push => ⟨w.pushed.link, w.pushed.packet⟩
  | .receive => { w with link := w.link.receive.2 }
  | .prepare other => { w with link := (w.link.prepare other).2 }
  | .adjust change => { w with link := { w.link with port := w.link.port.adjust change } }

/-- The write behind a number of acts. -/
def after (w : Writing P ε) (acts : List (Act P)) : Writing P ε :=
  acts.foldl perform w

/-- The results of the pushes among a number of acts, in order. -/
def results (w : Writing P ε) : List (Act P) → List (Except (Link.Failure ε) FrameStatus)
  | [] => []
  | .push :: rest => w.pushed.result :: (w.perform .push).results rest
  | act :: rest => (w.perform act).results rest

/-- The frame is not complete, and no other packet is begun. -/
structure Continues (w : Writing P ε) (acts : List (Act P)) : Prop where
  unfinished : .ok .complete ∉ w.results acts
  refused : ∀ other, .prepare other ∈ acts → other.rewind = .error .tooShort

theorem Continues.tail {w : Writing P ε} {act : Act P} {rest : List (Act P)}
    (h : w.Continues (act :: rest))
    : (w.perform act).Continues rest where
  unfinished := by
    intro later
    apply h.unfinished
    cases act with
    | push => exact List.mem_cons_of_mem _ later
    | receive | prepare _ | adjust _ => exact later
  refused := fun other member => h.refused other (List.mem_cons_of_mem _ member)

omit [Port P ε] in
/-- The frame of `body` is under way: it is the last one of `lostEnds + 1` copies, of which the port
has failed to take the closing delimiters of the others. -/
structure Underway (w : Writing P ε) (body : List UInt8) (lostEnds : Nat) (owed : List UInt8)
    : Prop where
  writes : w.link.Writes w.packet body owed
  account : w.link.port.released ++ owed = (List.replicate (lostEnds + 1) (wire body)).flatten
  lostEnds_le : lostEnds ≤ w.link.port.lost.length

omit [Port P ε] in
theorem start_of_command (link : Link P) {packet : Packet} (sized : packet.size ≤ packet.capacity)
    (command : packet.body ≠ [])
    : ∃ w : Writing P ε, start link packet = .ok w ∧ w.link.port.calls = []
        ∧ w.Underway packet.body 0 (wire packet.body) := by
  obtain ⟨emitter, prepared, writes⟩ :=
    (@Link.recorded P ε link).prepare_of_command sized command
  refine ⟨⟨_, _⟩, ?_, ?_, ⟨writes, ?_, Nat.zero_le _⟩⟩
  · simp only [start, prepared]
    rfl
  · rfl
  · simp [RecordedPort.released, Link.recorded]

variable {w : Writing P ε} {body owed : List UInt8} {lostEnds : Nat}

/-- A push that does not complete the frame leaves it under way, by the ways a push ends. -/
theorem Underway.push (h : w.Underway body lostEnds owed)
    (unfinished : w.pushed.result ≠ .ok .complete)
    : ∃ lostEnds owed, (w.perform .push).Underway body lostEnds owed := by
  obtain ⟨calls, port, held, emitter, linked, packed, ending⟩ := h.writes.push
  obtain ⟨_, account, lostEnds_le⟩ := h
  simp only [RecordedPort.released, RecordedPort.lost] at account lostEnds_le
  simp only [perform, pushed] at unfinished ⊢
  rw [linked, packed]
  generalize (w.link.push w.packet).result = result at ending unfinished
  cases ending with
  | complete closed => exact absurd rfl unfinished
  | @refused sent byte rest _ _ split later =>
      refine ⟨lostEnds, byte :: rest, later, ?_, ?_⟩
      · rw [← account, split]
        simp [RecordedPort.released, List.filterMap_cons]
      · simpa [RecordedPort.lost, List.filterMap_cons] using lostEnds_le
  | @failed sent byte rest fault _ _ split later =>
      by_cases last : rest = []
      · -- The whole frame is owed again behind the copy that was not closed.
        subst last
        rw [if_pos rfl] at later
        refine ⟨lostEnds + 1, wire body, later, ?_, ?_⟩
        · rw [List.replicate_succ', List.flatten_concat, ← account, split]
          simp [RecordedPort.released]
        · simpa [RecordedPort.lost, List.filterMap_cons] using lostEnds_le
      · rw [if_neg last] at later
        refine ⟨lostEnds, rest, later, ?_, ?_⟩
        · rw [← account, split]
          simp [RecordedPort.released]
        · simp only [RecordedPort.lost, List.filterMap_append, List.length_append]
          omega

theorem Underway.receive (h : w.Underway body lostEnds owed)
    : (w.perform .receive).Underway body lostEnds owed := by
  obtain ⟨incoming, received⟩ := w.link.receive_snd
  simp only [perform, received]
  refine ⟨h.writes.of_held_eq rfl, ?_, ?_⟩
  · simpa [RecordedPort.released, Port.read, List.filterMap_cons] using h.account
  · simpa [RecordedPort.lost, Port.read, List.filterMap_cons] using h.lostEnds_le

theorem Underway.adjust (h : w.Underway body lostEnds owed) (change : P → P)
    : (w.perform (.adjust change)).Underway body lostEnds owed :=
  ⟨h.writes.of_held_eq rfl, h.account, h.lostEnds_le⟩

/-- A packet that has no frame is refused, and the link stays as it is. -/
theorem perform_prepare_of_refused {other : Packet} (refused : other.rewind = .error .tooShort)
    : w.perform (.prepare other) = w := by
  rw [perform, w.link.prepare_of_refused refused]

/-- Whatever goes on meanwhile, a frame that is not complete stays under way; by induction on what
goes on. -/
theorem Underway.after (h : w.Underway body lostEnds owed) {acts : List (Act P)}
    (continues : w.Continues acts)
    : ∃ lostEnds owed, (w.after acts).Underway body lostEnds owed := by
  induction acts generalizing w lostEnds owed with
  | nil => exact ⟨lostEnds, owed, h⟩
  | cons act rest ih =>
      have later := continues.tail
      cases act with
      | push =>
          have unfinished : w.pushed.result ≠ .ok .complete := by
            intro complete
            exact continues.unfinished (by simp [results, complete])
          obtain ⟨lostEnds', owed', next⟩ := h.push unfinished
          exact ih next later
      | receive => exact ih h.receive later
      | prepare other =>
          have same := perform_prepare_of_refused (w := w) (continues.refused other (by simp))
          rw [same] at later
          simp only [Writing.after, List.foldl_cons, same]
          exact ih h later
      | adjust change => exact ih (h.adjust change) later

end Writing

end PacketBus
