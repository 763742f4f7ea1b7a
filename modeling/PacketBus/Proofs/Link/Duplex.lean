import PacketBus.Proofs.Link.Underway
import PacketBus.Proofs.Port.Sides

/-! A link that is read and written in turns.
What a read brings depends on nothing that is being written, and a write on nothing that is being
received, so in any order of the calls each side goes on as if it were alone.
-/

namespace PacketBus

variable {P S T V ι ε : Type}

/-- A link, and the packets that are written over it. -/
structure Duplex (P ι : Type) where
  link : Link P
  outgoing : ι → Packet

namespace Duplex

/-- A call of a link, with the packet that is to be written. -/
inductive Call (ι : Type) where
  | receive
  | prepare (index : ι)
  | push (index : ι)
  deriving DecidableEq

def Call.isRead : Call ι → Bool
  | receive => true
  | prepare _ | push _ => false

/-- What a call answers. -/
inductive Answer (ε : Type) where
  | received (result : Except (Link.Failure ε) (Option FrameStatus))
  | prepared (result : Except Packet.Failure Unit)
  | pushed (result : Except (Link.Failure ε) FrameStatus)
  deriving DecidableEq

/-- The link with a packet as it is after a call. -/
def store [DecidableEq ι] (d : Duplex P ι) (link : Link P) (index : ι) (packet : Packet)
    : Duplex P ι where
  link := link
  outgoing other := if other = index then packet else d.outgoing other

variable [Port P ε] [DecidableEq ι]

/-- Carries out one call. -/
def perform (d : Duplex P ι) : Call ι → Answer ε × Duplex P ι
  | .receive => (.received d.link.receive.1, { d with link := d.link.receive.2 })
  | .prepare index =>
      match d.link.prepare (d.outgoing index) with
      | (.ok packet, link) => (.prepared (.ok ()), d.store link index packet)
      | (.error e, link) => (.prepared (.error e), { d with link })
  | .push index =>
      let pushed := d.link.push (d.outgoing index)
      (.pushed pushed.result, d.store pushed.link index pushed.packet)

/-- Carries out a number of calls, and lists each with its answer. -/
def run (d : Duplex P ι) : List (Call ι) → List (Call ι × Answer ε) × Duplex P ι
  | [] => ([], d)
  | call :: rest =>
      let (answer, next) := d.perform call
      let (answers, last) := next.run rest
      ((call, answer) :: answers, last)

-----------------------------------------------------------------------------------------
-- One side
-----------------------------------------------------------------------------------------

/-- Calls of one kind have a view to themselves: a call of the other kind does not change it, and it
decides what a call of this kind answers and makes of it. -/
structure Owns (own : Call ι → Bool) (view : Duplex P ι → V) : Prop where
  kept : ∀ d {call}, own call = false → view (d.perform call).2 = view d
  decided
    : ∀ {d e call}, own call = true → view d = view e
      → (d.perform call).1 = (e.perform call).1
        ∧ view (d.perform call).2 = view (e.perform call).2

/-- Among any other calls, those of one kind answer and leave their view as if they were made alone;
by induction on the calls. -/
theorem Owns.run {own : Call ι → Bool} {view : Duplex P ι → V} (h : Owns own view)
    {d e : Duplex P ι} (same : view d = view e) (calls : List (Call ι))
    : (d.run calls).1.filter (fun entry => own entry.1) = (e.run (calls.filter own)).1
      ∧ view (d.run calls).2 = view (e.run (calls.filter own)).2 := by
  induction calls generalizing d e with
  | nil => exact ⟨rfl, same⟩
  | cons call rest ih =>
      cases mine : own call with
      | false =>
          simpa [Duplex.run, mine] using ih ((h.kept d mine).trans same)
      | true =>
          obtain ⟨answer, next⟩ := h.decided mine same
          simpa [Duplex.run, mine, answer] using ih next

/-- Calls that are all of one kind go by their view. -/
theorem Owns.run_own {own : Call ι → Bool} {view : Duplex P ι → V} (h : Owns own view)
    {d e : Duplex P ι} (same : view d = view e) {calls : List (Call ι)}
    (all : calls.filter own = calls)
    : (d.run calls).1 = (e.run calls).1 ∧ view (d.run calls).2 = view (e.run calls).2 := by
  have here := h.run (Eq.refl (view d)) calls
  have there := h.run same calls
  rw [all] at here there
  exact ⟨here.1.symm.trans there.1, there.2⟩

/-- Calls that are all of other kinds leave the view as it is. -/
theorem Owns.run_other {own : Call ι → Bool} {view : Duplex P ι → V} (h : Owns own view)
    (d : Duplex P ι) {calls : List (Call ι)} (none : calls.filter own = [])
    : view (d.run calls).2 = view d := by
  have last := (h.run (Eq.refl (view d)) calls).2
  rwa [none] at last

theorem run_append (d : Duplex P ι) (calls more : List (Call ι))
    : d.run (calls ++ more)
      = ((d.run calls).1 ++ ((d.run calls).2.run more).1, ((d.run calls).2.run more).2) := by
  induction calls generalizing d with
  | nil => rfl
  | cons call rest ih => simp only [List.cons_append, run, ih]

/-- What the reads of a link have to do with: the packet received into, and the port as far as it is
read. -/
def reading (source : P → S) (d : Duplex P ι) : Packet × S :=
  (d.link.incoming, source d.link.port)

/-- What the writes of a link have to do with: the packets, the byte held, and the port as far as it
is written. -/
def writing (sink : P → T) (d : Duplex P ι) : (ι → Packet) × Option WireByte × T :=
  (d.outgoing, d.link.held, sink d.link.port)

end Duplex

-----------------------------------------------------------------------------------------
-- What a read and a push go by
-----------------------------------------------------------------------------------------

namespace Link

variable [Port P ε] {source : P → S} {sink : P → T}

/-- A read goes by what is being received and the port as far as it is read. -/
theorem receive_of_same (sides : Port.HasSides source sink) {link other : Link P}
    (incoming : link.incoming = other.incoming) (port : source link.port = source other.port)
    : link.receive.1 = other.receive.1
      ∧ link.receive.2.incoming = other.receive.2.incoming
      ∧ source link.receive.2.port = source other.receive.2.port := by
  rcases read : Port.read link.port with ⟨answer, after⟩
  obtain ⟨after', read', next⟩ := sides.read_of_same port read
  unfold receive
  rw [read, read', incoming]
  rcases answer with fault | _ | byte
  · exact ⟨rfl, rfl, next⟩
  · exact ⟨rfl, rfl, next⟩
  · rcases taken : other.incoming.receive byte with ⟨_ | status, packet⟩
    · simp only [taken, next, and_self]
    · simp only [taken, next, and_self]

/-- A read leaves alone what is being written. -/
theorem receive_keeps_sink (sides : Port.HasSides source sink) (link : Link P)
    : link.receive.2.held = link.held ∧ sink link.receive.2.port = sink link.port := by
  obtain ⟨incoming, received⟩ := link.receive_snd
  rw [received]
  exact ⟨rfl, sides.sink_read link.port⟩

omit [Port P ε] in
/-- The next byte goes by the packet and the byte held. -/
theorem nextByte_of_same {link other : Link P} {packet : Packet}
    {offered : Except Packet.Failure (WireByte × Packet)} (held : link.held = other.held)
    (next : link.nextByte packet = offered)
    : other.nextByte packet = offered := by
  rwa [nextByte, ← held]

/-- A push goes by the packet, the byte held and the port as far as it is written; by the recursion
of a push. -/
theorem push_of_same (sides : Port.HasSides source sink) {link other : Link P} (packet : Packet)
    (held : link.held = other.held) (port : sink link.port = sink other.port)
    : (link.push packet).result = (other.push packet).result
      ∧ (link.push packet).packet = (other.push packet).packet
      ∧ (link.push packet).link.held = (other.push packet).link.held
      ∧ sink (link.push packet).link.port = sink (other.push packet).link.port := by
  fun_induction Link.push link packet generalizing other with
  | case1 link packet failure failed =>
      rw [push_of_no_byte (nextByte_of_same held failed)]
      exact ⟨rfl, rfl, held, port⟩
  | case2 link packet byte next offered fault after answered =>
      obtain ⟨after', written, same⟩ := sides.write_of_same port answered
      rw [push_of_failed (nextByte_of_same held offered) written]
      exact ⟨rfl, rfl, rfl, same⟩
  | case3 link packet byte next offered after answered =>
      obtain ⟨after', written, same⟩ := sides.write_of_same port answered
      rw [push_of_refused (nextByte_of_same held offered) written]
      exact ⟨rfl, rfl, rfl, same⟩
  | case4 link packet byte next offered after answered last =>
      obtain ⟨after', written, same⟩ := sides.write_of_same port answered
      rw [push_of_last (nextByte_of_same held offered) written last]
      exact ⟨rfl, rfl, rfl, same⟩
  | case5 link packet byte next offered after answered more ih =>
      obtain ⟨after', written, same⟩ := sides.write_of_same port answered
      rw [push_of_taken (nextByte_of_same held offered) written more]
      exact ih rfl same

/-- A push leaves alone what is being received; by the recursion of a push. -/
theorem incoming_push (link : Link P) (packet : Packet)
    : (link.push packet).link.incoming = link.incoming := by
  fun_induction Link.push link packet with
  | case1 | case2 | case3 | case4 => rfl
  | case5 link packet byte next offered after answered more ih => exact ih

/-- A push leaves the side of the port alone that is read. -/
theorem source_push (sides : Port.HasSides source sink) (link : Link P) (packet : Packet)
    : source (link.push packet).link.port = source link.port :=
  port_push_of_writes (K := fun port => source port = source link.port)
    (fun byte same => (sides.source_write _ byte).trans same) packet rfl

end Link

-----------------------------------------------------------------------------------------
-- Both sides
-----------------------------------------------------------------------------------------

namespace Duplex

variable [Port P ε] [DecidableEq ι] {source : P → S} {sink : P → T}

theorem owns_reading (sides : Port.HasSides source sink)
    : Owns Call.isRead (reading source : Duplex P ι → _) where
  kept d call other := by
    cases call with
    | receive => cases other
    | prepare index =>
        cases rewound : (d.outgoing index).rewind with
        | error => simp only [perform, Link.prepare, rewound]
        | ok => simp only [perform, Link.prepare, rewound, store, reading]
    | push index =>
        exact Prod.ext (d.link.incoming_push (d.outgoing index))
          (d.link.source_push sides (d.outgoing index))
  decided {d e call} own same := by
    cases call with
    | receive =>
        obtain ⟨incoming, port⟩ := Prod.mk.inj same
        obtain ⟨answer, incoming, unread⟩ := Link.receive_of_same sides incoming port
        exact ⟨congrArg Answer.received answer, Prod.ext incoming unread⟩
    | prepare index => cases own
    | push index => cases own

theorem owns_writing (sides : Port.HasSides source sink)
    : Owns (!Call.isRead ·) (writing sink : Duplex P ι → _) where
  kept d call other := by
    cases call with
    | receive =>
        obtain ⟨held, untaken⟩ := d.link.receive_keeps_sink sides
        exact Prod.ext rfl (Prod.ext held untaken)
    | prepare index => cases other
    | push index => cases other
  decided {d e call} own same := by
    obtain ⟨outgoing, same⟩ := Prod.mk.inj same
    obtain ⟨held, port⟩ := Prod.mk.inj same
    cases call with
    | receive => cases own
    | prepare index =>
        cases rewound : (e.outgoing index).rewind with
        | error =>
            simp only [perform, Link.prepare, outgoing, rewound, writing, held, port, and_self]
        | ok =>
            simp only [perform, Link.prepare, outgoing, rewound, store, writing, port, and_self]
    | push index =>
        obtain ⟨result, packet, held, taken⟩ :=
          Link.push_of_same sides (d.outgoing index) held port
        rw [outgoing] at result packet held taken
        refine ⟨?_, ?_⟩
        · simp only [perform, outgoing, result]
        · simp only [writing, perform, store, outgoing, packet, held, taken]

/-- Reads and writes of one link are independent: in any order of the calls, each answers as in the
run of all reads and then all writes, and as if the calls of the other kind were not made, and the
same is left of what is received, of the packets, of the byte held and of both sides of the port;
no call, whatever it answers, changes anything on the other side. -/
theorem sides_are_independent (sides : Port.HasSides source sink)
    (start : Duplex (RecordedPort P ε) ι) (calls : List (Call ι))
    : let reads := calls.filter Call.isRead
      let writes := calls.filter (!Call.isRead ·)
      let mixed := start.run calls
      let ordered := start.run (reads ++ writes)
      ordered.1 = mixed.1.filter (·.1.isRead) ++ mixed.1.filter (!·.1.isRead)
      ∧ mixed.1.filter (·.1.isRead) = (start.run reads).1
      ∧ mixed.1.filter (!·.1.isRead) = (start.run writes).1
      ∧ mixed.2.link.incoming = ordered.2.link.incoming
      ∧ mixed.2.outgoing = ordered.2.outgoing
      ∧ mixed.2.link.held = ordered.2.link.held
      ∧ source mixed.2.link.port.port = source ordered.2.link.port.port
      ∧ mixed.2.link.port.delivered = ordered.2.link.port.delivered
      ∧ sink mixed.2.link.port.port = sink ordered.2.link.port.port
      ∧ mixed.2.link.port.accepted = ordered.2.link.port.accepted
      ∧ ∀ (between : Duplex (RecordedPort P ε) ι) (call : Call ι),
          let after := (between.perform call).2
          if call.isRead then
            writing (RecordedPort.sink sink) after = writing (RecordedPort.sink sink) between
          else
            reading (RecordedPort.source source) after
              = reading (RecordedPort.source source) between := by
  intro reads writes mixed ordered
  have recorded := RecordedPort.hasSides sides
  have read : Owns Call.isRead (reading _ : Duplex (RecordedPort P ε) ι → _) :=
    owns_reading recorded
  have write : Owns (!Call.isRead ·) (writing _ : Duplex (RecordedPort P ε) ι → _) :=
    owns_writing recorded
  have noReads : writes.filter Call.isRead = [] := by simp [writes, List.filter_filter]
  have noWrites : reads.filter (!Call.isRead ·) = [] := by simp [reads, List.filter_filter]
  have allWrites : writes.filter (!Call.isRead ·) = writes := by simp [writes]
  obtain ⟨heard, readMixed⟩ := read.run (Eq.refl (reading _ start)) calls
  obtain ⟨offered, writtenMixed⟩ := write.run (Eq.refl (writing _ start)) calls
  -- Between the reads and the writes the side of the writes is as it was at the start.
  have untouched := write.run_other start noWrites
  obtain ⟨answers, writtenOrdered⟩ := write.run_own untouched allWrites
  have readOrdered := read.run_other (start.run reads).2 noReads
  have split : ordered = _ := start.run_append reads writes
  have readEnd := readMixed.trans readOrdered.symm
  have writtenEnd := writtenMixed.trans writtenOrdered.symm
  simp only [reading, writing, RecordedPort.source, RecordedPort.sink, Prod.mk.injEq]
    at readEnd writtenEnd
  obtain ⟨incoming, unread, delivered⟩ := readEnd
  obtain ⟨outgoing, held, untaken, accepted⟩ := writtenEnd
  rw [split]
  refine ⟨?_, heard, offered, incoming, outgoing, held, unread, delivered, untaken, accepted, ?_⟩
  · rw [heard, offered, answers]
  · intro between call
    cases isRead : call.isRead with
    | true => exact write.kept between (by rw [isRead]; rfl)
    | false => exact read.kept between isRead

/-- In among the writes of one packet a frame with a wrong checksum is received; the port fails once
on either side and refuses a byte, and another packet, which has no frame, is asked for. -/
theorem sides_are_independent_of_a_broken_frame
    : let start : Duplex (RecordedPort (ScheduledPort Unit) Unit) Bool :=
        { link :=
            { port.port :=
                { reads :=
                    [.ok (some 0xC0), .ok (some 0x07), .error (), .ok (some 0x00), .ok none,
                      .ok (some 0xC0)]
                  writes := [.ok true, .error (), .ok true, .ok true, .ok false] }
              incoming := .ofStorage [0, 0, 0] }
          outgoing := fun index =>
            if index then { storage := [0xC0, 0x2A], size := 2 } else .ofStorage [0] }
      let reads : List (Call Bool) := List.replicate 6 .receive
      let writes : List (Call Bool) :=
        [.prepare true, .push true, .prepare false, .push true, .push true]
      let calls : List (Call Bool) :=
        [.prepare true, .receive, .push true, .receive, .prepare false, .receive, .receive,
          .push true, .receive, .receive, .push true]
      Port.HasSides (ScheduledPort.reads : ScheduledPort Unit → _)
        (ScheduledPort.writes : ScheduledPort Unit → _)
      ∧ (start.run calls).1.map Prod.snd
        = [.prepared (.ok ()), .received (.ok (some .unfinished)), .pushed (.error (.port ())),
            .received (.ok (some .unfinished)), .prepared (.error .tooShort),
            .received (.error (.port ())), .received (.ok (some .unfinished)),
            .pushed (.ok .unfinished), .received (.ok none),
            .received (.error (.packet (.checksumMismatch 0x00 0x15))), .pushed (.ok .complete)]
      ∧ (start.run (reads ++ writes)).1
        = (start.run calls).1.filter (·.1.isRead) ++ (start.run calls).1.filter (!·.1.isRead)
      ∧ (start.run calls).2.link.port.accepted = [0xC0, 0xDC, 0x2A, 0x3B, 0xC0]
      ∧ (start.run (reads ++ writes)).2.link.port.accepted = [0xC0, 0xDC, 0x2A, 0x3B, 0xC0] := by
  intro start reads writes calls
  obtain ⟨answers, -, -, -, -, -, -, -, -, accepted, -⟩ :=
    sides_are_independent ScheduledPort.hasSides start calls
  have taken : (start.run calls).2.link.port.accepted = [0xC0, 0xDC, 0x2A, 0x3B, 0xC0] := by
    decide +kernel
  exact ⟨ScheduledPort.hasSides, by decide +kernel, answers, taken, accepted.symm.trans taken⟩

end Duplex

end PacketBus
