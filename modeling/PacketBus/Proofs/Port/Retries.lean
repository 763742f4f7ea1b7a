import PacketBus.Port.Connection
import PacketBus.Port.SerialLine
import PacketBus.Proofs.Link.Pauses

/-! Faults that ask for another try, over connections and serial lines.
A connection shows none of them to its port. A serial line shows those that meet the question how
many bytes wait, and no others; whatever is shown, no byte is lost by it and none comes twice.
-/

namespace PacketBus

-----------------------------------------------------------------------------------------
-- Answers that ask for another try
-----------------------------------------------------------------------------------------

section Answers

variable {α : Type}

/-- The answer is a fault that asks for another try. -/
def Fault.asksAgain (retries : Fault → Bool) : Except Fault α → Bool
  | .ok _ => false
  | .error fault => retries fault

/-- The answers without those that ask for another try. -/
def Fault.calmed (retries : Fault → Bool) (answers : List (Except Fault α))
    : List (Except Fault α) :=
  answers.filter (!asksAgain retries ·)

/-- The number of answers that ask for another try. -/
def Fault.tries (retries : Fault → Bool) (answers : List (Except Fault α)) : Nat :=
  answers.countP (asksAgain retries)

/-- The first answer is one that is left out, or the first one without these as well. -/
theorem Fault.calmed_cases (retries : Fault → Bool) (answers : List (Except Fault α))
    (last : Except Fault α)
    : (∃ fault, answers.headD last = .error fault ∧ retries fault = true
          ∧ calmed retries answers.tail = calmed retries answers
          ∧ tries retries answers.tail < tries retries answers)
        ∨ ((calmed retries answers).headD last = answers.headD last
          ∧ (calmed retries answers).tail = calmed retries answers.tail
          ∧ tries retries answers.tail ≤ tries retries answers) := by
  cases answers with
  | nil => exact .inr ⟨rfl, rfl, Nat.le_refl _⟩
  | cons answer rest =>
      cases again : asksAgain retries answer with
      | true =>
          cases answer with
          | ok value => cases again
          | error fault =>
              refine .inl ⟨fault, rfl, again, ?_, ?_⟩
              · simp [calmed, again]
              · simp [tries, again]
      | false =>
          refine .inr ⟨?_, ?_, ?_⟩
          · simp [calmed, again]
          · simp [calmed, again]
          · simp [tries, again]

end Answers

-----------------------------------------------------------------------------------------
-- Writing by a script
-----------------------------------------------------------------------------------------

/-- The answers to writes, behind which each byte is taken, and the bytes that were taken. -/
structure Intake where
  answers : List (Except Fault Bool) := []
  sent : List UInt8 := []

namespace Intake

/-- Answers one write. -/
def put (intake : Intake) (byte : UInt8) : Except Fault Bool × Intake :=
  let answer := intake.answers.headD (.ok true)
  (answer,
    { answers := intake.answers.tail
      sent := intake.sent ++ if answer.toOption = some true then [byte] else [] })

/-- The answers without those that ask for another try. -/
def calm (retries : Fault → Bool) (intake : Intake) : Intake :=
  { intake with answers := Fault.calmed retries intake.answers }

/-- The number of answers that ask for another try. -/
def tries (retries : Fault → Bool) (intake : Intake) : Nat :=
  Fault.tries retries intake.answers

/-- A write is asked for another try and leaves all as it was, or is answered as without these. -/
theorem put_cases (retries : Fault → Bool) (intake : Intake) (byte : UInt8)
    : (∃ fault, (intake.put byte).1 = .error fault ∧ retries fault = true
          ∧ (intake.put byte).2.calm retries = intake.calm retries
          ∧ (intake.put byte).2.tries retries < intake.tries retries)
        ∨ ((intake.calm retries).put byte
            = ((intake.put byte).1, (intake.put byte).2.calm retries)
          ∧ (intake.put byte).2.tries retries ≤ intake.tries retries) := by
  rcases Fault.calmed_cases retries intake.answers (.ok true) with
    ⟨fault, first, retry, rest, fewer⟩ | ⟨first, rest, fewer⟩
  · refine .inl ⟨fault, first, retry, ?_, fewer⟩
    simp only [put, calm, first, rest]
    simp [Except.toOption]
  · refine .inr ⟨?_, fewer⟩
    simp only [put, calm, first, rest]

end Intake

-----------------------------------------------------------------------------------------
-- Connections
-----------------------------------------------------------------------------------------

/-- A connection that answers by a script. Behind its end no byte comes. -/
structure ConnectionScript where
  peeks : List (Except Fault (Option UInt8)) := []
  takes : List (Except Fault (Option UInt8)) := []
  intake : Intake := {}

namespace ConnectionScript

/-- No byte has come yet. -/
def waiting : Except Fault (Option UInt8) :=
  .error (.ofSystem .wouldBlock "Resource temporarily unavailable" 11)

instance : Connection ConnectionScript where
  peek s := (s.peeks.headD waiting, { s with peeks := s.peeks.tail })
  take s := (s.takes.headD waiting, { s with takes := s.takes.tail })
  put s byte := ((s.intake.put byte).1, { s with intake := (s.intake.put byte).2 })

/-- The script without the faults that ask for another try. -/
def calm (s : ConnectionScript) : ConnectionScript :=
  { s with
    peeks := Fault.calmed ConnectionPort.asksRetry s.peeks
    takes := Fault.calmed ConnectionPort.asksRetry s.takes
    intake := s.intake.calm ConnectionPort.asksRetry }

/-- The number of reads and writes of the script that ask for another try. -/
def tries (s : ConnectionScript) : Nat :=
  Fault.tries ConnectionPort.asksRetry s.takes + s.intake.tries ConnectionPort.asksRetry

end ConnectionScript

namespace ConnectionPort

def calm (port : ConnectionPort ConnectionScript) : ConnectionPort ConnectionScript :=
  ⟨port.connection.calm⟩

def tries (port : ConnectionPort ConnectionScript) : Nat := port.connection.tries

/-- The port pauses where the script asks for another try. -/
theorem calms_calm
    : Port.Calms calm (fun _ => false) tries where
  read port := by
    rcases Fault.calmed_cases asksRetry port.connection.takes ConnectionScript.waiting with
      ⟨fault, first, retry, rest, fewer⟩ | ⟨first, rest, fewer⟩
    · refine .inl ⟨?_, ?_, ?_⟩
      · simp only [Port.read, Connection.take, first, received, retry, if_true, Port.isPause]
      · simp only [Port.read, Connection.take, calm, ConnectionScript.calm, rest]
      · exact Nat.add_lt_add_right fewer _
    · refine .inr ⟨?_, ?_⟩
      · simp only [Port.read, Connection.take, calm, ConnectionScript.calm, first, rest]
      · exact Nat.add_le_add_right fewer _
  write port byte := by
    rcases port.connection.intake.put_cases asksRetry byte with
      ⟨fault, failed, retry, kept, fewer⟩ | ⟨same, fewer⟩
    · refine .inl ⟨?_, ?_, Nat.add_lt_add_left fewer _⟩
      · simp only [Port.write, Connection.put, failed, sent, retry, if_true]
      · simp only [Port.write, Connection.put, calm, ConnectionScript.calm, kept]
    · refine .inr ⟨?_, Nat.add_le_add_left fewer _⟩
      simp only [Port.write, Connection.put, calm, ConnectionScript.calm, same]

end ConnectionPort

-----------------------------------------------------------------------------------------
-- Serial lines
-----------------------------------------------------------------------------------------

/-- What a line answers to one read: to the question how many bytes wait, and to the attempt to take
one if some do. -/
inductive SerialScript.Turn where
  | unanswered (fault : Fault)
  | empty
  /-- One byte waits and a number of others. -/
  | holding (others : Nat) (answer : Except Fault (Option UInt8))

/-- A line that answers by a script. It is asked again and again how many bytes wait while some do;
behind the end of the script none does. -/
structure SerialScript where
  turns : List SerialScript.Turn := []
  intake : Intake := {}

namespace SerialScript

/-- The turn asks for another try, at its question or at its attempt. -/
def Turn.asksAgain : Turn → Bool
  | unanswered fault => SerialPort.asksRetry fault
  | empty => false
  | holding _ answer => Fault.asksAgain SerialPort.asksRetry answer

/-- The fault with which the question asks for another try. -/
def Turn.question? : Turn → Option Fault
  | unanswered fault => if SerialPort.asksRetry fault then some fault else none
  | empty | holding _ _ => none

instance : SerialLine SerialScript where
  name? _ := none
  waiting s :=
    match s.turns with
    | [] => (.ok 0, s)
    | .unanswered fault :: rest => (.error fault, { s with turns := rest })
    | .empty :: rest => (.ok 0, { s with turns := rest })
    | .holding others _ :: _ => (.ok (others + 1), s)
  take s :=
    match s.turns with
    | .holding _ answer :: rest => (answer, { s with turns := rest })
    | [] | .unanswered _ :: _ | .empty :: _ => (.ok none, s)
  put s byte := ((s.intake.put byte).1, { s with intake := (s.intake.put byte).2 })

/-- The script without the faults that ask for another try. -/
def calm (s : SerialScript) : SerialScript :=
  { turns := s.turns.filter (!·.asksAgain)
    intake := s.intake.calm SerialPort.asksRetry }

/-- The number of reads and writes of the script that ask for another try. -/
def tries (s : SerialScript) : Nat :=
  s.turns.countP Turn.asksAgain + s.intake.tries SerialPort.asksRetry

end SerialScript

namespace SerialPort

open SerialScript (Turn)

def calm (port : SerialPort SerialScript) : SerialPort SerialScript := ⟨port.line.calm⟩

def tries (port : SerialPort SerialScript) : Nat := port.line.tries

/-- What the port answers to a read by a turn. -/
def answered : Turn → Except Fault (Option UInt8)
  | .unanswered fault => .error fault
  | .empty => .ok none
  | .holding _ answer => received answer

/-- A read takes up a turn of the script, if one is left. -/
theorem read_script (port : SerialPort SerialScript)
    : Port.read port
      = match port.line.turns with
        | [] => (.ok none, port)
        | turn :: rest => (answered turn, ⟨{ port.line with turns := rest }⟩) := by
  obtain ⟨⟨_ | ⟨_ | _ | ⟨others, answer⟩, rest⟩, intake⟩⟩ := port
  · rfl
  · rfl
  · rfl
  · simp [Port.read, read, canRead, SerialLine.waiting, SerialLine.take, Except.map, answered]

/-- A turn that asks for another try brings nothing, or the fault of its question. -/
theorem isPause_answered {turn : Turn} (again : turn.asksAgain = true)
    : Port.isPause asksRetry (answered turn) = true := by
  cases turn with
  | unanswered fault => exact again
  | empty => cases again
  | holding others answer =>
      cases answer with
      | ok value => cases again
      | error fault =>
          have retry : asksRetry fault = true := again
          simp only [answered, received, retry, if_true, Port.isPause]

/-- The port pauses where the script asks for another try. -/
theorem calms_calm
    : Port.Calms calm asksRetry tries where
  read port := by
    obtain ⟨⟨turns, intake⟩⟩ := port
    rw [read_script, read_script]
    cases turns with
    | nil => exact .inr ⟨rfl, Nat.le_refl _⟩
    | cons turn rest =>
        cases again : turn.asksAgain with
        | true =>
            refine .inl ⟨isPause_answered again, ?_, ?_⟩
            · simp [calm, SerialScript.calm, again]
            · simp [tries, SerialScript.tries, again]
        | false =>
            refine .inr ⟨?_, ?_⟩
            · simp [calm, SerialScript.calm, again]
            · simp [tries, SerialScript.tries, again]
  write port byte := by
    rcases port.line.intake.put_cases asksRetry byte with
      ⟨fault, failed, retry, kept, fewer⟩ | ⟨same, fewer⟩
    · refine .inl ⟨?_, ?_, Nat.add_lt_add_left fewer _⟩
      · simp only [Port.write, SerialLine.put, failed, sent, retry, if_true]
      · simp only [Port.write, SerialLine.put, calm, SerialScript.calm, kept]
    · refine .inr ⟨?_, Nat.add_le_add_left fewer _⟩
      simp only [Port.write, SerialLine.put, calm, SerialScript.calm, same]

/-- The fault that asks for another try, if a read of a link has failed with one. -/
def retried? : Except (Link.Failure Fault) (Option FrameStatus) → Option Fault
  | .error (.port fault) => if asksRetry fault then some fault else none
  | .error (.packet _) | .ok _ => none

theorem retried?_receive_of_turn {link : Link (SerialPort SerialScript)} {turn : Turn}
    {rest : List Turn} (next : link.port.line.turns = turn :: rest)
    : retried? link.receive.1 = turn.question?
      ∧ link.receive.2.port = ⟨{ link.port.line with turns := rest }⟩ := by
  have read := read_script link.port
  rw [next] at read
  refine ⟨?_, by rw [link.port_receive, read]⟩
  simp only [Link.receive, read]
  cases turn with
  | unanswered fault => rfl
  | empty => rfl
  | holding others answer =>
      rcases answer with fault | _ | byte
      · cases retry : asksRetry fault with
        | true => simp [answered, received, retry, retried?, Turn.question?]
        | false => simp [answered, received, retry, retried?, Turn.question?]
      · rfl
      · simp only [answered, received]
        rcases link.incoming.receive byte with ⟨failure | status, incoming⟩
        · rfl
        · rfl

/-- Reads report the faults of the questions that ask for another try, and no others of that kind;
by induction on the reads. -/
theorem retried?_listened (link : Link (SerialPort SerialScript)) (count : Nat)
    : ((link.listened count).map Prod.fst).filterMap retried?
      = (link.port.line.turns.take count).filterMap Turn.question? := by
  induction count generalizing link with
  | zero => simp [Link.listened]
  | succ count ih =>
      rw [Link.listened, List.map_cons, List.filterMap_cons, ih]
      cases next : link.port.line.turns with
      | nil =>
          have read := read_script link.port
          rw [next] at read
          have same : link.receive.2.port = link.port := by rw [link.port_receive, read]
          have silent : retried? link.receive.1 = none := by simp [Link.receive, read, retried?]
          simp [silent, same, next]
      | cons turn rest =>
          obtain ⟨reported, left⟩ := retried?_receive_of_turn next
          rw [reported, left, List.take_succ_cons, List.filterMap_cons]

theorem isPause_of_unretried {result : Except (Link.Failure Fault) (Option FrameStatus)}
    (unretried : retried? result = none)
    : Link.isPause asksRetry result = Link.isPause (fun _ => false) result := by
  rcases result with (failure | fault) | _ | status
  · rfl
  · simpa [retried?, Link.isPause] using unretried
  · rfl
  · rfl

/-- Leaving out reads without a byte leaves in all faults. -/
theorem filterMap_retried?_filter
    (results : List (Except (Link.Failure Fault) (Option FrameStatus)))
    : (results.filter (!Link.isPause (fun _ => false) ·)).filterMap retried?
      = results.filterMap retried? := by
  rw [List.filterMap_filter]
  congr
  funext result
  rcases result with (failure | fault) | _ | status
  · rfl
  · rfl
  · rfl
  · rfl

theorem filterMap_question?_calm (port : SerialPort SerialScript) (count : Nat)
    : (port.calm.line.turns.take count).filterMap Turn.question? = [] := by
  rw [List.filterMap_eq_nil_iff]
  intro turn member
  have calm := (List.mem_filter.mp (List.mem_of_mem_take member)).2
  cases turn with
  | unanswered fault => simpa [Turn.asksAgain, Turn.question?] using calm
  | empty => rfl
  | holding others answer => rfl

/-- Reads are as without the faults that ask for another try, but for those that bring no byte,
exactly if none of these faults met a question. -/
theorem readsAlike_iff (link : Link (SerialPort SerialScript)) (count : Nat)
    : (∃ fewer ≤ count, link.ReadsAlike calm (fun _ => false) count fewer)
      ↔ (link.port.line.turns.take count).filterMap Turn.question? = [] := by
  have calmed (fewer : Nat)
      : (((link.onto calm).listened fewer).map Prod.fst).filterMap retried? = [] := by
    rw [retried?_listened]
    exact filterMap_question?_calm link.port fewer
  rw [← retried?_listened]
  constructor
  · rintro ⟨fewer, _, alike⟩
    have reported := congrArg (List.filterMap retried?) alike.results
    rw [filterMap_retried?_filter, filterMap_retried?_filter, calmed fewer] at reported
    exact reported
  · intro unreported
    obtain ⟨fewer, within, results, delivered, behind⟩ :=
      Link.exists_fewer_reads calms_calm link count
    have same {results : List (Except (Link.Failure Fault) (Option FrameStatus))}
        (none : results.filterMap retried? = [])
        : results.filter (!Link.isPause asksRetry ·)
          = results.filter (!Link.isPause (fun _ => false) ·) := by
      refine List.filter_congr ?_
      intro result member
      rw [isPause_of_unretried (List.filterMap_eq_nil_iff.mp none result member)]
    rw [same unreported, same (calmed fewer)] at results
    exact ⟨fewer, within, results, delivered, behind⟩

end SerialPort

-----------------------------------------------------------------------------------------
-- The faults that a single call reports
-----------------------------------------------------------------------------------------

/-- An answer that takes the place of the faults that ask for another try leaves all others. -/
theorem Fault.excuse_eq_error_iff {α : Type} (retries : Fault → Bool) (excuse : α)
    (other fault : Fault)
    : (if retries other then .ok excuse else .error other : Except Fault α) = .error fault
      ↔ other = fault ∧ retries fault = false := by
  cases retry : retries other with
  | true =>
      simp only [if_true, reduceCtorEq, false_iff]
      rintro ⟨rfl, last⟩
      cases retry.symm.trans last
  | false =>
      simp only [Bool.false_eq_true, if_false, Except.error.injEq, iff_self_and]
      rintro rfl
      exact retry

namespace ConnectionPort

theorem received_eq_error_iff (answer : Except Fault (Option UInt8)) (fault : Fault)
    : received answer = .error fault
      ↔ (answer = .error fault ∧ asksRetry fault = false)
        ∨ (answer = .ok none ∧ fault = .closedByPeer) := by
  rcases answer with other | _ | byte
  · simp [received, Fault.excuse_eq_error_iff]
  · simpa [received] using eq_comm
  · simp [received]

theorem sent_eq_error_iff (answer : Except Fault Bool) (fault : Fault)
    : sent answer = .error fault
      ↔ (answer = .error fault ∧ asksRetry fault = false)
        ∨ (answer = .ok false ∧ fault = .writeZero) := by
  rcases answer with other | _ | _
  · simp [sent, Fault.excuse_eq_error_iff]
  · simpa [sent] using eq_comm
  · simp [sent]

/-- A port fails with the faults of its connection that do not ask for another try, as they are, and
where its connection has ended or takes none of a byte. -/
structure ReportsFaults {C : Type} [Connection C] (port : ConnectionPort C) (fault : Fault)
    : Prop where
  canRead
    : (Port.canRead port).1 = .error fault
      ↔ ((Connection.peek port.connection).1 = .error fault ∧ asksRetry fault = false)
        ∨ ((Connection.peek port.connection).1 = .ok none ∧ fault = .closedByPeer)
  read
    : (Port.read port).1 = .error fault
      ↔ ((Connection.take port.connection).1 = .error fault ∧ asksRetry fault = false)
        ∨ ((Connection.take port.connection).1 = .ok none ∧ fault = .closedByPeer)
  canWrite : (Port.canWrite port).1 ≠ .error fault
  write
    : ∀ byte,
        (Port.write port byte).1 = .error fault
        ↔ ((Connection.put port.connection byte).1 = .error fault ∧ asksRetry fault = false)
          ∨ ((Connection.put port.connection byte).1 = .ok false ∧ fault = .writeZero)

theorem reportsFaults {C : Type} [Connection C] (port : ConnectionPort C) (fault : Fault)
    : ReportsFaults port fault where
  canRead := by
    rw [← received_eq_error_iff]
    simp only [Port.canRead]
    rcases received (Connection.peek port.connection).1 with other | byte?
    · simp [Except.map]
    · simp [Except.map]
  read := received_eq_error_iff _ fault
  canWrite := by simp [Port.canWrite]
  write _ := sent_eq_error_iff _ fault

end ConnectionPort

namespace SerialPort

theorem received_eq_error_iff (answer : Except Fault (Option UInt8)) (fault : Fault)
    : received answer = .error fault ↔ answer = .error fault ∧ asksRetry fault = false := by
  rcases answer with other | byte?
  · simp [received, Fault.excuse_eq_error_iff]
  · simp [received]

theorem sent_eq_error_iff (answer : Except Fault Bool) (fault : Fault)
    : sent answer = .error fault ↔ answer = .error fault ∧ asksRetry fault = false := by
  rcases answer with other | taken
  · simp [sent, Fault.excuse_eq_error_iff]
  · simp [sent]

/-- A port fails with every fault of the question how many bytes wait, also one that asks for
another try, and with the faults of the other calls of its line that do not ask for one. -/
structure ReportsFaults {L : Type} [SerialLine L] (port : SerialPort L) (fault : Fault)
    : Prop where
  canRead : (Port.canRead port).1 = .error fault ↔ (SerialLine.waiting port.line).1 = .error fault
  read
    : (Port.read port).1 = .error fault
      ↔ (SerialLine.waiting port.line).1 = .error fault
        ∨ ∃ others, (SerialLine.waiting port.line).1 = .ok (others + 1)
          ∧ (SerialLine.take (SerialLine.waiting port.line).2).1 = .error fault
          ∧ asksRetry fault = false
  canWrite : (Port.canWrite port).1 ≠ .error fault
  write
    : ∀ byte,
        (Port.write port byte).1 = .error fault
        ↔ (SerialLine.put port.line byte).1 = .error fault ∧ asksRetry fault = false

theorem reportsFaults {L : Type} [SerialLine L] (port : SerialPort L) (fault : Fault)
    : ReportsFaults port fault where
  canRead := by
    simp only [Port.canRead, SerialPort.canRead]
    rcases (SerialLine.waiting port.line).1 with other | count
    · simp [Except.map]
    · simp [Except.map]
  read := by
    simp only [Port.read, SerialPort.read, SerialPort.canRead]
    rcases SerialLine.waiting port.line with ⟨other | _ | others, line⟩
    · simp [Except.map]
    · simp [Except.map]
    · simp [Except.map, received_eq_error_iff]
  canWrite := by simp [Port.canWrite]
  write _ := sent_eq_error_iff _ fault

end SerialPort

-----------------------------------------------------------------------------------------
-- Links
-----------------------------------------------------------------------------------------

/-- A link over a connection that asks for another try, at any of its calls, receives and sends what
it does without these faults. Over a serial line it takes the same bytes and makes the same of them,
and its reads fail with the faults of the questions that ask for another try, with each of them once
and with no others of that kind; they are as without these faults exactly if no question asked so.
Every other fault is reported as it is. -/
theorem retries_show_only_at_questions {C L : Type} [Connection C] [SerialLine L]
    (link : Link (SerialPort SerialScript)) (count : Nat) (connected : ConnectionPort C)
    (serial : SerialPort L) (fault : Fault)
    : let questions := (link.port.line.turns.take count).filterMap SerialScript.Turn.question?
      Link.OverlooksPauses ConnectionPort.calm (fun _ => false) ConnectionPort.tries
      ∧ Link.OverlooksPauses SerialPort.calm SerialPort.asksRetry SerialPort.tries
      ∧ ((link.listened count).map Prod.fst).filterMap SerialPort.retried? = questions
      ∧ ((∃ fewer ≤ count, link.ReadsAlike SerialPort.calm (fun _ => false) count fewer)
        ↔ questions = [])
      ∧ connected.ReportsFaults fault
      ∧ serial.ReportsFaults fault :=
  ⟨Link.overlooksPauses ConnectionPort.calms_calm,
    Link.overlooksPauses SerialPort.calms_calm,
    SerialPort.retried?_listened link count,
    SerialPort.readsAlike_iff link count,
    connected.reportsFaults fault,
    serial.reportsFaults fault⟩

/-- A line that is interrupted at a write, at an attempt to read and at a question; the frame that
is sent does not show it, the first reads do not, and the question does. -/
theorem retries_show_only_at_questions_of_an_interrupted_line
    : let again : Fault := .ofSystem .interrupted "Interrupted system call" 4
      let packet : Packet := { storage := [0x01], size := 1 }
      let link : Link (SerialPort SerialScript) :=
        { port :=
            ⟨{ turns :=
                 [.holding 3 (.ok (some 0xC0)), .holding 2 (.error again),
                   .holding 2 (.ok (some 0x01)), .unanswered again, .holding 1 (.ok (some 0x07)),
                   .holding 0 (.ok (some 0xC0))]
               intake := { answers := [.ok true, .error again] } }⟩
          incoming := .ofStorage [0, 0] }
      (link.listened 6).map Prod.fst
        = [.ok (some .unfinished), .ok none, .ok (some .unfinished), .error (.port again),
            .ok (some .unfinished), .ok (some .complete)]
      ∧ (link.send packet 2).link.port.line.intake.sent = [0xC0, 0x01, 0x07, 0xC0]
      ∧ ((link.onto SerialPort.calm).send packet 2).link.port.line.intake.sent
        = [0xC0, 0x01, 0x07, 0xC0]
      ∧ (∃ fewer ≤ 3, link.ReadsAlike SerialPort.calm (fun _ => false) 3 fewer)
      ∧ ¬ ∃ fewer ≤ 6, link.ReadsAlike SerialPort.calm (fun _ => false) 6 fewer := by
  intro again packet link
  have shown (count : Nat) :=
    retries_show_only_at_questions link count (⟨{}⟩ : ConnectionPort ConnectionScript) link.port
      again
  obtain ⟨-, overlooks, -⟩ := shown 0
  have sent : (link.send packet 2).link.port.line.intake.sent = [0xC0, 0x01, 0x07, 0xC0] := by
    decide +kernel
  refine ⟨by decide +kernel, sent, ?_, ?_, ?_⟩
  · rw [overlooks.send link packet 2 (by decide +kernel)]
    exact sent
  · obtain ⟨-, -, -, alike, -⟩ := shown 3
    exact alike.mpr (by decide +kernel)
  · obtain ⟨-, -, -, alike, -⟩ := shown 6
    rw [alike]
    decide +kernel

end PacketBus
