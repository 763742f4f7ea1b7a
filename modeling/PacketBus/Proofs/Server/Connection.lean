import PacketBus.Port.Loopback
import PacketBus.Proofs.Port.Translation
import PacketBus.Proofs.Server.Session

/-! An echo server on a connection, told by what comes of each use of the connection.
What it writes are the answers to the requests among the bytes that it has read, and what it comes
to is decided by the first fault that does not just ask for another try.
-/

namespace PacketBus

-----------------------------------------------------------------------------------------
-- The record of a connection
-----------------------------------------------------------------------------------------

/-- One use of a connection, with what came of it. -/
inductive Connection.Outcome where
  | taken (answer : Except Fault (Option UInt8))
  | put (byte : UInt8) (answer : Except Fault Bool)
  deriving DecidableEq

namespace Connection.Outcome

/-- The byte that was read. -/
def read? : Outcome → Option UInt8
  | taken (.ok byte?) => byte?
  | taken (.error _) | put _ _ => none

/-- The byte that was written. -/
def written? : Outcome → Option UInt8
  | put byte (.ok true) => some byte
  | put _ (.ok false) | put _ (.error _) | taken _ => none

/-- The fault that the outcome amounts to. The end of the connection and a byte that is not taken
are faults, and a fault that asks for another try is none. -/
def fault? : Outcome → Option Fault
  | taken (.ok (some _)) | put _ (.ok true) => none
  | taken (.ok none) => some .closedByPeer
  | put _ (.ok false) => some .writeZero
  | taken (.error fault) | put _ (.error fault) =>
      if ConnectionPort.asksRetry fault then none else some fault

/-- The call of a port over the connection that uses it so. -/
def call : Outcome → Port.Call Fault
  | taken answer => .read (ConnectionPort.received answer)
  | put byte answer => .write byte (ConnectionPort.sent answer)

theorem delivered?_comp_call
    : Port.Call.delivered? ∘ call = read? := by
  funext outcome
  rcases outcome with (fault | _ | byte) | ⟨byte, answer⟩
  · simp only [Function.comp_apply, call, ConnectionPort.received, read?]
    split
    · rfl
    · rfl
  · rfl
  · rfl
  · rfl

theorem accepted?_comp_call
    : Port.Call.accepted? ∘ call = written? := by
  funext outcome
  rcases outcome with answer | ⟨byte, fault | _ | _⟩
  · rfl
  · simp only [Function.comp_apply, call, ConnectionPort.sent, written?]
    split
    · rfl
    · rfl
  · rfl
  · rfl

theorem fault?_comp_call
    : Port.Call.fault? ∘ call = fault? := by
  funext outcome
  rcases outcome with (fault | _ | byte) | ⟨byte, fault | _ | _⟩
  · simp only [Function.comp_apply, call, ConnectionPort.received, fault?]
    split
    · rfl
    · rfl
  · rfl
  · rfl
  · simp only [Function.comp_apply, call, ConnectionPort.sent, fault?]
    split
    · rfl
    · rfl
  · rfl
  · rfl

variable {outcomes : List Outcome}

/-- Where no call has failed, there is no fault. -/
theorem faults_of_unfailed (unfailed : (outcomes.map call).filterMap Port.Call.fault? = [])
    : outcomes.findSome? fault? = none ∧ outcomes.dropLast.filterMap fault? = [] := by
  rw [List.filterMap_map, fault?_comp_call] at unfailed
  rw [← List.head?_filterMap, unfailed]
  refine ⟨rfl, ?_⟩
  rw [List.filterMap_eq_nil_iff] at unfailed ⊢
  exact fun outcome member => unfailed outcome (List.dropLast_subset _ member)

/-- Where only the last call has failed, the only fault is that of the last outcome. -/
theorem faults_of_last {front : List (Port.Call Fault)} {last : Port.Call Fault} {fault : Fault}
    (calls : outcomes.map call = front ++ [last])
    (unfailed : front.filterMap Port.Call.fault? = []) (failed : last.fault? = some fault)
    : outcomes.findSome? fault? = some fault ∧ outcomes.dropLast.filterMap fault? = []
      ∧ ∃ before outcome, outcomes = before ++ [outcome] ∧ outcome.call = last := by
  obtain ⟨before, rest, rfl, rfl, ends⟩ := List.map_eq_append_iff.mp calls
  obtain ⟨outcome, rfl, rfl⟩ := List.map_eq_singleton_iff.mp ends
  rw [List.filterMap_map, fault?_comp_call] at unfailed
  have failed : outcome.fault? = some fault := (congrFun fault?_comp_call outcome).symm.trans failed
  refine ⟨?_, ?_, before, outcome, rfl, rfl⟩
  · rw [← List.head?_filterMap, List.filterMap_append, unfailed]
    simp [failed]
  · rwa [List.dropLast_concat]

end Connection.Outcome

open Connection (Outcome)

/-- A connection with the record of its uses. -/
structure RecordedConnection (C : Type) where
  connection : C
  /-- The uses made so far, in order. -/
  outcomes : List Outcome := []

variable {C : Type} [Connection C]

instance : Connection (RecordedConnection C) where
  peek c :=
    let (answer, connection) := Connection.peek c.connection
    (answer, { c with connection })
  take c :=
    let (answer, connection) := Connection.take c.connection
    (answer, ⟨connection, c.outcomes ++ [.taken answer]⟩)
  put c byte :=
    let (answer, connection) := Connection.put c.connection byte
    (answer, ⟨connection, c.outcomes ++ [.put byte answer]⟩)

omit [Connection C] in
/-- The calls of a port are those that use its connection as recorded. -/
def ConnectionPort.IsTold (p : RecordedPort (ConnectionPort (RecordedConnection C)) Fault) : Prop :=
  p.calls = p.port.connection.outcomes.map Outcome.call

/-- Each call uses the connection once. -/
theorem ConnectionPort.keeps_isTold
    : Port.Keeps fun before after : RecordedPort (ConnectionPort (RecordedConnection C)) Fault =>
        IsTold before → IsTold after where
  refl _ told := told
  trans first second told := second (first told)
  read p told := by
    have told : p.calls = _ := told
    let answer := (Connection.take p.port.connection.connection).1
    have outcomes : (Port.read p).2.port.connection.outcomes
        = p.port.connection.outcomes ++ [.taken answer] :=
      rfl
    rw [IsTold, p.calls_read, told, outcomes, List.map_append]
    rfl
  write p byte told := by
    have told : p.calls = _ := told
    let answer := (Connection.put p.port.connection.connection byte).1
    have calls : (Port.write p byte).2.calls = p.calls ++ [.write byte (Port.write p byte).1] := rfl
    have outcomes : (Port.write p byte).2.port.connection.outcomes
        = p.port.connection.outcomes ++ [.put byte answer] :=
      rfl
    rw [IsTold, calls, told, outcomes, List.map_append]
    rfl

namespace EchoServer

open PacketBus.Frame (wire)

-----------------------------------------------------------------------------------------
-- A session over another port
-----------------------------------------------------------------------------------------

namespace Session

variable {P Q : Type}

/-- The session over the image of its port. -/
def onto (image : P → Q) (s : Session P) : Session Q :=
  { s with device := s.device.onto image }

variable [Port P Fault] [Port Q Fault] {image : P → Q}

theorem step_onto (same : Port.Translates image) (s : Session P)
    : (s.onto image).step = s.step.onto image := by
  have stepped := Device.step_onto same s.device
  cases ended : s.result? with
  | some result => simp only [step, onto, ended, Option.isSome_some, if_true]
  | none =>
      simp only [step, onto, ended, stepped]
      rcases s.device.step with ⟨(e | fault) | event, device⟩
      · rfl
      · by_cases ends : endsSession fault = true
        · simp [ends]
        · simp [ends]
      · simp [entries, Device.onto, Link.onto]

/-- By induction on the patience. -/
theorem run_onto (same : Port.Translates image) (s : Session P) (patience : Nat)
    : (s.onto image).run patience = (s.run patience).onto image := by
  induction patience generalizing s with
  | zero => rfl
  | succ patience ih =>
      by_cases ended : s.result?.isSome = true
      · have ended' : (s.onto image).result?.isSome = true := ended
        rw [run, run, if_pos ended, if_pos ended']
      · have ended' : ¬(s.onto image).result?.isSome = true := ended
        rw [run, run, if_neg ended, if_neg ended', step_onto same, ih]

theorem port_step {Rel : P → P → Prop} (keeps : Port.Keeps Rel) (s : Session P)
    : Rel s.device.link.port s.step.device.link.port := by
  have moved := s.device.port_step keeps
  unfold step
  split
  · exact keeps.refl _
  · generalize s.device.step = stepped at moved ⊢
    rcases stepped with ⟨(e | fault) | event, device⟩
    · exact moved
    · simp only
      split
      · exact moved
      · exact moved
    · exact moved

/-- A run makes calls of the port and nothing else of it, by induction on the patience. -/
theorem port_run {Rel : P → P → Prop} (keeps : Port.Keeps Rel) (s : Session P) (patience : Nat)
    : Rel s.device.link.port (s.run patience).device.link.port := by
  induction patience generalizing s with
  | zero => exact keeps.refl _
  | succ patience ih =>
      rw [run]
      split
      · exact keeps.refl _
      · exact keeps.trans (s.port_step keeps) (ih s.step)

end Session

theorem serve_onto {P Q : Type} [Port P Fault] [Port Q Fault] {image : P → Q}
    (same : Port.Translates image) (port : P) (settings : LinkSettings) (patience : Nat)
    (knowsPeer : Bool)
    : serve (image port) settings patience knowsPeer
      = (serve port settings patience knowsPeer).onto image :=
  Session.run_onto same (Session.start port settings knowsPeer) patience

/-- An echo server answers exactly the requests in its input. Whatever comes of each use of the
connection, the bytes written are the frames that answer the requests among the bytes read, in
order, but for the rest of the last one; a session that has ended leaves that rest out only if it
could not write it. A session ends with the first fault that does not ask for another try, whether
it comes from a read or from a write, as that fault decides, and with nothing else; as long as it
has not ended, it uses the connection at every step. -/
theorem answers_exactly_the_requests (connection : C) (settings : LinkSettings) (patience : Nat)
    (knowsPeer : Bool)
    : let port : ConnectionPort (RecordedConnection C) := ⟨{ connection }⟩
      let session := serve port settings patience knowsPeer
      let outcomes := session.device.link.port.connection.outcomes
      let frames := replies (outcomes.filterMap Outcome.read?)
      let written := outcomes.filterMap Outcome.written?
      (written = frames.flatten
        ∨ ∃ earlier part byte rest, frames = earlier ++ [part ++ byte :: rest]
          ∧ written = earlier.flatten ++ part
          ∧ (session.result?.isSome = true
            → ∃ front answer, outcomes = front ++ [.put byte answer]))
      ∧ session.result? = (outcomes.findSome? Outcome.fault?).map conclusion
      ∧ outcomes.dropLast.filterMap Outcome.fault? = []
      ∧ (session.result? = none → patience ≤ outcomes.length) := by
  intro port session outcomes frames written
  let told := serve ({ port } : RecordedPort (ConnectionPort (RecordedConnection C)) Fault) settings
    patience knowsPeer
  have same : session = told.onto RecordedPort.port :=
    serve_onto RecordedPort.translates_port { port } settings patience knowsPeer
  have result : session.result? = told.result? := by rw [same]; rfl
  have calls : outcomes.map Outcome.call = told.device.link.port.calls := by
    have kept : ConnectionPort.IsTold told.device.link.port :=
      Session.port_run ConnectionPort.keeps_isTold (.start { port } settings knowsPeer) patience rfl
    change session.device.link.port.connection.outcomes.map _ = _
    rw [same]
    exact kept.symm
  have heard : told.device.link.port.delivered = outcomes.filterMap Outcome.read? := by
    rw [RecordedPort.delivered, ← calls, List.filterMap_map, Outcome.delivered?_comp_call]
  have said : told.device.link.port.accepted = written := by
    rw [RecordedPort.accepted, ← calls, List.filterMap_map, Outcome.accepted?_comp_call]
  have served : told.Serves
      ∧ (told.result? = none → 0 + patience ≤ told.device.link.port.calls.length) :=
    (Session.serves_start port settings knowsPeer).run patience
  have speaks : told.Speaks frames := by
    have speaks := served.1.speaks
    rwa [heard] at speaks
  have progress : session.result? = none → patience ≤ outcomes.length := by
    intro unended
    have made := served.2 (result.symm.trans unended)
    rwa [Nat.zero_add, ← calls, List.length_map] at made
  cases speaks with
  | silent serving idle account unfailed =>
      rw [← calls] at unfailed
      obtain ⟨none, earlier⟩ := Outcome.faults_of_unfailed unfailed
      exact ⟨.inl (said.symm.trans account), by rw [result, serving, none]; rfl, earlier, progress⟩
  | @speaking before part owed serving busy writes frame split account unfailed =>
      rw [← calls] at unfailed
      obtain ⟨none, earlier⟩ := Outcome.faults_of_unfailed unfailed
      obtain ⟨byte, rest, rfl⟩ := List.exists_cons_of_ne_nil writes.nonempty
      refine ⟨.inr ⟨before, part, byte, rest, split, said.symm.trans account, ?_⟩, ?_, earlier,
        progress⟩
      · rw [result, serving]
        simp
      · rw [result, serving, none]
        rfl
  | readFailed ended failed unfailed account =>
      obtain ⟨first, earlier, _⟩ := Outcome.faults_of_last (calls.trans failed) unfailed rfl
      exact ⟨.inl (said.symm.trans account), by rw [result, ended, first]; rfl, earlier, progress⟩
  | writeFailed ended failed unfailed split account =>
      obtain ⟨first, earlier, front, last, whole, put⟩ :=
        Outcome.faults_of_last (calls.trans failed) unfailed rfl
      refine ⟨.inr ⟨_, _, _, _, split, said.symm.trans account, fun _ => ?_⟩,
        by rw [result, ended, first]; rfl, earlier, progress⟩
      cases last with
      | taken answer => cases put
      | put byte' answer =>
          obtain ⟨rfl, _⟩ := Port.Call.write.inj put
          exact ⟨front, answer, whole⟩

/-- A ping and an echo, with noise between them, before the other end closes. -/
example
    : let incoming := wire [Command.ping] ++ [0x55] ++ wire [Command.echo, 0xC0]
      let port : ConnectionPort Loopback := ⟨{ incoming, isClosed := true }⟩
      let session := serve port {} 32
      session.result? = some (.ok ())
      ∧ session.device.link.port.connection.outgoing
        = wire [Command.ping] ++ wire [Command.echo, 0xC0] := by
  decide +kernel

end EchoServer

end PacketBus
