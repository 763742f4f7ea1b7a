import PacketBus.Host.Basic
import PacketBus.Proofs.Port.Record

/-! A line between two ends that loses nothing.
Bytes come in the order in which they were sent, and stay on the line for as long as the world
likes.
-/

namespace PacketBus

/-- One end of a line, with its clock. -/
structure LineEnd where
  /-- What has come and was not read yet. -/
  incoming : List UInt8 := []
  /-- What was sent and is on its way. -/
  outgoing : List UInt8 := []
  /-- How many bytes the line takes before it refuses one. -/
  room : Nat := 0
  time : Nat := 0

instance : Port LineEnd Fault where
  canRead l := (.ok !l.incoming.isEmpty, l)
  read l := (.ok l.incoming.head?, { l with incoming := l.incoming.tail })
  canWrite l := (.ok (decide (0 < l.room)), l)
  write l byte :=
    match l.room with
    | 0 => (.ok false, l)
    | room + 1 => (.ok true, { l with room, outgoing := l.outgoing ++ [byte] })

instance : Clock LineEnd where
  now := LineEnd.time
  pause l := { l with time := l.time + 1 }

namespace Line

variable {before after sender receiver : RecordedPort LineEnd Fault}

/-- What came over the line to an end. -/
def arrived (p : RecordedPort LineEnd Fault) : List UInt8 := p.delivered ++ p.port.incoming

/-- An end has read of what came and sent more, and nothing failed. -/
structure Conserves (before after : RecordedPort LineEnd Fault) : Prop where
  arrived : Line.arrived after = Line.arrived before
  sent : ∀ gone, before.accepted = gone ++ before.port.outgoing
    → after.accepted = gone ++ after.port.outgoing
  lost : after.lost = before.lost

/-- All calls conserve what goes over the line, by the answers of an end. -/
theorem keeps_conserves
    : Port.Keeps Conserves where
  refl port := ⟨rfl, fun _ account => account, rfl⟩
  trans h next := ⟨next.arrived.trans h.arrived,
    fun gone account => next.sent gone (h.sent gone account), next.lost.trans h.lost⟩
  read := by
    rintro ⟨⟨incoming, outgoing, room, time⟩, calls⟩
    cases incoming with
    | nil =>
        refine ⟨?_, ?_, ?_⟩
        · simp [Line.arrived, RecordedPort.delivered, Port.read, List.filterMap_cons]
        · intro gone account
          simpa [RecordedPort.accepted, Port.read, List.filterMap_cons] using account
        · simp [RecordedPort.lost, Port.read, List.filterMap_cons]
    | cons byte rest =>
        refine ⟨?_, ?_, ?_⟩
        · simp [Line.arrived, RecordedPort.delivered, Port.read]
        · intro gone account
          simpa [RecordedPort.accepted, Port.read, List.filterMap_cons] using account
        · simp [RecordedPort.lost, Port.read, List.filterMap_cons]
  write := by
    rintro ⟨⟨incoming, outgoing, room, time⟩, calls⟩ byte
    cases room with
    | zero =>
        refine ⟨?_, ?_, ?_⟩
        · simp [Line.arrived, RecordedPort.delivered, Port.write, List.filterMap_cons]
        · intro gone account
          simpa [RecordedPort.accepted, Port.write, List.filterMap_cons] using account
        · simp [RecordedPort.lost, Port.write, List.filterMap_cons]
    | succ room =>
        refine ⟨?_, ?_, ?_⟩
        · simp [Line.arrived, RecordedPort.delivered, Port.write, List.filterMap_cons]
        · intro gone account
          simp only [RecordedPort.accepted] at account
          simp [RecordedPort.accepted, Port.write, account]
        · simp [RecordedPort.lost, Port.write, List.filterMap_cons]

/-- Time and room are no matter of what goes over the line. -/
theorem Conserves.of_adjust (p : RecordedPort LineEnd Fault) (change : LineEnd → LineEnd)
    (incoming : (change p.port).incoming = p.port.incoming)
    (outgoing : (change p.port).outgoing = p.port.outgoing)
    : Conserves p (p.adjust change) where
  arrived := congrArg (p.delivered ++ ·) incoming
  sent gone account := by
    rw [RecordedPort.adjust, outgoing]
    exact account
  lost := rfl

/-- What one end has sent has come to the other or is on its way. -/
def Joins (sender receiver : RecordedPort LineEnd Fault) : Prop :=
  sender.accepted = arrived receiver ++ sender.port.outgoing

theorem Joins.of_sender (h : Joins sender receiver) (moved : Conserves sender after)
    : Joins after receiver :=
  moved.sent _ h

theorem Joins.of_receiver (h : Joins sender receiver) (moved : Conserves receiver after)
    : Joins sender after := by
  rw [Joins, moved.arrived]
  exact h

/-- Only what was sent is read, and in its order. -/
theorem Joins.delivered (h : Joins sender receiver)
    : receiver.delivered <+: sender.accepted := by
  rw [h, arrived, List.append_assoc]
  exact List.prefix_append _ _

/-- The oldest byte on its way comes to the other end. -/
def carry (sender receiver : RecordedPort LineEnd Fault)
    : RecordedPort LineEnd Fault × RecordedPort LineEnd Fault :=
  match sender.port.outgoing with
  | [] => (sender, receiver)
  | byte :: rest =>
      (sender.adjust fun l => { l with outgoing := rest },
        receiver.adjust fun l => { l with incoming := l.incoming ++ [byte] })

theorem calls_carry (sender receiver : RecordedPort LineEnd Fault)
    : (carry sender receiver).1.calls = sender.calls
      ∧ (carry sender receiver).2.calls = receiver.calls := by
  unfold carry
  split
  · exact ⟨rfl, rfl⟩
  · exact ⟨rfl, rfl⟩

/-- A byte that is carried loses its place on the way to the place at which it comes. -/
theorem Joins.carry (h : Joins sender receiver)
    : Joins (carry sender receiver).1 (carry sender receiver).2 := by
  unfold Line.carry
  split
  · exact h
  · next byte rest outgoing =>
      rw [Joins, arrived, outgoing] at h
      simp only [Joins, arrived, RecordedPort.adjust, RecordedPort.accepted, RecordedPort.delivered]
        at h ⊢
      simp [h]

/-- What goes the other way stays where it is. -/
theorem Joins.carry_back (h : Joins receiver sender)
    : Joins (Line.carry sender receiver).2 (Line.carry sender receiver).1 := by
  unfold Line.carry
  split
  · exact h
  · exact h

-----------------------------------------------------------------------------------------
-- What happens to a line
-----------------------------------------------------------------------------------------

/-- What may happen on a line between a host and a device, short of what these do. -/
inductive Act where
  /-- The oldest byte on its way to the device comes there. -/
  | carryRequest
  | carryAnswer
  | elapse (milliseconds : Nat)
  /-- The line takes so many more bytes from the host. -/
  | requestRoom (bytes : Nat)
  | answerRoom (bytes : Nat)
  deriving DecidableEq

/-- Both ends of a line behind an act. -/
def act (host device : RecordedPort LineEnd Fault)
    : Act → RecordedPort LineEnd Fault × RecordedPort LineEnd Fault
  | .carryRequest => carry host device
  | .carryAnswer =>
      let (sender, receiver) := carry device host
      (receiver, sender)
  | .elapse milliseconds =>
      (host.adjust fun l => { l with time := l.time + milliseconds }, device)
  | .requestRoom bytes => (host.adjust fun l => { l with room := l.room + bytes }, device)
  | .answerRoom bytes => (host, device.adjust fun l => { l with room := l.room + bytes })

/-- An act makes no calls and loses nothing, whichever way it goes. -/
theorem Joins.act {host device : RecordedPort LineEnd Fault} (requests : Joins host device)
    (answers : Joins device host) (a : Act)
    : (Line.act host device a).1.calls = host.calls
      ∧ (Line.act host device a).2.calls = device.calls
      ∧ Joins (Line.act host device a).1 (Line.act host device a).2
      ∧ Joins (Line.act host device a).2 (Line.act host device a).1 := by
  cases a with
  | carryRequest =>
      obtain ⟨sender, receiver⟩ := calls_carry host device
      exact ⟨sender, receiver, requests.carry, answers.carry_back⟩
  | carryAnswer =>
      obtain ⟨sender, receiver⟩ := calls_carry device host
      exact ⟨receiver, sender, requests.carry_back, answers.carry⟩
  | elapse milliseconds =>
      have moved := Conserves.of_adjust host
        (fun l => { l with time := l.time + milliseconds }) rfl rfl
      exact ⟨rfl, rfl, requests.of_sender moved, answers.of_receiver moved⟩
  | requestRoom bytes =>
      have moved := Conserves.of_adjust host (fun l => { l with room := l.room + bytes }) rfl rfl
      exact ⟨rfl, rfl, requests.of_sender moved, answers.of_receiver moved⟩
  | answerRoom bytes =>
      have moved := Conserves.of_adjust device (fun l => { l with room := l.room + bytes }) rfl rfl
      exact ⟨rfl, rfl, requests.of_receiver moved, answers.of_sender moved⟩

/-- A link that reads a line takes the byte that has come first into its packet, or finds none. -/
theorem receive_cases (link : Link (RecordedPort LineEnd Fault))
    : link.port.port.incoming = []
        ∧ link.receive = (.ok none, { link with port := (Port.read link.port).2 })
        ∧ (Port.read link.port).2.delivered = link.port.delivered
      ∨ ∃ byte rest, link.port.port.incoming = byte :: rest
        ∧ (Port.read link.port).2.delivered = link.port.delivered ++ [byte]
        ∧ ∀ status incoming, link.incoming.receive byte = (.ok status, incoming)
          → link.receive
            = (.ok (some status), { link with port := (Port.read link.port).2, incoming }) := by
  obtain ⟨⟨⟨incoming, outgoing, room, time⟩, calls⟩, packet, held, debug⟩ := link
  cases incoming with
  | nil =>
      refine .inl ⟨rfl, rfl, ?_⟩
      simp [RecordedPort.delivered, Port.read, List.filterMap_cons]
  | cons byte rest =>
      refine .inr ⟨byte, rest, rfl, ?_, ?_⟩
      · simp [RecordedPort.delivered, Port.read]
      · intro status next received
        simp [Link.receive, Port.read, received]

end Line

end PacketBus
