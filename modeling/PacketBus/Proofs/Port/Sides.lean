import PacketBus.Proofs.Port.Record
import PacketBus.Proofs.Port.Schedule

/-! Ports that are read on one side and written on another.
Neither side takes notice of what goes on at the other one, and a record of such a port has the
same two sides, each with what has gone over it.
-/

namespace PacketBus

variable {P S T ε : Type}

/-- What a port is to its reads and what it is to its writes: a call changes its own side alone,
and that side alone decides the answer and the change. -/
structure Port.HasSides [Port P ε] (source : P → S) (sink : P → T) : Prop where
  sink_read : ∀ port, sink (Port.read port).2 = sink port
  source_write : ∀ port byte, source (Port.write port byte).2 = source port
  read
    : ∀ {port other}, source port = source other
      → (Port.read port).1 = (Port.read other).1
        ∧ source (Port.read port).2 = source (Port.read other).2
  write
    : ∀ {port other} byte, sink port = sink other
      → (Port.write port byte).1 = (Port.write other byte).1
        ∧ sink (Port.write port byte).2 = sink (Port.write other byte).2

/-- A port that is the same to its reads answers a read in the same way. -/
theorem Port.HasSides.read_of_same [Port P ε] {source : P → S} {sink : P → T}
    (h : Port.HasSides source sink) {port other after : P} {answer : Except ε (Option UInt8)}
    (same : source port = source other) (answered : Port.read port = (answer, after))
    : ∃ after', Port.read other = (answer, after') ∧ source after = source after' := by
  obtain ⟨agree, next⟩ := h.read same
  rw [answered] at agree next
  exact ⟨(Port.read other).2, Prod.ext agree.symm rfl, next⟩

/-- A port that is the same to its writes answers a write in the same way. -/
theorem Port.HasSides.write_of_same [Port P ε] {source : P → S} {sink : P → T}
    (h : Port.HasSides source sink) {port other after : P} {byte : UInt8} {answer : Except ε Bool}
    (same : sink port = sink other) (answered : Port.write port byte = (answer, after))
    : ∃ after', Port.write other byte = (answer, after') ∧ sink after = sink after' := by
  obtain ⟨agree, next⟩ := h.write byte same
  rw [answered] at agree next
  exact ⟨(Port.write other byte).2, Prod.ext agree.symm rfl, next⟩

theorem ScheduledPort.hasSides
    : Port.HasSides (reads : ScheduledPort ε → _) (writes : ScheduledPort ε → _) where
  sink_read _ := rfl
  source_write _ _ := rfl
  read same := ⟨congrArg (·.headD (.ok none)) same, congrArg List.tail same⟩
  write _ same := ⟨congrArg (·.headD (.ok true)) same, congrArg List.tail same⟩

namespace RecordedPort

/-- The side that is read, with what was read of it. -/
def source (source : P → S) (p : RecordedPort P ε) : S × List UInt8 :=
  (source p.port, p.delivered)

/-- The side that is written, with what it has taken. -/
def sink (sink : P → T) (p : RecordedPort P ε) : T × List UInt8 :=
  (sink p.port, p.accepted)

variable [Port P ε]

theorem hasSides {source : P → S} {sink : P → T} (sides : Port.HasSides source sink)
    : Port.HasSides (RecordedPort.source source : RecordedPort P ε → _)
        (RecordedPort.sink sink) where
  sink_read p := Prod.ext (sides.sink_read p.port) (accepted_read p)
  source_write p byte := Prod.ext (sides.source_write p.port byte) (delivered_write p byte)
  read {p q} same := by
    obtain ⟨inner, heard⟩ := Prod.mk.inj same
    obtain ⟨answer, next⟩ := sides.read inner
    refine ⟨answer, Prod.ext next ?_⟩
    simp only [RecordedPort.source, delivered_read, heard, answer]
  write {p q} byte same := by
    obtain ⟨inner, taken⟩ := Prod.mk.inj same
    obtain ⟨answer, next⟩ := sides.write byte inner
    refine ⟨answer, Prod.ext next ?_⟩
    simp only [RecordedPort.sink, accepted_write, taken, answer]

end RecordedPort

end PacketBus
