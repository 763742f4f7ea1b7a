import PacketBus.Port

/-! A port that answers by a schedule.
It stands for every way in which a port may answer; behind the end of its schedule it has nothing
to read and takes every byte.
-/

namespace PacketBus

/-- The answers that a port is going to give. -/
structure ScheduledPort (ε : Type) where
  reads : List (Except ε (Option UInt8)) := []
  writes : List (Except ε Bool) := []

instance (ε : Type) : Port (ScheduledPort ε) ε where
  canRead p := (.ok (p.reads.head?.any fun answer => answer.toOption.join.isSome), p)
  read p := (p.reads.headD (.ok none), { p with reads := p.reads.tail })
  canWrite p := (.ok (p.writes.head?.all fun answer => answer.toOption.getD false), p)
  write p _ := (p.writes.headD (.ok true), { p with writes := p.writes.tail })

end PacketBus
