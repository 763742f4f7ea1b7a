import PacketBus.Port
import PacketBus.Port.Fault

/-! A port over a connection that never waits.
A fault that only asks for another try is no fault of the port, but the end of the connection is
one.
-/

namespace PacketBus

/-- One end of a connection; a read that gives no byte has found the end. -/
class Connection (C : Type) where
  /-- Looks at the next byte and leaves it. -/
  peek : C → Except Fault (Option UInt8) × C
  /-- Takes the next byte. -/
  take : C → Except Fault (Option UInt8) × C
  /-- Whether the byte was taken. -/
  put : C → UInt8 → Except Fault Bool × C

/-- A port over a connection. -/
structure ConnectionPort (C : Type) where
  connection : C

namespace ConnectionPort

/-- The fault only asks for another try. -/
def asksRetry (fault : Fault) : Bool :=
  fault.kind = .wouldBlock || fault.kind = .interrupted

/-- What the port answers for an attempt to read: the end is a fault, and another try is no byte. -/
def received : Except Fault (Option UInt8) → Except Fault (Option UInt8)
  | .ok (some byte) => .ok (some byte)
  | .ok none => .error .closedByPeer
  | .error fault => if asksRetry fault then .ok none else .error fault

/-- What the port answers for an attempt to write: another try is a refusal. -/
def sent : Except Fault Bool → Except Fault Bool
  | .ok true => .ok true
  | .ok false => .error .writeZero
  | .error fault => if asksRetry fault then .ok false else .error fault

variable {C : Type} [Connection C]

/-- A connection does not tell whether it has room, so the port always says that it has. -/
instance : Port (ConnectionPort C) Fault where
  canRead port :=
    let (result, connection) := Connection.peek port.connection
    ((received result).map Option.isSome, ⟨connection⟩)
  read port :=
    let (result, connection) := Connection.take port.connection
    (received result, ⟨connection⟩)
  canWrite port := (.ok true, port)
  write port byte :=
    let (result, connection) := Connection.put port.connection byte
    (sent result, ⟨connection⟩)

end ConnectionPort

end PacketBus
