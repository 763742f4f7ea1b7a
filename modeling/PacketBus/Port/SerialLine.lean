import PacketBus.Port
import PacketBus.Port.Fault
import PacketBus.Text.Quoted

/-! A port over a serial line.
The line is asked how many bytes it holds before one is taken, and a fault that only asks for
another try is no fault of a read or a write.
-/

namespace PacketBus

/-- A serial line. -/
class SerialLine (L : Type) where
  /-- Name of the line, if the system gives one. -/
  name? : L → Option String
  /-- How many bytes wait to be read. -/
  waiting : L → Except Fault Nat × L
  /-- Takes a byte, or finds none. -/
  take : L → Except Fault (Option UInt8) × L
  /-- Whether the byte was taken. -/
  put : L → UInt8 → Except Fault Bool × L

/-- A port over a serial line. -/
structure SerialPort (L : Type) where
  line : L

namespace SerialPort

/-- The fault only asks for another try. -/
def asksRetry (fault : Fault) : Bool :=
  fault.kind = .timedOut || fault.kind = .wouldBlock || fault.kind = .interrupted

/-- What the port answers for an attempt to read. -/
def received : Except Fault (Option UInt8) → Except Fault (Option UInt8)
  | .ok byte? => .ok byte?
  | .error fault => if asksRetry fault then .ok none else .error fault

/-- What the port answers for an attempt to write. -/
def sent : Except Fault Bool → Except Fault Bool
  | .ok taken => .ok taken
  | .error fault => if asksRetry fault then .ok false else .error fault

variable {L : Type} [SerialLine L]

/-- Whether bytes wait; every fault of this question is reported. -/
def canRead (port : SerialPort L) : Except Fault Bool × SerialPort L :=
  let (result, line) := SerialLine.waiting port.line
  (result.map (0 < ·), ⟨line⟩)

/-- Takes a byte only if bytes wait. -/
def read (port : SerialPort L) : Except Fault (Option UInt8) × SerialPort L :=
  match port.canRead with
  | (.ok true, ready) =>
      let (result, line) := SerialLine.take ready.line
      (received result, ⟨line⟩)
  | (.ok false, empty) => (.ok none, empty)
  | (.error fault, failed) => (.error fault, failed)

/-- A line does not tell whether it has room, so the port always says that it has. -/
instance : Port (SerialPort L) Fault where
  canRead := canRead
  read := read
  canWrite port := (.ok true, port)
  write port byte :=
    let (result, line) := SerialLine.put port.line byte
    (sent result, ⟨line⟩)

/-- The port in words, with the name of its line. -/
def describe (port : SerialPort L) : String :=
  "SerialPort \x7b name: " ++ Text.quotedOption (SerialLine.name? port.line) ++ " \x7d"

end SerialPort

end PacketBus
