import PacketBus.Port

/-! A port over a chip with a receive and a send buffer.
A byte is moved only when the chip says that this will not wait.
-/

namespace PacketBus

/-- A chip with a receive and a send buffer. -/
class BufferedChip (C : Type) (ε : outParam Type) where
  /-- Whether the receive buffer holds a byte. -/
  hasByte : C → Except ε Bool × C
  /-- Takes one byte out of the receive buffer, or finds it empty. -/
  take : C → Except ε (Option UInt8) × C
  /-- Whether the send buffer has room. -/
  hasRoom : C → Except ε Bool × C
  /-- Puts one byte into the send buffer, or finds it full. -/
  put : C → UInt8 → Except ε Bool × C

/-- A port over a buffered chip. -/
structure BufferedPort (C : Type) where
  chip : C

namespace BufferedPort

variable {C ε : Type}

/-- Calls the chip and keeps what it is afterwards. -/
def call (port : BufferedPort C) {α : Type} (action : C → Except ε α × C)
    : Except ε α × BufferedPort C :=
  let (result, chip) := action port.chip
  (result, { port with chip })

variable [BufferedChip C ε]

/-- Takes a byte only if the chip has one. -/
def read (port : BufferedPort C) : Except ε (Option UInt8) × BufferedPort C :=
  match port.call BufferedChip.hasByte with
  | (.ok true, ready) => ready.call BufferedChip.take
  | (.ok false, waiting) => (.ok none, waiting)
  | (.error fault, failed) => (.error fault, failed)

/-- Puts a byte only if the chip has room. -/
def write (port : BufferedPort C) (byte : UInt8) : Except ε Bool × BufferedPort C :=
  match port.call BufferedChip.hasRoom with
  | (.ok true, ready) => ready.call (BufferedChip.put · byte)
  | (.ok false, full) => (.ok false, full)
  | (.error fault, failed) => (.error fault, failed)

instance : Port (BufferedPort C) ε where
  canRead port := port.call BufferedChip.hasByte
  read := read
  canWrite port := port.call BufferedChip.hasRoom
  write := write

end BufferedPort

end PacketBus
