/-! A port moves single bytes and never waits.
Having nothing to read and having no room are answers of a port, and only a transport fault is an
error; every call says what the port is afterwards.
-/

namespace PacketBus

/-- A source and sink of bytes with faults of type `ε`. -/
class Port (P : Type) (ε : outParam Type) where
  /-- Whether a byte can be read at once. -/
  canRead : P → Except ε Bool × P
  /-- Reads a byte, or nothing if none has come yet. -/
  read : P → Except ε (Option UInt8) × P
  /-- Whether a byte can be written at once. -/
  canWrite : P → Except ε Bool × P
  /-- Writes a byte, or refuses it for lack of room. -/
  write : P → UInt8 → Except ε Bool × P

end PacketBus
