/-! Command bytes that every device knows, and the names shown for commands.
A table of names has a bounded size: a command that has a name can always be renamed, and a new one
is refused when all places are taken.
-/

namespace PacketBus

namespace Command

/-- Asks whether a device is there. -/
def ping : UInt8 := 0x01

/-- Asks for the payload to be sent back. -/
def echo : UInt8 := 0x02

/-- Shown for a command without a name. -/
def unknownName : String := "???"

/-- The name of a command of every device. -/
def baseName? (command : UInt8) : Option String :=
  if command = ping then some "PING" else none

/-- The name to show for a command of every device. -/
def baseLabel (command : UInt8) : String :=
  (baseName? command).getD unknownName

end Command

/-- Names of commands, at most `capacity` of them. -/
structure NameTable where
  capacity : Nat
  /-- The named commands, each once, with the latest name. -/
  entries : List (UInt8 × String)
  deriving DecidableEq, Repr

namespace NameTable

/-- All places of a table are taken. -/
inductive Full where
  | full
  deriving DecidableEq, Repr

/-- A table that knows the command every device understands. -/
def ofCapacity (capacity : Nat) : NameTable :=
  ⟨capacity, [(Command.ping, "PING")]⟩

/-- The name of a command, if it has one. -/
def name? (names : NameTable) (command : UInt8) : Option String :=
  names.entries.lookup command

/-- The name to show for a command. -/
def label (names : NameTable) (command : UInt8) : String :=
  (names.name? command).getD Command.unknownName

/-- How many commands are named. -/
def size (names : NameTable) : Nat := names.entries.length

/-- Gives a command its name; a new command needs a free place. -/
def insert (names : NameTable) (command : UInt8) (name : String) : Except Full NameTable :=
  if (names.name? command).isSome then
    .ok
      { names with
        entries := names.entries.map fun entry =>
          if entry.1 = command then (command, name) else entry }
  else if names.size < names.capacity then
    .ok { names with entries := names.entries ++ [(command, name)] }
  else .error .full

end NameTable

end PacketBus
