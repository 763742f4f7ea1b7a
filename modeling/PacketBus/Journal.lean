import PacketBus.Command
import PacketBus.Text.HexDump
import PacketBus.Packet.Basic

/-! What is logged of the traffic on a link.
A packet is one line with its command, followed by a dump of its payload if it has one.
-/

namespace PacketBus.Journal

/-- How much an entry matters. -/
inductive Level where
  | debug
  | info
  | warn
  deriving DecidableEq, Repr

/-- The level as it is written. -/
def Level.word : Level → String
  | debug => "DEBUG"
  | info => "INFO"
  | warn => "WARN"

/-- One entry of a log. -/
structure Entry where
  level : Level
  message : String
  /-- Further values by name, in order. -/
  fields : List (String × String) := []
  deriving DecidableEq, Repr

/-- An entry as a line of text. -/
def Entry.line (entry : Entry) : String :=
  entry.fields.foldl (fun text field => text ++ " " ++ field.1 ++ "=" ++ field.2)
    (entry.level.word ++ " " ++ entry.message)

/-- The entries for a packet that was sent or received. -/
def packet (label : String) (packet : Packet) (names : NameTable) : List Entry :=
  let command := packet.command?.getD 0
  let header :=
    label ++ ": cmd " ++ Hex.marked command ++ " (" ++ names.label command ++ ") len "
      ++ toString packet.payload.length
  let dump := if packet.payload.isEmpty then [] else HexDump.lines { label } packet.payload
  (header :: dump).map fun message => { level := .debug, message }

end PacketBus.Journal
