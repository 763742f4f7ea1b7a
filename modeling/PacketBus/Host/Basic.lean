import PacketBus.Host.Failure
import PacketBus.Journal

/-! The host side of a link: the end that asks, with its settings and the names it logs commands by.
Waiting needs a port on which time passes.
-/

namespace PacketBus

/-- A world in which time passes. -/
class Clock (P : Type) where
  /-- Milliseconds since some fixed moment. -/
  now : P → Nat
  /-- Lets some time pass while there is nothing to do. -/
  pause : P → P

/-- The end of a link that sends requests to one device. -/
structure Host (P : Type) where
  link : Link P
  settings : LinkSettings
  names : NameTable

namespace Host

/-- How many commands a host can name. -/
def maxNames : Nat := 32

variable {P : Type}

/-- A host on a port that receives responses into a storage. -/
def onPort (port : P) (storage : List UInt8) (settings : LinkSettings) : Host P where
  link := Link.onPort port storage settings
  settings := settings
  names := NameTable.ofCapacity maxNames

/-- Gives a command the name it is logged by. -/
def nameCommand (host : Host P) (command : UInt8) (name : String) : Except Failure (Host P) :=
  match host.names.insert command name with
  | .ok names => .ok { host with names }
  | .error _ => .error (.badSettings ("no room to name command " ++ Hex.marked command))

/-- Switches the logging of packets. -/
def setDebug (host : Host P) (debug : Bool) : Host P :=
  { host with
    settings := { host.settings with debug }
    link := { host.link with debug } }

/-- The entries for a packet, if packets are logged. -/
def logPacket (host : Host P) (label : String) (packet : Packet) : List Journal.Entry :=
  if host.settings.debug then Journal.packet label packet host.names else []

/-- The request that asks whether the device is there. -/
def pingRequest : Packet :=
  { storage := [Command.ping], size := 1 }

/-- Whether a response answers a ping. -/
def checkPing (response : Packet) : Except Failure Unit :=
  if response.command? = some Command.ping then .ok ()
  else .error (.wrongResponse (response.command?.getD 0))

end Host

end PacketBus
