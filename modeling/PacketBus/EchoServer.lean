import PacketBus.Device
import PacketBus.Host.Failure
import PacketBus.Journal

/-! A device in software that answers pings and echoes.
It serves one connection until the other end is gone, and keeps a log of what it served.
-/

namespace PacketBus.EchoServer

/-- The most bytes of a packet that the server takes, command and checksum included. -/
def maxPacket : Nat := 256

/-- The commands that the server knows. -/
def names : NameTable where
  capacity := 4
  entries := [(Command.ping, "PING"), (Command.echo, "ECHO")]

/-- The services of the server: pings first, then echoes. -/
def services : Chain Service :=
  .orElse (.single .ping) (.single .echo)

/-- The fault says that the other end is gone. -/
def endsSession (fault : Fault) : Bool :=
  fault.kind = .unexpectedEof || fault.kind = .connectionReset || fault.kind = .brokenPipe

/-- One connection being served. -/
structure Session (P : Type) where
  device : Device P (Chain Service)
  debug : Bool
  log : List Journal.Entry
  result? : Option (Except Host.Failure Unit) := none

namespace Session

/-- A session on a port that has just been connected. The log tells of the client only if the port
knows its address. -/
def start {P : Type} (port : P) (settings : LinkSettings) (knowsPeer : Bool := true)
    : Session P where
  device :=
    Device.onLink (Link.onPort port (List.replicate maxPacket 0) settings) services
      (List.replicate maxPacket 0)
  debug := settings.debug
  log := if knowsPeer then [{ level := .info, message := "Client connected" }] else []

/-- The entries for what a step of the device did. -/
def entries {P : Type} (debug : Bool) (device : Device P (Chain Service))
    : Device.Event → List Journal.Entry
  | .answered command =>
      { level := .debug, message := "Handled", fields := [("command", names.label command)] }
        :: if debug then
            Journal.packet "Rcvd" device.link.incoming names
              ++ Journal.packet "Send" device.response names
          else []
  | .unanswered command =>
      [{ level := .warn, message := "Unhandled command " ++ Hex.marked command }]
  | .lost failure => [{ level := .warn, message := "Dropped frame: " ++ failure.message }]
  | .idle | .reading | .blocked | .sent => []

variable {P : Type} [Port P Fault]

/-- Goes on by one step of the device; a session that has ended stays as it is. -/
def step (s : Session P) : Session P :=
  if s.result?.isSome then s
  else
    match s.device.step with
    | (.ok event, device) =>
        { s with device, log := s.log ++ entries s.debug device event }
    | (.error (.packet e), device) => { s with device, result? := some (.error (.packet e)) }
    | (.error (.port fault), device) =>
        if endsSession fault then
          { s with
            device
            log := s.log ++ [{ level := .info, message := "Client disconnected" }]
            result? := some (.ok ()) }
        else { s with device, result? := some (.error (.transport fault)) }

/-- Goes on until the session ends, `patience` steps at most. -/
def run (s : Session P) : Nat → Session P
  | 0 => s
  | patience + 1 => if s.result?.isSome then s else s.step.run patience

end Session

/-- Serves a port until the other end is gone, going `patience` steps at most. -/
def serve {P : Type} [Port P Fault] (port : P) (settings : LinkSettings) (patience : Nat)
    (knowsPeer : Bool := true)
    : Session P :=
  (Session.start port settings knowsPeer).run patience

end PacketBus.EchoServer
