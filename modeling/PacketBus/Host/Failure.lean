import PacketBus.Link
import PacketBus.Port.Fault

/-! Why a host could not do its work.
Every cause has one text, and the faults of a link keep their own inside it.
-/

namespace PacketBus.Host

/-- Why a host could not do its work. -/
inductive Failure where
  | transport (fault : Fault)
  | packet (failure : Packet.Failure)
  /-- No response came within so many milliseconds. -/
  | noResponse (milliseconds : UInt32)
  /-- The response carries a command that does not answer the request. -/
  | wrongResponse (command : UInt8)
  /-- The settings could not be read or do not suffice. -/
  | badSettings (text : String)
  deriving DecidableEq, Repr

namespace Failure

/-- The cause of a failure on the link. -/
def ofLink : Link.Failure Fault → Failure
  | .packet failure => packet failure
  | .port fault => transport fault

/-- The cause in words. -/
def message : Failure → String
  | transport fault => "IO error: " ++ fault.message
  | packet failure => "Packet error: " ++ failure.message
  | noResponse milliseconds => "No response within " ++ toString milliseconds.toNat ++ " ms"
  | wrongResponse command => "Unexpected response: command " ++ Hex.marked command
  | badSettings text => "Configuration error: " ++ text

end Failure

end PacketBus.Host
