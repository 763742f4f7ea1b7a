/-! Settings of a link that devices and hosts share.
A request is tried once and then once more for every retry that is allowed.
-/

namespace PacketBus

/-- Settings of a link. -/
structure LinkSettings where
  /-- Log every packet sent and received. -/
  debug : Bool := false
  /-- How many milliseconds a host waits for a response. -/
  responseTimeout : UInt32 := 100
  /-- How often a host sends a request again that was not answered. -/
  retries : UInt8 := 0
  deriving DecidableEq, Repr

/-- How often a request is sent at most. -/
def LinkSettings.attempts (settings : LinkSettings) : Nat := settings.retries.toNat + 1

end PacketBus
