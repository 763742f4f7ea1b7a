import PacketBus.Port.Connection

/-! A connection of a host with itself, seen from one of its ends.
Nothing is lost on it, and this end is never kept from sending.
-/

namespace PacketBus

/-- One end of a loopback connection. -/
structure Loopback where
  /-- What the other end has sent and this end has not read. -/
  incoming : List UInt8 := []
  /-- What this end has sent and the other end has not read. -/
  outgoing : List UInt8 := []
  /-- The other end sends no more. -/
  isClosed : Bool := false
  deriving DecidableEq, Repr

namespace Loopback

/-- The next byte, the end of the connection, or a request to try again. -/
def front (l : Loopback) : Except Fault (Option UInt8) :=
  match l.incoming with
  | byte :: _ => .ok (some byte)
  | [] =>
      if l.isClosed then .ok none
      else .error (.ofSystem .wouldBlock "Resource temporarily unavailable" 11)

instance : Connection Loopback where
  peek l := (l.front, l)
  take l := (l.front, { l with incoming := l.incoming.tail })
  put l byte := (.ok true, { l with outgoing := l.outgoing ++ [byte] })

/-- The other end sends bytes. -/
def feed (l : Loopback) (bytes : List UInt8) : Loopback :=
  { l with incoming := l.incoming ++ bytes }

/-- The other end closes. -/
def close (l : Loopback) : Loopback := { l with isClosed := true }

/-- The other end reads bytes. -/
def drain (l : Loopback) (count : Nat) : List UInt8 × Loopback :=
  (l.outgoing.take count, { l with outgoing := l.outgoing.drop count })

end Loopback

end PacketBus
