/-! Faults of a transport: what kind of fault it is, and its text.
Some kinds only say that a call has to be made again, and which those are depends on the transport.
-/

namespace PacketBus

/-- Kinds of transport fault. -/
inductive Fault.Kind where
  | timedOut
  | wouldBlock
  | interrupted
  | brokenPipe
  | unexpectedEof
  | connectionReset
  | notConnected
  | writeZero
  | notFound
  | isADirectory
  | notADirectory
  | invalidInput
  | invalidData
  | invalidFilename
  | networkUnreachable
  | other
  deriving DecidableEq, Repr

/-- A fault of a transport. -/
structure Fault where
  kind : Fault.Kind
  message : String
  deriving DecidableEq, Repr

namespace Fault

/-- A fault that the operating system reports under a number. -/
def ofSystem (kind : Kind) (text : String) (code : Nat) : Fault :=
  ⟨kind, text ++ " (os error " ++ toString code ++ ")"⟩

/-- The other end of a connection has closed it. -/
def closedByPeer : Fault := ⟨.unexpectedEof, "connection closed by peer"⟩

/-- A connection took none of the bytes it was given. -/
def writeZero : Fault := ⟨.writeZero, "write zero"⟩

end Fault

end PacketBus
