import PacketBus.Text.Hex

/-! Why an operation on a packet fails.
Three of the causes are noise on the line, after which the next frame can still be read.
-/

namespace PacketBus.Packet

/-- Why a packet could not be built, received or sent. -/
inductive Failure where
  /-- The last byte of a frame is not the checksum of the bytes before it. -/
  | checksumMismatch (received expected : UInt8)
  /-- The frame closed before a command and a checksum had come, or there is nothing to send. -/
  | tooShort
  /-- The frame, or its wire form, does not fit. -/
  | overflow
  /-- The place inside a frame is none that exists; no operation comes to this. -/
  | brokenState
  /-- The data does not fit behind what the packet already holds. -/
  | noRoom
  deriving DecidableEq, Repr

namespace Failure

/-- Only a frame was lost, and the next one can be read. -/
def losesFrameOnly : Failure → Bool
  | checksumMismatch _ _ | tooShort | overflow => true
  | brokenState | noRoom => false

/-- The cause in words. -/
def message : Failure → String
  | checksumMismatch received expected =>
      "CRC error: received " ++ Hex.marked received ++ " expected " ++ Hex.marked expected
  | tooShort => "frame too small"
  | overflow => "packet storage full"
  | brokenState => "invalid parser state"
  | noRoom => "payload exceeds packet capacity"

end Failure

end PacketBus.Packet
