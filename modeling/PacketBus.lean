import PacketBus.EchoServer
import PacketBus.Host.Exchange
import PacketBus.Packet.History
import PacketBus.Port.Buffered
import PacketBus.Port.Loopback
import PacketBus.Port.SerialLine
import PacketBus.Settings.File
import PacketBus.Proofs.Frame.Items
import PacketBus.Proofs.Reception.Content
import PacketBus.Proofs.Reception.Grammar
import PacketBus.Proofs.Emission.Outstanding
import PacketBus.Proofs.Reception.Frames
import PacketBus.Proofs.Stream.Shipment
import PacketBus.Proofs.Stream.RoundTrip
import PacketBus.Proofs.Stream.Resynchronization
import PacketBus.Proofs.Frame.Remnant
import PacketBus.Proofs.Reception.Overflow
import PacketBus.Proofs.Device.OversizedFrames
import PacketBus.Proofs.Link.Writing
import PacketBus.Proofs.Packet.Soundness
import PacketBus.Proofs.Link.Underway
import PacketBus.Proofs.Link.Refusals
import PacketBus.Proofs.Port.Schedule
import PacketBus.Proofs.Port.Sides
import PacketBus.Proofs.Link.Faults
import PacketBus.Proofs.Device.Conversation
import PacketBus.Proofs.Device.Timing
import PacketBus.Proofs.Device.Turns
import PacketBus.Proofs.Port.Translation
import PacketBus.Proofs.Server.Services
import PacketBus.Proofs.Server.Session
import PacketBus.Proofs.Server.Connection
import PacketBus.Proofs.Exchange.Steps
import PacketBus.Proofs.Dialogue.Echoes
import PacketBus.Proofs.Dialogue.Line
import PacketBus.Proofs.Exchange.Attempts
import PacketBus.Proofs.Exchange.Hearing
import PacketBus.Proofs.Dialogue.Answers
import PacketBus.Proofs.Frame.Damage
import PacketBus.Proofs.Reception.Damage
import PacketBus.Proofs.Packet.Image
import PacketBus.Proofs.Packet.Representation
import PacketBus.Proofs.Packet.Accesses
import PacketBus.Proofs.Packet.Verified
import PacketBus.Proofs.Packet.Atomicity
import PacketBus.Proofs.Packet.Building
import PacketBus.Proofs.Reception.Likeness
import PacketBus.Proofs.Dialogue.Calls
import PacketBus.Proofs.Dialogue.Visit
import PacketBus.Proofs.Dialogue.Moves
import PacketBus.Proofs.Dialogue.Standing
import PacketBus.Proofs.Dialogue.Progress
import PacketBus.Proofs.Packet.Resemblance
import PacketBus.Proofs.Packet.Forgetting
import PacketBus.Proofs.Device.Forgetting
import PacketBus.Proofs.Responder.Declining
import PacketBus.Proofs.Responder.Nesting
import PacketBus.Proofs.Link.Listening
import PacketBus.Proofs.Link.Pauses
import PacketBus.Proofs.Port.Retries
import PacketBus.Proofs.Frame.Canonical
import PacketBus.Proofs.Emission.Interference
import PacketBus.Proofs.Reception.Layout
import PacketBus.Proofs.Stream.LostOpening
import PacketBus.Proofs.Stream.Resending
import PacketBus.Proofs.Link.Duplex
import PacketBus.Proofs.Device.Bounds
import PacketBus.Proofs.Packet.Appending
import PacketBus.Proofs.Responder.Appending
import PacketBus.Proofs.Text.Columns
import PacketBus.Proofs.Command.Names
import PacketBus.Proofs.Settings.Fields
import PacketBus.Proofs.Settings.Overlay
