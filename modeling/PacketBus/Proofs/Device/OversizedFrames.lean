import PacketBus.Port.Loopback
import PacketBus.Proofs.Device.Polling
import PacketBus.Proofs.Reception.Overflow
import PacketBus.Proofs.Stream.Shipment

/-! A device that reads a frame for which its link has no room.
The frame is dropped as a whole unless its remnant ends in its own checksum; then the remnant is
served as a packet of its own.
-/

namespace PacketBus.Device

variable {P R ε : Type} [Responder R] [Port P ε]

/-- The steps take what the port brings into the incoming packet, hand nothing to the responder and
write nothing. -/
structure OnlyReads (device : Device P R) (count : Nat) : Prop where
  requests : device.requests count = []
  polled : device.polled count
    = { device with
        link :=
          { device.link with
            port := (Port.reads device.link.port count).2
            incoming :=
              device.link.incoming.fed (Port.delivered (Port.reads device.link.port count).1) } }

variable {device : Device P R}

theorem onlyReads_of_takes {count : Nat} {incoming : Packet} (idle : device.isSending = false)
    (taken : Packet.Takes (· ≠ .ok .complete) device.link.incoming
      (Port.delivered (Port.reads device.link.port count).1) incoming)
    : device.OnlyReads count := by
  obtain ⟨quiet, after⟩ := polled_of_takes idle rfl taken
  exact ⟨quiet, by rw [after, taken.fed_eq]⟩

/-- A frame that does not fit is dropped as a whole exactly if its remnant does not end in its own
checksum, which the checksum of what was lost before it decides; otherwise a step serves the remnant
as a packet. -/
theorem onlyReads_oversized_frame_iff {s : Shipment} {frame : List UInt8} {polls : Nat}
    (sent : s.frame? = some frame) (idle : device.isSending = false)
    (ready : device.link.incoming.IsBetweenFrames)
    (oversized : device.link.incoming.capacity < s.payload.length + 2)
    (delivered : Port.delivered (Port.reads device.link.port polls).1 = frame)
    : let content := s.body ++ [Checksum.ofBytes s.body]
      let kept := Frame.remnant device.link.incoming.capacity content
      (device.OnlyReads polls ↔ ¬(2 ≤ kept.length ∧ Checksum.ofBytes kept = 0))
      ∧ (∃ lost seam, Frame.Severed content kept lost seam
          ∧ device.link.incoming.capacity < lost.length
          ∧ (Checksum.ofBytes kept = 0 ↔ Checksum.ofBytes lost = seam))
      ∧ (¬device.OnlyReads polls
          → ∃ earlier < polls, ∃ link : Link P, link.incoming.bytes = kept
              ∧ (device.polled earlier).step
                = ({ device.polled earlier with link } : Device P R).serve) := by
  intro content kept
  obtain rfl := Shipment.eq_wire_of_frame? sent
  obtain ⟨front, middle, result, request, split, discarded, closed, completes, holds⟩ :=
    ready.discards_wire s.body
  have quiet : Packet.Takes (· ≠ .ok .complete) device.link.incoming front middle := by
    refine discarded.mono ?_
    rintro _ (rfl | rfl) complete
    · cases complete
    · cases complete
  -- Only the closing delimiter can complete a packet, and it decides between the two.
  have dropped : result ≠ .ok .complete → device.OnlyReads polls := by
    intro incomplete
    have taken := quiet.trans (.single closed incomplete)
    rw [← split, ← delivered] at taken
    exact onlyReads_of_takes idle taken
  have served : result = .ok .complete → request ∈ device.requests polls := by
    intro complete
    rw [complete] at closed
    exact mem_requests_of_takes idle (delivered.trans split) quiet closed
  obtain ⟨lost, seam, severed, beyond⟩ :=
    Frame.severed_remnant device.link.incoming.capacity content
  have large : device.link.incoming.capacity < content.length := by
    rw [List.length_append, Shipment.length_body, List.length_singleton]
    exact oversized
  refine ⟨?_, ⟨lost, seam, severed, beyond large, ?_⟩, ?_⟩
  · rw [← completes]
    constructor
    · intro onlyReads complete
      have none := served complete
      rw [onlyReads.requests] at none
      cases none
    · exact dropped
  · exact severed.ofBytes_eq_zero_iff (Checksum.ofBytes_append_ofBytes s.body)
  · intro acts
    have complete : result = .ok .complete := Classical.not_not.mp (mt dropped acts)
    obtain ⟨earlier, before, link, received, step⟩ :=
      exists_serve_of_mem_requests (served complete)
    exact ⟨earlier, before, link, by rw [received, holds complete], step⟩

/-- The tail of a frame of six bytes is served by a device that has room for two. -/
theorem serves_tail_of_oversized_frame
    : let s : Shipment := ⟨0, [0, 0, 0, 1], [0, 0, 0, 0, 0], List.replicate 14 0⟩
      let frame := [0xC0, 0x00, 0x00, 0x00, 0x00, 0x01, 0x07, 0xC0]
      let device : Device (ConnectionPort Loopback) Service :=
        onLink (.onPort ⟨{ incoming := frame }⟩ [0, 0]) .ping (List.replicate 16 0)
      s.frame? = some frame
      ∧ device.isSending = false
      ∧ device.link.incoming.IsBetweenFrames
      ∧ device.link.incoming.capacity < s.payload.length + 2
      ∧ Port.delivered (Port.reads device.link.port 8).1 = frame
      ∧ ¬device.OnlyReads 8
      ∧ ∃ earlier < 8, ∃ link : Link (ConnectionPort Loopback), link.incoming.bytes = [0x01, 0x07]
          ∧ (device.polled earlier).step
            = ({ device.polled earlier with link } : Device (ConnectionPort Loopback) Service).serve
    := by
  intro s frame device
  have sent : s.frame? = some frame :=
    (Shipment.HasRoom.frame? ⟨by decide, by decide +kernel⟩).trans (by decide +kernel)
  have idle : device.isSending = false := rfl
  have ready : device.link.incoming.IsBetweenFrames := .inl rfl
  have oversized : device.link.incoming.capacity < s.payload.length + 2 := by decide
  have delivered : Port.delivered (Port.reads device.link.port 8).1 = frame := rfl
  have kept : Frame.remnant device.link.incoming.capacity (s.body ++ [Checksum.ofBytes s.body])
      = [0x01, 0x07] := by
    have content : s.body ++ [Checksum.ofBytes s.body] = [0, 0, 0, 0, 1, 7] := by decide +kernel
    have capacity : device.link.incoming.capacity = 2 := rfl
    have behind : [0, 0, 0, 0, 1, 7].drop (2 + 1) = (0 : UInt8) :: [1, 7] := rfl
    rw [content, capacity, Frame.remnant_of_drop behind]
    exact Frame.remnant_of_le (by decide)
  obtain ⟨dropped, _, served⟩ := onlyReads_oversized_frame_iff sent idle ready oversized delivered
  rw [kept] at dropped served
  have acts : ¬device.OnlyReads 8 := by
    intro onlyReads
    exact dropped.mp onlyReads ⟨by decide, by decide +kernel⟩
  exact ⟨sent, idle, ready, oversized, delivered, acts, served acts⟩

end PacketBus.Device
