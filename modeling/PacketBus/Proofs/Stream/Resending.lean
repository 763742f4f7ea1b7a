import PacketBus.Proofs.Emission.Outstanding
import PacketBus.Proofs.Port.Record
import PacketBus.Proofs.Reception.Layout

/-! Packets that are sent on as they were received.
Of all the layouts in which a packet can come, one goes out again: that in which a sender writes its
content, with the same checksum behind the same body.
-/

namespace PacketBus.Packet

open PacketBus.Frame (enclosed)

variable {q : Packet}

/-- Sending on: a packet that was received whole goes out as the one frame that a sender writes for
its content, with nothing of the packet changed; the frame takes no more bytes than came in, another
receiver of the same size takes the same packet from it, and it is what came in exactly if that was
in canonical form. -/
theorem sends_on_in_canonical_form (p : Packet) (ready : p.isMidFrame = false) {input : List UInt8}
    {used : Nat} (received : p.receiveFrame input = (⟨.ok .complete, used⟩, q))
    : let frame := enclosed q.bytes
      (∀ buffer : List UInt8, q.frameSize ≤ buffer.length
        → ∃ r, q.writeFrame buffer
              = (⟨.ok q.frameSize, frame ++ buffer.drop q.frameSize⟩, r)
            ∧ r.bytes = q.bytes ∧ r.checksum? = q.checksum?)
      ∧ q.frameSize = frame.length
      ∧ q.frameSize ≤ used
      ∧ (∀ storage : List UInt8, storage.length = p.capacity
        → ∃ s, (ofStorage storage).receiveFrame frame = (⟨.ok .complete, frame.length⟩, s)
            ∧ s.bytes = q.bytes ∧ s.checksum? = q.checksum?)
      ∧ (frame = input.take used ↔ Frame.IsCanonical input) := by
  intro frame
  have between : p.receiver = .between := by simpa [isMidFrame] using ready
  obtain ⟨l, rest, rfl, rfl, nonempty, right, holds, verified⟩ := exists_layout between received
  obtain ⟨command, held, reported⟩ := holds.body_of_complete right verified
  have sent : Frame.wire q.body = frame := by
    simp only [frame, held]
    rfl
  have size : q.frameSize = frame.length := by rw [← sent, Frame.length_wire, frameSize]
  have laid : frame = enclosed l.content := by simp only [frame, holds.bytes]
  refine ⟨?_, size, ?_, ?_, ?_⟩
  · intro buffer room
    have written := writeFrame_of_room holds.size_le command room
    rw [sent, ← size] at written
    exact ⟨_, written, rfl, rfl⟩
  · rw [size, laid]
    exact l.length_enclosed_le
  · intro storage capacity
    have fits : q.body.length + 1 ≤ (ofStorage storage).capacity := by
      have within := holds.size_le
      rw [holds.room, holds.size, ← holds.bytes, held] at within
      simpa [Packet.capacity, ofStorage, capacity] using within
    have fresh : (ofStorage storage).IsBetweenFrames := .inl rfl
    obtain ⟨s, ended, _, holds', verified'⟩ := fresh.ends_wire command fits
    rw [sent] at ended
    have taken := ended.receiveFrame (by simp) []
    rw [List.append_nil] at taken
    have right' : verdict (q.body ++ [Checksum.ofBytes q.body]) = .ok .complete := by
      rw [← held, holds.bytes, right]
    obtain ⟨_, _, reported'⟩ := holds'.body_of_complete right' verified'
    exact ⟨s, taken, holds'.bytes.trans held.symm,
      by rw [reported, reported', holds'.body_eq verified']⟩
  · rw [List.take_left, laid, l.enclosed_eq_wire_iff, l.isCanonical_iff nonempty]

/-- An opening byte that is no delimiter, a delimiter, an escaped byte that needed no escape and a
delimiter behind an escape mark, taken by a packet that is itself half sent. -/
theorem sends_on_in_canonical_form_of_superfluous_bytes
    : let p : Packet :=
        { storage := [0xEE, 0xEE, 0xEE], size := 2, verified := true, emitter := ⟨.escaped, 1, 9⟩ }
      let input := [0x55, 0xC0, 0xDB, 0x01, 0xDB, 0xC0, 0x5B, 0xC0, 0x77]
      let q := (p.receiveFrame input).2
      p.isMidFrame = false
      ∧ p.receiveFrame input = (⟨.ok .complete, 8⟩, q)
      ∧ q.bytes = [0x01, 0xC0, 0x5B]
      ∧ q.frameSize = 6
      ∧ (∃ r, q.writeFrame (List.replicate 7 0xAA)
            = (⟨.ok 6, [0xC0, 0x01, 0xDB, 0xDC, 0x5B, 0xC0, 0xAA]⟩, r)
          ∧ r.bytes = q.bytes ∧ r.checksum? = q.checksum?)
      ∧ ¬Frame.IsCanonical input := by
  intro p input q
  have received : p.receiveFrame input = (⟨.ok .complete, 8⟩, q) := by
    have result : (p.receiveFrame input).1.result = .ok .complete := by decide +kernel
    have used : (p.receiveFrame input).1.used = 8 := by decide +kernel
    rw [← result, ← used]
  have held : q.bytes = [0x01, 0xC0, 0x5B] := by decide +kernel
  have size : q.frameSize = 6 := by decide +kernel
  have buffer : enclosed [0x01, 0xC0, 0x5B] ++ (List.replicate 7 (0xAA : UInt8)).drop 6
      = [0xC0, 0x01, 0xDB, 0xDC, 0x5B, 0xC0, 0xAA] := by
    decide +kernel
  obtain ⟨written, _, _, _, canonical⟩ := sends_on_in_canonical_form p rfl received
  refine ⟨rfl, received, held, size, ?_, ?_⟩
  · have room : q.frameSize ≤ (List.replicate 7 (0xAA : UInt8)).length := by
      rw [size]
      decide
    simpa only [size, held, buffer] using written _ room
  · rw [← canonical, held]
    decide

end PacketBus.Packet
