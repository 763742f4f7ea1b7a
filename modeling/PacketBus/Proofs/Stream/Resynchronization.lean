import PacketBus.Proofs.Reception.Frames
import PacketBus.Proofs.Stream.Shipment

/-! A receiver finds back to the frames of a line after any noise.
No frame leaves it behind an escape mark before the closing delimiter, so that delimiter is read as
one, and at most the frame that it closes is lost.
-/

namespace PacketBus.Packet

open PacketBus.Frame (delimiter escapeMark escape? stuffByte)

variable {p : Packet}

-----------------------------------------------------------------------------------------
-- What one byte does to the place in the frame
-----------------------------------------------------------------------------------------

theorem receiver_store (p : Packet) (byte : UInt8)
    : (p.store byte).2.receiver = p.receiver ∨ (p.store byte).2.receiver = .between := by
  unfold store
  split
  · exact .inl rfl
  · exact .inr rfl

/-- Only an escape mark inside a frame leads behind an escape mark. -/
theorem receiver_receive_eq_escaped_iff (p : Packet) (byte : UInt8)
    : (p.receive byte).2.receiver = .escaped ↔ p.receiver = .inside ∧ byte = escapeMark := by
  cases place : p.receiver with
  | between => simp [receive, place]
  | inside =>
      by_cases isDelimiter : byte = delimiter
      · have ordinary : delimiter ≠ escapeMark := by decide
        rw [isDelimiter, receive_delimiter_of_inside place]
        rcases p.close_eq_or with ⟨_, same⟩ | between
        · simp [same, place, ordinary]
        · simp [between, ordinary]
      · by_cases isMark : byte = escapeMark
        · simp [isMark, receive_escapeMark_of_inside place]
        · rw [receive_ordinary_of_inside place ⟨isDelimiter, isMark⟩]
          rcases p.receiver_store byte with same | between
          · simp [same, place, isMark]
          · simp [between, isMark]
  | escaped =>
      rw [receive_of_escaped place]
      rcases receiver_store { p with receiver := .inside } (Frame.unescape byte) with same | between
      · simp [same]
      · simp [between]

/-- A delimiter that is not escaped leads between frames. -/
theorem isBetweenFrames_receive_delimiter (literal : p.receiver ≠ .escaped)
    : (p.receive delimiter).2.IsBetweenFrames := by
  cases place : p.receiver with
  | between =>
      obtain ⟨q, opened, collects⟩ := receive_of_between place delimiter
      rw [opened]
      exact collects.isBetweenFrames
  | inside =>
      rw [receive_delimiter_of_inside place]
      rcases p.close_eq_or with ⟨empty, same⟩ | between
      · rw [same]
        exact .inr ⟨place, empty⟩
      · exact .inl between
  | escaped => exact absurd place literal

theorem capacity_fed (p : Packet) (bytes : List UInt8)
    : (p.fed bytes).capacity = p.capacity := by
  induction bytes generalizing p with
  | nil => rfl
  | cons byte rest ih => rw [fed_cons, ih, capacity_receive]

-----------------------------------------------------------------------------------------
-- What a whole frame does to it
-----------------------------------------------------------------------------------------

/-- No stuffed byte leads behind an escape mark, wherever the receiver was: the last byte it is sent
as is no mark. -/
theorem receiver_fed_stuffByte_ne_escaped (p : Packet) (byte : UInt8)
    : (p.fed (stuffByte byte)).receiver ≠ .escaped := by
  unfold stuffByte
  cases reserved : escape? byte with
  | none =>
      obtain ⟨_, ordinary⟩ := Frame.escape?_eq_none_iff.mp reserved
      rw [fed_cons, fed_nil, ne_eq, receiver_receive_eq_escaped_iff]
      exact fun behind => ordinary behind.2
  | some form =>
      obtain ⟨_, ordinary⟩ := Frame.escape?_eq_none_iff.mp (Frame.escape?_of_escape? reserved)
      rw [fed_cons, fed_cons, fed_nil, ne_eq, receiver_receive_eq_escaped_iff]
      exact fun behind => ordinary behind.2

/-- Behind any frame a receiver is between frames, wherever it was before: the checksum is sent
right before the closing delimiter, which is therefore not escaped. -/
theorem isBetweenFrames_fed_wire (p : Packet) (body : List UInt8)
    : (p.fed (Frame.wire body)).IsBetweenFrames := by
  -- What comes last are the bytes of the checksum and the delimiter behind them.
  rw [Frame.wire, fed_append, Frame.stuff_append, Frame.stuff_cons, Frame.stuff_nil, List.append_nil,
    ← List.cons_append, fed_append, fed_cons, fed_nil]
  exact isBetweenFrames_receive_delimiter (receiver_fed_stuffByte_ne_escaped _ _)

/-- Self-synchronisation: after any noise, and a frame that may be lost to it, a receiver is between
frames, and takes the next frame for whose message it has room. -/
theorem resynchronizes (p : Packet) (noise : List UInt8) {first second : Shipment}
    {firstFrame secondFrame : List UInt8} (firstSent : first.frame? = some firstFrame)
    (secondSent : second.frame? = some secondFrame)
    (fits : second.payload.length + 2 ≤ p.capacity)
    : let between := p.fed (noise ++ firstFrame)
      between.IsBetweenFrames
      ∧ (between.trace secondFrame).map Prod.fst
        = List.replicate (secondFrame.length - 1) (.ok .unfinished) ++ [.ok .complete]
      ∧ (between.fed secondFrame).command? = some second.command
      ∧ (between.fed secondFrame).payload = second.payload := by
  obtain rfl := Shipment.eq_wire_of_frame? firstSent
  obtain rfl := Shipment.eq_wire_of_frame? secondSent
  have ready : (p.fed (noise ++ Frame.wire first.body)).IsBetweenFrames := by
    rw [fed_append]
    exact isBetweenFrames_fed_wire _ _
  have nonempty : second.body ≠ [] := by simp [Shipment.body]
  have fits' : second.body.length + 1
      ≤ (p.fed (noise ++ Frame.wire first.body)).capacity := by
    rw [Shipment.length_body, capacity_fed]
    exact fits
  obtain ⟨q, ended, between, holds, verified⟩ := ready.ends_wire nonempty fits'
  obtain ⟨quiet, trace_eq, unfinished⟩ := ended.trace_eq
  obtain ⟨command, payload, _⟩ := holds.message verified
  refine ⟨ready, ?_, ?_, ?_⟩
  · rw [trace_eq, List.map_append, unfinished]
    rfl
  · rw [ended.fed_eq, command]
  · rw [ended.fed_eq, payload]

/-- Noise that ends behind an escape mark swallows the opening delimiter of a frame that would not
fit, and the next one is taken by a packet that it fills. -/
theorem resynchronizes_behind_escape_mark
    : let first : Shipment := ⟨0x05, [0x01, 0x02, 0xC0], [0, 0, 0, 0], List.replicate 8 0⟩
      let second : Shipment := ⟨0xC0, [0xDB], [0, 0], List.replicate 7 0⟩
      let firstFrame := [0xC0, 0x05, 0x01, 0x02, 0xDB, 0xDC, 0x41, 0xC0]
      let secondFrame := [0xC0, 0xDB, 0xDC, 0xDB, 0xDD, 0xE2, 0xC0]
      let between := (ofStorage [0xAA, 0xAA, 0xAA]).fed ([0x55, 0xDB] ++ firstFrame)
      first.frame? = some firstFrame
      ∧ second.frame? = some secondFrame
      ∧ second.payload.length + 2 ≤ (ofStorage [0xAA, 0xAA, 0xAA]).capacity
      ∧ between.IsBetweenFrames
      ∧ (between.trace secondFrame).map Prod.fst
        = List.replicate 6 (.ok .unfinished) ++ [.ok .complete]
      ∧ (between.fed secondFrame).command? = some 0xC0
      ∧ (between.fed secondFrame).payload = [0xDB] := by
  intro first second firstFrame secondFrame between
  have firstSent : first.frame? = some firstFrame :=
    (Shipment.HasRoom.frame? ⟨by decide, by decide +kernel⟩).trans (by decide +kernel)
  have secondSent : second.frame? = some secondFrame :=
    (Shipment.HasRoom.frame? ⟨by decide, by decide +kernel⟩).trans (by decide +kernel)
  have fits : second.payload.length + 2 ≤ (ofStorage [0xAA, 0xAA, 0xAA]).capacity := by decide
  exact ⟨firstSent, secondSent, fits,
    resynchronizes (ofStorage [0xAA, 0xAA, 0xAA]) [0x55, 0xDB] firstSent secondSent fits⟩

end PacketBus.Packet
