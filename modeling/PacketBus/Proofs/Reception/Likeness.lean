import PacketBus.Proofs.Packet.Representation
import PacketBus.Proofs.Reception.Restart

/-! Packets of which their owners see the same.
What lies in the storage behind the bytes held is never looked at, and what is held between two
frames is dropped by the byte that opens the next one, whatever was received before.
-/

namespace PacketBus.Packet

open PacketBus.Frame (delimiter escapeMark)

/-- Two packets of one room hold the same and are at the same place of a frame that is received. -/
structure Alike (p q : Packet) : Prop where
  room : p.capacity = q.capacity
  size : p.size = q.size
  bytes : p.bytes = q.bytes
  verified : p.verified = q.verified
  receiver : p.receiver = q.receiver

variable {p q : Packet}

-----------------------------------------------------------------------------------------
-- What is read of a storage lies in the bytes held
-----------------------------------------------------------------------------------------

theorem storage_take_of_le (p : Packet) {count : Nat} (held : count ≤ p.size)
    : p.storage.take count = p.bytes.take count := by
  rw [bytes, List.take_take, Nat.min_eq_left held]

theorem storage_getD_of_lt (p : Packet) {place : Nat} (held : place < p.size)
    : p.storage.getD place 0 = p.bytes.getD place 0 := by
  rw [bytes, List.getD_eq_getElem?_getD, List.getD_eq_getElem?_getD, List.getElem?_take_of_lt held]

theorem body_eq_take (p : Packet)
    : p.body = p.bytes.take p.bodySize :=
  p.storage_take_of_le p.bodySize_le

theorem Alike.bodySize (h : p.Alike q)
    : p.bodySize = q.bodySize := by
  rw [Packet.bodySize, Packet.bodySize, h.verified, h.size]

theorem Alike.body (h : p.Alike q)
    : p.body = q.body := by
  rw [body_eq_take, body_eq_take, h.bytes, h.bodySize]

/-- An owner sees the same of both. -/
theorem Alike.view (h : p.Alike q)
    : p.view = q.view := by
  simp only [Packet.view, command?, payload, checksum?, isEmpty, isMidFrame, frameSize, h.bytes,
    h.body, h.size, h.verified, h.receiver]

/-- Where both are in a received frame does not matter for what they hold. -/
theorem Alike.withReceiver (h : p.Alike q) (place : Phase)
    : Alike { p with receiver := place } { q with receiver := place } :=
  ⟨h.room, h.size, h.bytes, h.verified, rfl⟩

-----------------------------------------------------------------------------------------
-- One byte
-----------------------------------------------------------------------------------------

theorem bytes_store_of_lt (fits : p.size < p.capacity) (byte : UInt8)
    : (p.storage.set p.size byte).take (p.size + 1) = p.bytes ++ [byte] := by
  have longer : p.size < (p.storage.set p.size byte).length := by
    rw [List.length_set]
    exact fits
  rw [List.take_succ_eq_append_getElem longer, List.getElem_set_self,
    List.take_set_of_le (Nat.le_refl _), bytes]

theorem Alike.store (h : p.Alike q) (byte : UInt8)
    : (p.store byte).1 = (q.store byte).1 ∧ (p.store byte).2.Alike (q.store byte).2 := by
  by_cases fits : p.size < p.capacity
  · have fits' : q.size < q.capacity := by rwa [← h.size, ← h.room]
    rw [Packet.store, Packet.store, if_pos fits, if_pos fits']
    refine ⟨rfl, ?_, congrArg (· + 1) h.size, ?_, h.verified, h.receiver⟩
    · simpa only [capacity, List.length_set] using h.room
    · calc
        (p.storage.set p.size byte).take (p.size + 1) = p.bytes ++ [byte] :=
          bytes_store_of_lt fits byte
        _ = q.bytes ++ [byte] := by rw [h.bytes]
        _ = (q.storage.set q.size byte).take (q.size + 1) := (bytes_store_of_lt fits' byte).symm
  · have full' : ¬q.size < q.capacity := by rwa [← h.size, ← h.room]
    rw [Packet.store, Packet.store, if_neg fits, if_neg full']
    exact ⟨rfl, h.withReceiver .between⟩

/-- What is compared when a frame closes lies in the bytes held. -/
theorem Alike.verify (h : p.Alike q) (some : p.size ≠ 0)
    : p.verify.1 = q.verify.1 ∧ p.verify.2.Alike q.verify.2 := by
  have size := h.size
  have received : p.storage.getD (p.size - 1) 0 = q.storage.getD (q.size - 1) 0 := by
    rw [p.storage_getD_of_lt (by omega), q.storage_getD_of_lt (by omega), h.bytes, size]
  have covered : p.storage.take (p.size - 1) = q.storage.take (q.size - 1) := by
    rw [p.storage_take_of_le (by omega), q.storage_take_of_le (by omega), h.bytes, size]
  simp only [Packet.verify, received, covered]
  split
  · exact ⟨rfl, h.room, h.size, h.bytes, rfl, rfl⟩
  · exact ⟨rfl, h.withReceiver .between⟩

theorem Alike.close (h : p.Alike q)
    : p.close.1 = q.close.1 ∧ p.close.2.Alike q.close.2 := by
  by_cases empty : p.size = 0
  · rw [Packet.close, Packet.close, if_pos empty, if_pos (h.size ▸ empty)]
    exact ⟨rfl, h⟩
  · by_cases alone : p.size = 1
    · rw [Packet.close, Packet.close, if_neg empty, if_pos alone, if_neg (h.size ▸ empty),
        if_pos (h.size ▸ alone)]
      exact ⟨rfl, h.withReceiver .between⟩
    · rw [Packet.close, Packet.close, if_neg empty, if_neg alone, if_neg (h.size ▸ empty),
        if_neg (h.size ▸ alone)]
      exact h.verify empty

/-- The byte that opens a frame makes any two packets alike, whatever they were left with. -/
theorem alike_of_between (room : p.capacity = q.capacity) (place : p.receiver = .between)
    (place' : q.receiver = .between) (byte : UInt8)
    : (p.receive byte).1 = (q.receive byte).1 ∧ (p.receive byte).2.Alike (q.receive byte).2 := by
  simp only [Packet.receive, place, place']
  exact ⟨trivial, room, rfl, rfl, rfl, rfl⟩

/-- Packets that are alike stay so with each byte, which brings the same to both; by the places in
a frame. -/
theorem Alike.receive (h : p.Alike q) (byte : UInt8)
    : (p.receive byte).1 = (q.receive byte).1 ∧ (p.receive byte).2.Alike (q.receive byte).2 := by
  cases place : p.receiver with
  | between => exact alike_of_between h.room place (h.receiver.symm.trans place) byte
  | inside =>
      have place' := h.receiver.symm.trans place
      by_cases isDelimiter : byte = delimiter
      · rw [isDelimiter, receive_delimiter_of_inside place, receive_delimiter_of_inside place']
        exact h.close
      · by_cases isMark : byte = escapeMark
        · rw [isMark, receive_escapeMark_of_inside place, receive_escapeMark_of_inside place']
          exact ⟨rfl, h.withReceiver .escaped⟩
        · rw [receive_ordinary_of_inside place ⟨isDelimiter, isMark⟩,
            receive_ordinary_of_inside place' ⟨isDelimiter, isMark⟩]
          exact h.store byte
  | escaped =>
      rw [receive_of_escaped place, receive_of_escaped (h.receiver.symm.trans place)]
      exact (h.withReceiver .inside).store _

-----------------------------------------------------------------------------------------
-- The end of a frame
-----------------------------------------------------------------------------------------

theorem isMidFrame_store (inside : p.isMidFrame = true) (byte : UInt8)
    : (p.store byte).2.isMidFrame = true ↔ (p.store byte).1 = .ok .unfinished := by
  unfold store
  split
  · exact iff_of_true inside rfl
  · exact iff_of_false nofun nofun

theorem isMidFrame_close (inside : p.isMidFrame = true)
    : p.close.2.isMidFrame = true ↔ p.close.1 = .ok .unfinished := by
  unfold close
  split
  · exact iff_of_true inside rfl
  · split
    · simp [isMidFrame]
    · simp only [verify]
      split
      · simp [isMidFrame]
      · simp [isMidFrame]

/-- A packet is part way through a frame exactly behind a byte that did not end one, be it in the
right way or in any other; by the places in a frame. -/
theorem isMidFrame_receive (p : Packet) (byte : UInt8)
    : (p.receive byte).2.isMidFrame = true ↔ (p.receive byte).1 = .ok .unfinished := by
  cases place : p.receiver with
  | between =>
      obtain ⟨q, opened, collects⟩ := receive_of_between place byte
      rw [opened]
      exact iff_of_true (by rw [isMidFrame, collects.inside]; rfl) rfl
  | inside =>
      have inside : p.isMidFrame = true := by rw [isMidFrame, place]; rfl
      by_cases isDelimiter : byte = delimiter
      · rw [isDelimiter, receive_delimiter_of_inside place]
        exact isMidFrame_close inside
      · by_cases isMark : byte = escapeMark
        · rw [isMark, receive_escapeMark_of_inside place]
          exact iff_of_true rfl rfl
        · rw [receive_ordinary_of_inside place ⟨isDelimiter, isMark⟩]
          exact isMidFrame_store inside byte
  | escaped =>
      rw [receive_of_escaped place]
      exact isMidFrame_store rfl _

/-- By induction on the run. -/
theorem isMidFrame_trace (p : Packet) (bytes : List UInt8)
    : ∀ step ∈ p.trace bytes, step.2.isMidFrame = true ↔ step.1 = .ok .unfinished := by
  induction bytes generalizing p with
  | nil => nofun
  | cons byte rest ih =>
      intro step member
      rcases List.mem_cons.mp member with rfl | later
      · exact isMidFrame_receive p byte
      · exact ih _ step later

-----------------------------------------------------------------------------------------
-- A stream of bytes
-----------------------------------------------------------------------------------------

/-- What each byte of a run brings, with what an owner sees of the packet behind that byte. -/
def shown (p : Packet) (bytes : List UInt8) : List (Except Failure FrameStatus × View) :=
  (p.trace bytes).map fun step => (step.1, step.2.view)

theorem shown_cons (p : Packet) (byte : UInt8) (rest : List UInt8)
    : p.shown (byte :: rest)
      = ((p.receive byte).1, (p.receive byte).2.view) :: (p.receive byte).2.shown rest :=
  rfl

/-- By induction on the run. -/
theorem Alike.shown (h : p.Alike q) (bytes : List UInt8)
    : p.shown bytes = q.shown bytes := by
  induction bytes generalizing p q with
  | nil => rfl
  | cons byte rest ih =>
      obtain ⟨same, alike⟩ := h.receive byte
      rw [shown_cons, shown_cons, same, alike.view, ih alike]

/-- Two packets of one room that are between frames show the same behind every byte of every
stream, however many frames it completes or loses, and whatever bytes, checksum and unfinished
sending each was left with. Every byte that ends a frame leaves them between frames again. -/
theorem streams_are_shown_alike (room : p.capacity = q.capacity) (ready : p.isMidFrame = false)
    (ready' : q.isMidFrame = false) (stream : List UInt8)
    : p.shown stream = q.shown stream
      ∧ ∀ step ∈ p.trace stream, step.2.isMidFrame = true ↔ step.1 = .ok .unfinished := by
  refine ⟨?_, p.isMidFrame_trace stream⟩
  cases stream with
  | nil => rfl
  | cons opening rest =>
      have between : ∀ r : Packet, r.isMidFrame = false → r.receiver = .between := by
        intro r idle
        simpa [isMidFrame] using idle
      obtain ⟨same, alike⟩ :=
        alike_of_between room (between p ready) (between q ready') opening
      rw [shown_cons, shown_cons, same, alike.view, alike.shown rest]

/-- A packet that was given up behind an escape mark, with a verified message of old and half a
frame sent, beside a new one: both lose a frame by its checksum, a frame that is too short and one
that does not fit, and both complete the last one. -/
theorem streams_are_shown_alike_after_noise
    : let used : Packet :=
        { storage := [0x01, 0x07, 0xC0], size := 2, verified := true, receiver := .escaped
          emitter := ⟨.inside, 1, 0x07⟩ }
      let noise : List UInt8 := [0xC0, 0x01, 0x08, 0xC0, 0x55, 0xDB, 0xDC, 0xC0, 0xC0, 1, 2, 3, 4]
      let stream := noise ++ [0x00, 0x01, 0x07, 0xC0]
      used.abandonFrame.capacity = (fresh 3).capacity ∧ used.abandonFrame.isMidFrame = false
      ∧ (fresh 3).isMidFrame = false
      ∧ used.abandonFrame.shown stream = (fresh 3).shown stream
      ∧ ((fresh 3).trace stream).map Prod.fst
          = [.ok .unfinished, .ok .unfinished, .ok .unfinished, .error (.checksumMismatch 8 7),
              .ok .unfinished, .ok .unfinished, .ok .unfinished, .error .tooShort,
              .ok .unfinished, .ok .unfinished, .ok .unfinished, .ok .unfinished,
              .error .overflow, .ok .unfinished, .ok .unfinished, .ok .unfinished,
              .ok .complete] := by
  intro used noise stream
  obtain ⟨same, _⟩ :=
    streams_are_shown_alike (p := used.abandonFrame) (q := fresh 3) rfl rfl rfl stream
  exact ⟨rfl, rfl, rfl, same, rfl⟩

end PacketBus.Packet
