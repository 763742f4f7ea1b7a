import PacketBus.Proofs.Frame.Items
import PacketBus.Proofs.Reception.Running

/-! What a packet holds of the frame that it is inside.
Each item of the content is stored as one byte as long as there is room, the first item too many
gives the frame up, and the delimiter that closes the frame is judged by the bytes stored alone.
-/

namespace PacketBus.Packet

open PacketBus.Frame (delimiter escapeMark Item)

/-- The packet has room for `capacity` bytes and holds exactly `content`. -/
structure Holds (p : Packet) (capacity : Nat) (content : List UInt8) : Prop where
  room : p.capacity = capacity
  size : p.size = content.length
  bytes : p.bytes = content

/-- The packet is inside a frame of which it has stored `content`. -/
structure Collects (p : Packet) (capacity : Nat) (content : List UInt8) : Prop
    extends p.Holds capacity content where
  inside : p.receiver = .inside

/-- Nothing of a frame is stored: the packet is between frames, or the delimiters read so far may
all be opening ones. -/
def IsBetweenFrames (p : Packet) : Prop :=
  p.receiver = .between ∨ p.receiver = .inside ∧ p.size = 0

/-- How a frame closes that held `content`: its last byte has to be the checksum of the others. -/
def verdict (content : List UInt8) : Except Failure FrameStatus :=
  let received := content.getLastD 0
  let expected := Checksum.ofBytes content.dropLast
  if content.length < 2 then .error .tooShort
  else if received = expected then .ok .complete
  else .error (.checksumMismatch received expected)

variable {p : Packet} {n : Nat} {content : List UInt8}

/-- Where the packet is in its frame does not matter for what it holds. -/
theorem Holds.withReceiver (h : p.Holds n content) (place : Phase)
    : Holds { p with receiver := place } n content :=
  ⟨h.room, h.size, h.bytes⟩

-----------------------------------------------------------------------------------------
-- One byte at each place
-----------------------------------------------------------------------------------------

/-- Any byte opens a frame, and is dropped. -/
theorem receive_of_between (between : p.receiver = .between) (byte : UInt8)
    : ∃ q, p.receive byte = (.ok .unfinished, q) ∧ q.Collects p.capacity [] := by
  refine ⟨{ p with size := 0, verified := false, receiver := .inside }, ?_, ⟨rfl, rfl, rfl⟩, rfl⟩
  simp only [receive, between]

theorem receive_delimiter_of_inside (inside : p.receiver = .inside)
    : p.receive delimiter = p.close := by
  simp [receive, inside]

/-- An escape mark is not stored, and waits for the byte behind it. -/
theorem receive_escapeMark_of_inside (inside : p.receiver = .inside)
    : p.receive escapeMark = (.ok .unfinished, { p with receiver := .escaped }) := by
  simp only [receive, inside]
  rfl

theorem receive_ordinary_of_inside (inside : p.receiver = .inside) {byte : UInt8}
    (ordinary : byte ≠ delimiter ∧ byte ≠ escapeMark)
    : p.receive byte = p.store byte := by
  simp only [receive, inside, if_neg ordinary.1, if_neg ordinary.2]

theorem receive_of_escaped (escaped : p.receiver = .escaped) (byte : UInt8)
    : p.receive byte
      = ({ p with receiver := .inside } : Packet).store (Frame.unescape byte) := by
  simp only [receive, escaped]

/-- A delimiter changes nothing before any content, and ends a frame with content. -/
theorem close_eq_or (p : Packet)
    : p.size = 0 ∧ p.close.2 = p ∨ p.close.2.receiver = .between := by
  unfold close
  split
  · next empty => exact .inl ⟨empty, rfl⟩
  · split
    · exact .inr rfl
    · simp only [verify]
      split
      · exact .inr rfl
      · exact .inr rfl

-----------------------------------------------------------------------------------------
-- What a byte can bring
-----------------------------------------------------------------------------------------

/-- A byte goes on with a frame, loses it, or completes it; a frame that is complete holds a command
and its checksum. -/
inductive Brings : Except Failure FrameStatus → Packet → Prop
  | unfinished {q} : Brings (.ok .unfinished) q
  | lost {e q} (harmless : e.losesFrameOnly = true) : Brings (.error e) q
  | complete {q} (between : q.receiver = .between) (verified : q.verified = true)
    (long : 2 ≤ q.size)
    : Brings (.ok .complete) q

theorem brings_store (p : Packet) (byte : UInt8)
    : Brings (p.store byte).1 (p.store byte).2 := by
  unfold store
  split
  · exact .unfinished
  · exact .lost rfl

theorem brings_close (p : Packet)
    : Brings p.close.1 p.close.2 := by
  unfold close
  split
  · exact .unfinished
  · split
    · exact .lost rfl
    · next empty alone =>
        simp only [verify]
        split
        · exact .complete rfl rfl (show 2 ≤ p.size by omega)
        · exact .lost rfl

/-- By the places in a frame. -/
theorem brings_receive (p : Packet) (byte : UInt8)
    : Brings (p.receive byte).1 (p.receive byte).2 := by
  unfold receive
  split
  · exact .unfinished
  · split
    · exact p.brings_close
    · split
      · exact .unfinished
      · exact p.brings_store byte
  · exact brings_store _ _

-----------------------------------------------------------------------------------------
-- Bytes before the content
-----------------------------------------------------------------------------------------

theorem Collects.receive_delimiter_nil (h : p.Collects n [])
    : p.receive delimiter = (.ok .unfinished, p) := by
  have empty : p.size = 0 := h.size
  rw [receive_delimiter_of_inside h.inside, close, if_pos empty]

/-- Delimiters before any content change nothing, by induction on their number. -/
theorem Collects.absorbs_delimiters (h : p.Collects n []) {gap : List UInt8}
    (delimiters : ∀ byte ∈ gap, byte = delimiter)
    : Absorbs p gap p := by
  induction gap with
  | nil => exact .nil
  | cons byte rest ih =>
      obtain rfl := delimiters byte (List.mem_cons_self ..)
      refine .cons h.receive_delimiter_nil rfl (ih ?_)
      intro byte member
      exact delimiters byte (List.mem_cons_of_mem _ member)

/-- A delimiter opens a frame wherever none has content yet. -/
theorem IsBetweenFrames.receive_delimiter (h : p.IsBetweenFrames)
    : ∃ q, p.receive delimiter = (.ok .unfinished, q) ∧ q.Collects p.capacity [] := by
  rcases h with between | ⟨inside, empty⟩
  · exact receive_of_between between delimiter
  · have collects : p.Collects p.capacity [] :=
      ⟨⟨rfl, empty, by rw [bytes, empty, List.take_zero]⟩, inside⟩
    exact ⟨p, collects.receive_delimiter_nil, collects⟩

-----------------------------------------------------------------------------------------
-- The items of the content
-----------------------------------------------------------------------------------------

theorem Holds.store_of_lt (h : p.Holds n content) (fits : content.length < n) (byte : UInt8)
    : ∃ q, p.store byte = (.ok .unfinished, q) ∧ q.Holds n (content ++ [byte])
        ∧ q.receiver = p.receiver := by
  have fits' : p.size < p.storage.length := by
    rw [h.size, show p.storage.length = n from h.room]
    exact fits
  refine ⟨{ p with storage := p.storage.set p.size byte, size := p.size + 1 }, ?_, ⟨?_, ?_, ?_⟩, rfl⟩
  · rw [store, capacity, if_pos fits']
  · rw [← h.room, capacity, capacity, List.length_set]
  · rw [List.length_append, ← h.size, List.length_singleton]
  · have front : (p.storage.take p.size).length = p.size := by
      rw [List.length_take]
      omega
    have bytes := h.bytes
    rw [Packet.bytes] at bytes
    simp only [Packet.bytes]
    rw [List.set_eq_take_append_cons_drop, if_pos fits', ← bytes, List.take_append, front,
      List.take_of_length_le (by omega), Nat.add_sub_cancel_left]
    rfl

/-- A byte that does not fit gives the frame up, and the bytes held stay. -/
theorem Holds.store_of_ge (h : p.Holds n content) (full : n ≤ content.length) (byte : UInt8)
    : p.store byte = (.error .overflow, { p with receiver := .between }) := by
  have full' : ¬p.size < p.capacity := by
    rw [h.size, h.room]
    omega
  rw [store, if_neg full']

theorem Collects.absorbs_item (h : p.Collects n content) (fits : content.length < n) (item : Item)
    : ∃ q, Absorbs p item.wire q ∧ q.Collects n (content ++ [item.value]) := by
  cases item with
  | plain byte ordinary =>
      obtain ⟨q, stored, holds, phase⟩ := h.store_of_lt fits byte
      have taken := (receive_ordinary_of_inside h.inside ordinary).trans stored
      exact ⟨q, .single taken rfl, holds, phase.trans h.inside⟩
  | escaped byte =>
      have marked := receive_escapeMark_of_inside h.inside
      have inside := h.withReceiver .inside
      obtain ⟨q, stored, holds, phase⟩ := inside.store_of_lt fits (Frame.unescape byte)
      exact ⟨q, .cons marked rfl (.single stored rfl), holds, phase⟩

/-- The item for which there is no room gives the frame up with its last byte. -/
theorem Collects.ends_item (h : p.Collects n content) (full : n ≤ content.length) (item : Item)
    : ∃ q, Ends p item.wire (.error .overflow) q ∧ q.receiver = .between ∧ q.Holds n content := by
  refine ⟨{ p with receiver := .between }, ?_, rfl, h.withReceiver .between⟩
  cases item with
  | plain byte ordinary =>
      have refused := (receive_ordinary_of_inside h.inside ordinary).trans (h.store_of_ge full byte)
      exact .intro [] byte p .nil refused
  | escaped byte =>
      have marked := receive_escapeMark_of_inside h.inside
      have refused := (h.withReceiver .inside).store_of_ge full (Frame.unescape byte)
      exact .intro [escapeMark] byte _ (.single marked rfl) refused

/-- Items are stored one after the other while there is room, by induction on the items. -/
theorem Collects.absorbs_items (h : p.Collects n content) (items : List Item)
    (fits : content.length + items.length ≤ n)
    : ∃ q, Absorbs p (Item.wires items) q ∧ q.Collects n (content ++ items.map Item.value) := by
  induction items generalizing p content with
  | nil => exact ⟨p, .nil, by simpa using h⟩
  | cons item rest ih =>
      simp only [List.length_cons] at fits
      obtain ⟨q, absorbed, collects⟩ := h.absorbs_item (by omega) item
      obtain ⟨r, absorbedRest, collectsRest⟩ := ih collects (by simp; omega)
      refine ⟨r, ?_, by simpa using collectsRest⟩
      rw [Item.wires_cons]
      exact absorbed.trans absorbedRest

/-- The first item too many gives up a frame whose content would not fit. -/
theorem Collects.ends_items (h : p.Collects n content) (items : List Item) (item : Item)
    (full : content.length + items.length = n)
    : ∃ q, Ends p (Item.wires items ++ item.wire) (.error .overflow) q ∧ q.receiver = .between
        ∧ q.Holds n (content ++ items.map Item.value) := by
  obtain ⟨q, absorbed, collects⟩ := h.absorbs_items items (Nat.le_of_eq full)
  obtain ⟨r, ended, between, holds⟩ := collects.ends_item (by simp [full]) item
  exact ⟨r, absorbed.ends ended, between, holds⟩

-----------------------------------------------------------------------------------------
-- The delimiter that closes the frame
-----------------------------------------------------------------------------------------

/-- The verdict on content with a last byte of its own compares that byte with the others. -/
theorem verdict_append {front : List UInt8} (nonempty : front ≠ []) (last : UInt8)
    : verdict (front ++ [last])
      = if last = Checksum.ofBytes front then .ok .complete
        else .error (.checksumMismatch last (Checksum.ofBytes front)) := by
  have long : ¬(front ++ [last]).length < 2 := by
    have := List.length_pos_iff.mpr nonempty
    simp only [List.length_append, List.length_singleton]
    omega
  simp only [verdict, if_neg long, List.getLastD_concat, List.dropLast_concat]

theorem verdict_ne_unfinished (content : List UInt8)
    : verdict content ≠ .ok .unfinished := by
  simp only [verdict]
  split
  · simp
  · split
    · simp
    · simp

/-- What is compared when a frame closes: the last byte held and the bytes before it. -/
theorem Holds.closing {front : List UInt8} {last : UInt8} (h : p.Holds n (front ++ [last]))
    : p.storage.getD (p.size - 1) 0 = last ∧ p.storage.take (p.size - 1) = front := by
  have size : p.size = front.length + 1 := by simpa using h.size
  have bytes : p.storage.take (front.length + 1) = front ++ [last] := by
    rw [← size]
    exact h.bytes
  rw [size, Nat.add_sub_cancel]
  constructor
  · have found := congrArg (·[front.length]?) bytes
    simp only [List.getElem?_concat_length, List.getElem?_take_of_lt (Nat.lt_succ_self _)] at found
    rw [List.getD_eq_getElem?_getD, found, Option.getD_some]
  · have front_eq := congrArg (List.take front.length) bytes
    simpa [List.take_take] using front_eq

/-- A delimiter behind content closes the frame with the verdict on that content, and a frame that
is found right is marked so. -/
theorem Collects.receive_delimiter (h : p.Collects n content) (nonempty : content ≠ [])
    : ∃ q, p.receive delimiter = (verdict content, q) ∧ q.receiver = .between ∧ q.Holds n content
        ∧ (verdict content = .ok .complete → q.verified = true) := by
  rw [receive_delimiter_of_inside h.inside]
  obtain ⟨front, last, rfl⟩ : ∃ front last, content = front ++ [last] :=
    ⟨_, _, (List.dropLast_concat_getLast nonempty).symm⟩
  have size : p.size = front.length + 1 := by simpa using h.size
  obtain ⟨received, covered⟩ := h.closing
  by_cases alone : front = []
  · -- One byte alone is not compared with anything.
    subst alone
    refine ⟨{ p with receiver := .between }, ?_, rfl, h.withReceiver .between, ?_⟩
    · simp [close, size, verdict]
    · simp [verdict]
  · have long : ¬p.size = 1 := by
      rw [size]
      simpa using alone
    have verified : p.close = p.verify := by
      rw [close, if_neg (by omega), if_neg long]
    rw [verified, verify, verdict_append alone, received, covered]
    split
    · exact ⟨_, rfl, rfl, ⟨h.room, h.size, h.bytes⟩, fun _ => rfl⟩
    · exact ⟨_, rfl, rfl, ⟨h.room, h.size, h.bytes⟩, nofun⟩

-----------------------------------------------------------------------------------------
-- Room
-----------------------------------------------------------------------------------------

theorem capacity_store (p : Packet) (byte : UInt8)
    : (p.store byte).2.capacity = p.capacity := by
  unfold store
  split
  · exact List.length_set
  · rfl

theorem capacity_close (p : Packet)
    : p.close.2.capacity = p.capacity := by
  unfold close
  split
  · rfl
  · split
    · rfl
    · simp only [verify]
      split
      · rfl
      · rfl

/-- The room of a packet is that of its storage, which a byte leaves as long as it is. -/
theorem capacity_receive (p : Packet) (byte : UInt8)
    : (p.receive byte).2.capacity = p.capacity := by
  cases place : p.receiver with
  | between =>
      obtain ⟨q, opened, collects⟩ := receive_of_between place byte
      rw [opened]
      exact collects.room
  | inside =>
      by_cases isDelimiter : byte = delimiter
      · rw [isDelimiter, receive_delimiter_of_inside place]
        exact capacity_close p
      · by_cases isMark : byte = escapeMark
        · rw [isMark, receive_escapeMark_of_inside place]
          rfl
        · rw [receive_ordinary_of_inside place ⟨isDelimiter, isMark⟩]
          exact capacity_store p byte
  | escaped =>
      rw [receive_of_escaped place]
      exact capacity_store _ _

end PacketBus.Packet
