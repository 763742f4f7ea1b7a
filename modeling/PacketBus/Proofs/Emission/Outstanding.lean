import PacketBus.Packet.Build
import PacketBus.Packet.Emission

/-! What an emitter still has to send.
Each byte sent is the first of those outstanding, so the bytes of a whole frame are its wire form,
wherever the sender stops in between.
-/

namespace PacketBus

open PacketBus.Frame (delimiter escapeMark escape? stuff stuffByte wire)

/-- The bytes that an emitter owes of the frame of `body`: all of it before it is opened, the rest
of the content and the closing delimiter inside it, and behind an escape mark first the byte that
belongs to the mark. -/
inductive Emitter.Owes (body : List UInt8) : Emitter → List UInt8 → Prop
  | between {next checksum} : Owes body ⟨.between, next, checksum⟩ (wire body)
  | inside {front back} (split : front ++ back = body ++ [Checksum.ofBytes body])
    : Owes body ⟨.inside, front.length, Checksum.ofBytes body⟩ (stuff back ++ [delimiter])
  | escaped {front byte form back}
    (split : front ++ byte :: back = body ++ [Checksum.ofBytes body])
    (reserved : escape? byte = some form)
    : Owes body ⟨.escaped, front.length, Checksum.ofBytes body⟩
        (form :: stuff back ++ [delimiter])

/-- What is owed is the whole frame before it is opened, and inside it an end of what comes behind
the opening delimiter; by the ways in which bytes are owed. -/
theorem Emitter.Owes.place {emitter : Emitter} {body owed : List UInt8}
    (h : emitter.Owes body owed)
    : emitter.phase = .between ∧ owed = wire body
      ∨ emitter.phase ≠ .between ∧ owed <:+ (wire body).tail := by
  cases h with
  | between => exact .inl ⟨rfl, rfl⟩
  | @inside front back split =>
      refine .inr ⟨by simp, stuff front, ?_⟩
      simp [wire, ← split]
  | @escaped front byte form back split reserved =>
      refine .inr ⟨by simp, stuff front ++ [escapeMark], ?_⟩
      simp [wire, ← split, stuffByte, reserved]

theorem Emitter.Owes.suffix {emitter : Emitter} {body owed : List UInt8}
    (h : emitter.Owes body owed)
    : owed <:+ wire body := by
  obtain ⟨-, rfl⟩ | ⟨-, behind⟩ := h.place
  · exact List.suffix_refl _
  · exact behind.trans (List.tail_suffix _)

theorem Emitter.Owes.ne_nil {emitter : Emitter} {body owed : List UInt8}
    (h : emitter.Owes body owed)
    : owed ≠ [] := by
  cases h <;> simp [wire]

/-- The emitter behind the last byte of the frame of `body`; it keeps the checksum it has sent. -/
def Emitter.closed (body : List UInt8) : Emitter :=
  ⟨.between, body.length + 1, Checksum.ofBytes body⟩

namespace Packet

variable {p : Packet}

-----------------------------------------------------------------------------------------
-- One byte of a frame
-----------------------------------------------------------------------------------------

theorem length_body (sized : p.size ≤ p.capacity)
    : p.body.length = p.bodySize := by
  have le : p.bodySize ≤ p.size := by
    unfold bodySize
    split <;> omega
  simp only [body, List.length_take, capacity] at sized ⊢
  omega

/-- The next byte of the content is one of the body, and the checksum behind it. -/
theorem pendingByte_eq {front back : List UInt8} {byte : UInt8} (sized : p.size ≤ p.capacity)
    (split : front ++ byte :: back = p.body ++ [p.emitter.checksum])
    (place : p.emitter.next = front.length)
    : p.pendingByte = byte := by
  have found := congrArg (·[front.length]?) split
  simp only [List.getElem?_append_right (Nat.le_refl _), Nat.sub_self, List.getElem?_cons_zero]
    at found
  rw [pendingByte, place]
  split
  · next inBody =>
      -- Within the body the packet's own storage is read.
      rw [List.getElem?_append_left (by rwa [length_body sized]), body,
        List.getElem?_take_of_lt inBody] at found
      rw [List.getD_eq_getElem?_getD, ← found, Option.getD_some]
  · next behind =>
      -- Behind the body only the checksum is left.
      have bound := congrArg List.length split
      simp only [List.length_append, List.length_cons, List.length_nil, length_body sized] at bound
      rw [List.getElem?_append_right (by rw [length_body sized]; omega), length_body sized,
        show front.length - p.bodySize = 0 by omega] at found
      simpa using found.symm

theorem stuff_cons_of_escape? {byte : UInt8} (rest : List UInt8)
    : stuff (byte :: rest)
      = match escape? byte with
        | none => byte :: stuff rest
        | some form => escapeMark :: form :: stuff rest := by
  rw [Frame.stuff_cons, stuffByte]
  cases escape? byte with
  | none => rfl
  | some form => rfl

/-- The next byte sent is the first one owed, and closes the frame if it is the only one; by the
ways in which bytes are owed. -/
theorem emit_of_owes {value : UInt8} {rest : List UInt8} (sized : p.size ≤ p.capacity)
    (command : p.body ≠ []) (owes : p.emitter.Owes p.body (value :: rest))
    : ∃ emitter : Emitter,
        p.emit
          = .ok (⟨value, if rest = [] then .complete else .unfinished⟩, { p with emitter })
        ∧ if rest = [] then emitter = .closed p.body else emitter.Owes p.body rest := by
  have size := length_body sized
  generalize place : p.emitter = emitter at owes
  generalize owed : value :: rest = bytes at owes
  cases owes with
  | between =>
      obtain ⟨rfl, rfl⟩ := List.cons.inj owed
      have some : ¬p.bodySize = 0 := by
        rw [← size]
        simpa using command
      refine ⟨⟨.inside, 0, Checksum.ofBytes p.body⟩, ?_, ?_⟩
      · simp [emit, place, some]
      · have split : [] ++ (p.body ++ [Checksum.ofBytes p.body])
            = p.body ++ [Checksum.ofBytes p.body] := List.nil_append _
        simpa using Emitter.Owes.inside split
  | @inside front back split =>
      have bound := congrArg List.length split
      simp only [List.length_append, List.length_singleton, size] at bound
      cases back with
      | nil =>
          -- Body and checksum are sent, and the delimiter closes the frame.
          obtain ⟨rfl, rfl⟩ := List.cons.inj owed
          have behind : p.bodySize < front.length := by
            simp only [List.length_nil] at bound
            omega
          have last : front.length = p.body.length + 1 := by simpa [size] using bound
          exact ⟨.closed p.body, by simp [emit, place, behind, Emitter.closed, ← last], by simp⟩
      | cons byte more =>
          have within : ¬p.bodySize < front.length := by
            simp only [List.length_cons] at bound
            omega
          have pending : p.pendingByte = byte :=
            pendingByte_eq sized (by rw [place]; exact split) (by rw [place])
          rw [stuff_cons_of_escape?] at owed
          cases reserved : escape? byte with
          | none =>
              rw [reserved] at owed
              obtain ⟨rfl, rfl⟩ := List.cons.inj owed
              refine ⟨⟨.inside, front.length + 1, Checksum.ofBytes p.body⟩, ?_, ?_⟩
              · simp [emit, place, within, pending, reserved]
              · have split' : (front ++ [value]) ++ more = p.body ++ [Checksum.ofBytes p.body] := by
                  simpa using split
                simpa using Emitter.Owes.inside split'
          | some form =>
              -- The mark goes out and the byte stays where it is, for the second half.
              rw [reserved] at owed
              obtain ⟨rfl, rfl⟩ := List.cons.inj owed
              refine ⟨⟨.escaped, front.length, Checksum.ofBytes p.body⟩, ?_, ?_⟩
              · simp [emit, place, within, pending, reserved]
              · simpa using Emitter.Owes.escaped split reserved
  | @escaped front byte form back split reserved =>
      obtain ⟨rfl, rfl⟩ := List.cons.inj owed
      have pending : p.pendingByte = byte :=
        pendingByte_eq sized (by rw [place]; exact split) (by rw [place])
      refine ⟨⟨.inside, front.length + 1, Checksum.ofBytes p.body⟩, ?_, ?_⟩
      · simp [emit, place, pending, reserved]
      · have split' : (front ++ [byte]) ++ back = p.body ++ [Checksum.ofBytes p.body] := by
          simpa using split
        simpa using Emitter.Owes.inside split'

-----------------------------------------------------------------------------------------
-- A whole frame
-----------------------------------------------------------------------------------------

/-- Sending stops behind the byte that closes the frame. -/
theorem emitAll_of_complete {q : Packet} {byte : WireByte} (sent : p.emit = .ok (byte, q))
    (last : byte.status = .complete)
    : p.emitAll = ([byte.value], q) := by
  rw [emitAll]
  split
  · next failed => cases failed.symm.trans sent
  · next found =>
      cases found.symm.trans sent
      split
      · rfl
      · next more => cases more.symm.trans last

theorem emitAll_of_unfinished {q : Packet} {byte : WireByte} (sent : p.emit = .ok (byte, q))
    (more : byte.status = .unfinished)
    : p.emitAll = (byte.value :: q.emitAll.1, q.emitAll.2) := by
  rw [emitAll]
  split
  · next failed => cases failed.symm.trans sent
  · next found =>
      cases found.symm.trans sent
      split
      · next last => cases last.symm.trans more
      · rfl

/-- Sending to the end of a frame gives all bytes owed, by induction on these. -/
theorem emitAll_of_owes {owed : List UInt8} (sized : p.size ≤ p.capacity) (command : p.body ≠ [])
    (nonempty : owed ≠ []) (owes : p.emitter.Owes p.body owed)
    : p.emitAll = (owed, { p with emitter := .closed p.body }) := by
  induction owed generalizing p with
  | nil => exact absurd rfl nonempty
  | cons value rest ih =>
      obtain ⟨emitter, sent, after⟩ := emit_of_owes sized command owes
      by_cases last : rest = []
      · subst last
        obtain rfl : emitter = .closed p.body := by simpa using after
        exact emitAll_of_complete sent rfl
      · simp only [last, if_false] at sent after
        have all := ih (p := { p with emitter }) sized command last after
        rw [emitAll_of_unfinished sent rfl, all]
        rfl

/-- A packet with a command can be rewound, and then owes its whole frame. -/
theorem rewind_of_command (sized : p.size ≤ p.capacity) (command : p.body ≠ [])
    : ∃ emitter : Emitter,
        p.rewind = .ok { p with emitter } ∧ emitter.Owes p.body (wire p.body) := by
  have some : ¬p.bodySize = 0 := by
    rw [← length_body sized]
    simpa using command
  exact ⟨{ p.emitter with phase := .between, next := 0 }, by rw [rewind, if_neg some], .between⟩

/-- A packet with a command is written as the wire form of its body to the front of every buffer
that has room for it, whatever frame was under way. -/
theorem writeFrame_of_room {buffer : List UInt8} (sized : p.size ≤ p.capacity)
    (command : p.body ≠ []) (room : Frame.wireSize p.body ≤ buffer.length)
    : p.writeFrame buffer
      = (⟨.ok (wire p.body).length, wire p.body ++ buffer.drop (wire p.body).length⟩,
          { p with emitter := .closed p.body }) := by
  obtain ⟨fresh, rewound, owes⟩ := rewind_of_command sized command
  have all := emitAll_of_owes (p := { p with emitter := fresh }) sized command (by simp [wire]) owes
  have enough : ¬buffer.length < ({ p with emitter := fresh } : Packet).frameSize :=
    Nat.not_lt.mpr room
  simp only [writeFrame, rewound]
  rw [if_neg enough, all]
  rfl

theorem writeFrame_of_small {buffer : List UInt8} (sized : p.size ≤ p.capacity)
    (command : p.body ≠ []) (small : buffer.length < Frame.wireSize p.body)
    : (p.writeFrame buffer).1 = ⟨.error .overflow, buffer⟩ := by
  obtain ⟨fresh, rewound, _⟩ := rewind_of_command sized command
  have large : buffer.length < ({ p with emitter := fresh } : Packet).frameSize := small
  simp only [writeFrame, rewound, if_pos large]

-----------------------------------------------------------------------------------------
-- The packet of a message
-----------------------------------------------------------------------------------------

/-- A message that fits becomes the body of the packet, whatever the packet held. -/
theorem withMessage_of_room (p : Packet) (command : UInt8) {data : List UInt8}
    (room : data.length + 1 ≤ p.capacity)
    : ∃ q : Packet, p.withMessage command data = .ok q ∧ q.body = command :: data
        ∧ q.size ≤ q.capacity ∧ q.capacity = p.capacity := by
  have fits : ¬p.capacity < 1 + data.length := by omega
  have some : ¬p.capacity = 0 := by omega
  have fits' : ¬p.capacity - 1 < data.length := by omega
  have behind : 1 + data.length ≤ (p.storage.set 0 command).length := by
    rw [List.length_set]
    simpa [capacity, Nat.add_comm] using room
  have length : (overwrite (p.storage.set 0 command) 1 data).length = p.storage.length := by
    rw [length_overwrite behind, List.length_set]
  have front : (p.storage.set 0 command).take 1 = [command] := by
    cases stored : p.storage with
    | nil => simp [capacity, stored] at some
    | cons _ _ => rfl
  refine ⟨{ p with
            storage := overwrite (p.storage.set 0 command) 1 data
            size := 1 + data.length
            verified := false }, ?_, ?_, ?_, length⟩
  · simp only [capacity] at fits some fits'
    simp [withMessage, withCommand, withPayload, append, capacity, dropChecksum, bodySize, fits,
      some, fits', Except.bind]
  · have content := take_overwrite behind
    simpa [body, bodySize, front] using content
  · simp only [capacity, length] at fits ⊢
    omega

theorem withMessage_of_small (command : UInt8) {data : List UInt8}
    (small : p.capacity < data.length + 1)
    : p.withMessage command data = .error .noRoom := by
  rw [withMessage, if_pos (by omega)]

theorem ofMessage_of_room {storage : List UInt8} (command : UInt8) {data : List UInt8}
    (room : data.length + 1 ≤ storage.length)
    : ∃ p : Packet, ofMessage storage command data = .ok p ∧ p.body = command :: data
        ∧ p.size ≤ p.capacity := by
  have fits : data.length + 1 ≤ (ofStorage storage).capacity := room
  obtain ⟨packet, built, body, sized, _⟩ := (ofStorage storage).withMessage_of_room command fits
  exact ⟨packet, built, body, sized⟩

end Packet

end PacketBus
