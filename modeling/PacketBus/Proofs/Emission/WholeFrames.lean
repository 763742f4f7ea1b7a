import PacketBus.Proofs.Packet.Accesses

/-! Whole frames, byte by byte and into a buffer.
Behind a rewind the bytes of the frame come in order, again and again, and only the last of them
closes it; their number is known beforehand, and sending changes nothing that a packet holds.
-/

namespace PacketBus

open PacketBus.Frame (delimiter stuff wire)

/-- The bytes of a run as they are sent: the last one completes the frame, and none before it. -/
def Frame.emissions : List UInt8 → List WireByte
  | [] => []
  | value :: rest => ⟨value, if rest = [] then .complete else .unfinished⟩ :: emissions rest

/-- By induction on the bytes before the last. -/
theorem Frame.emissions_append (front : List UInt8) (last : UInt8)
    : emissions (front ++ [last])
      = front.map (⟨·, .unfinished⟩) ++ [⟨last, .complete⟩] := by
  induction front with
  | nil => rfl
  | cons value rest ih => simp [emissions, ih]

theorem Frame.emissions_wire (body : List UInt8)
    : emissions (wire body)
      = (delimiter :: stuff (body ++ [Checksum.ofBytes body])).map (⟨·, .unfinished⟩)
        ++ [⟨delimiter, .complete⟩] :=
  emissions_append _ delimiter

/-- Each byte takes one place on the wire, or two if it is reserved. -/
theorem Frame.stuffedSize_bounds (bytes : List UInt8)
    : bytes.length ≤ stuffedSize bytes ∧ stuffedSize bytes ≤ 2 * bytes.length := by
  have reserved := List.countP_le_length (p := fun byte => (escape? byte).isSome) (l := bytes)
  simp only [stuffedSize]
  omega

namespace Packet

variable {p : Packet}

/-- The operations that send of a packet, or begin to. -/
def Operation.Sends : Operation → Prop
  | .rewind | .emit | .writeFrame _ => True
  | _ => False

-----------------------------------------------------------------------------------------
-- What sending leaves alone
-----------------------------------------------------------------------------------------

/-- Sending changes the place in the frame and nothing else. -/
theorem perform_of_sends {operation : Operation} (sends : operation.Sends)
    : ∃ emitter : Emitter, (p.perform operation).2 = { p with emitter } := by
  cases operation with
  | rewind =>
      cases rewound : p.rewind with
      | ok q =>
          obtain ⟨emitter, same⟩ := rewind_eq_ok rewound
          exact ⟨emitter, by simp only [perform, rewound, settle, same]⟩
      | error failure => exact ⟨p.emitter, by simp only [perform, rewound, settle]⟩
  | emit =>
      cases sent : p.emit with
      | ok outcome =>
          obtain ⟨emitter, same⟩ := emit_eq_ok sent
          exact ⟨emitter, by simp only [perform, sent, same]⟩
      | error failure => exact ⟨p.emitter, by simp only [perform, sent]⟩
  | writeFrame buffer => exact p.writeFrame_snd buffer
  | _ => exact sends.elim

/-- By induction on the operations. -/
theorem after_of_sends {operations : List Operation}
    (sends : ∀ operation ∈ operations, operation.Sends)
    : ∃ emitter : Emitter, p.after operations = { p with emitter } := by
  induction operations generalizing p with
  | nil => exact ⟨p.emitter, rfl⟩
  | cons operation rest ih =>
      obtain ⟨first, same⟩ := perform_of_sends (p := p) (sends operation (List.mem_cons_self ..))
      obtain ⟨last, same'⟩ := ih (p := { p with emitter := first }) fun later member =>
        sends later (List.mem_cons_of_mem _ member)
      exact ⟨last, by rw [after_cons, same, same']⟩

-----------------------------------------------------------------------------------------
-- Byte by byte
-----------------------------------------------------------------------------------------

/-- What a call for one byte answers where there is a byte to send. -/
def answers (bytes : List WireByte) : List Reply := bytes.map fun byte => .emitted (.ok byte)

/-- As many calls as there are bytes owed bring these bytes, by induction on them. -/
theorem performAll_emit_of_owes {owed : List UInt8} (sized : p.size ≤ p.capacity)
    (command : p.body ≠ []) (nonempty : owed ≠ []) (owes : p.emitter.Owes p.body owed)
    : p.performAll (List.replicate owed.length .emit)
      = (answers (Frame.emissions owed), { p with emitter := .closed p.body }) := by
  induction owed generalizing p with
  | nil => exact absurd rfl nonempty
  | cons value rest ih =>
      obtain ⟨emitter, sent, after⟩ := emit_of_owes sized command owes
      simp only [List.length_cons, List.replicate_succ, performAll, perform, sent]
      by_cases last : rest = []
      · subst last
        obtain rfl : emitter = .closed p.body := by simpa using after
        rfl
      · simp only [last, if_false] at after
        have others := ih (p := { p with emitter }) sized command last after
        rw [others]
        simp only [Frame.emissions, last, if_false]
        rfl

/-- Behind a frame the same frame is sent again, by induction on the number of frames. -/
theorem performAll_emit_rounds (sized : p.size ≤ p.capacity) (command : p.body ≠ [])
    (owes : p.emitter.Owes p.body (wire p.body)) (rounds : Nat)
    : (p.performAll (List.replicate (rounds * p.frameSize) .emit)).1
      = answers (List.replicate rounds (Frame.emissions (wire p.body))).flatten := by
  induction rounds generalizing p with
  | zero => simp [performAll, answers]
  | succ rounds ih =>
      have first := performAll_emit_of_owes sized command (by simp [wire]) owes
      rw [Frame.length_wire] at first
      have later := ih (p := { p with emitter := .closed p.body }) sized command .between
      rw [Nat.succ_mul, Nat.add_comm, ← List.replicate_append_replicate, performAll_append, after,
        frameSize, first]
      simp only [List.replicate_succ, List.flatten_cons, answers, List.map_append] at later ⊢
      exact congrArg _ later

-----------------------------------------------------------------------------------------
-- Into a buffer
-----------------------------------------------------------------------------------------

/-- The delimiters take one place each, and the body and its checksum at most two a byte. -/
theorem frameSize_bounds (p : Packet)
    : p.body.length + 3 ≤ p.frameSize ∧ p.frameSize ≤ 2 * p.body.length + 4 := by
  have body := Frame.stuffedSize_bounds p.body
  have sum := Frame.stuffedSize_bounds [Checksum.ofBytes p.body]
  simp only [frameSize, Frame.wireSize, List.length_singleton] at sum ⊢
  omega

/-- What becomes of a buffer: it is refused to a packet without a command and where the frame does
not fit, and otherwise holds the frame at its front. -/
def intoBuffer (p : Packet) (buffer : List UInt8) : Filled :=
  if p.body = [] then ⟨.error .tooShort, buffer⟩
  else if buffer.length < p.frameSize then ⟨.error .overflow, buffer⟩
  else ⟨.ok p.frameSize, wire p.body ++ buffer.drop p.frameSize⟩

theorem writeFrame_fst (sized : p.size ≤ p.capacity) (buffer : List UInt8)
    : (p.writeFrame buffer).1 = p.intoBuffer buffer := by
  unfold intoBuffer
  by_cases command : p.body = []
  · have none : p.bodySize = 0 := by rw [← length_body sized, command, List.length_nil]
    simp [writeFrame, rewind, none, command]
  · rw [if_neg command]
    split
    · next small => exact writeFrame_of_small sized command small
    · next room =>
        rw [writeFrame_of_room sized command (Nat.le_of_not_lt room), Frame.length_wire, frameSize]

/-- Whole frames: whatever was done to a packet before, its frame is sent byte by byte as often as
one asks for it, its size is known beforehand and bounded by that of the body, a buffer gets all of
it or stays as it is with no access beyond its end, and sending changes nothing that is held. -/
theorem frames_are_sent_whole (storage : List UInt8) (history : List Operation)
    : let p := (ofStorage storage).after history
      (p.body ≠ [] → ∀ rounds,
        (p.performAll (.rewind :: List.replicate (rounds * p.frameSize) .emit)).1
          = .built (.ok ()) :: answers (List.replicate rounds
              ((delimiter :: stuff (p.body ++ [Checksum.ofBytes p.body])).map (⟨·, .unfinished⟩)
                ++ [⟨delimiter, .complete⟩])).flatten)
      ∧ p.frameSize = (wire p.body).length
      ∧ p.body.length + 3 ≤ p.frameSize ∧ p.frameSize ≤ 2 * p.body.length + 4
      ∧ (∀ buffer, (p.writeFrame buffer).1 = p.intoBuffer buffer
          ∧ ∃ i, p.image.writeFrame? buffer = some (p.intoBuffer buffer, i))
      ∧ ∀ operations : List Operation, (∀ operation ∈ operations, operation.Sends)
        → ∃ emitter, p.after operations = { p with emitter } := by
  intro p
  have sound : p.IsSound := isSound_of_history storage history
  refine ⟨fun command rounds => ?_, (Frame.length_wire p.body).symm, p.frameSize_bounds.1,
    p.frameSize_bounds.2, fun buffer => ?_, fun operations sends => after_of_sends sends⟩
  · obtain ⟨fresh, rewound, owes⟩ := rewind_of_command sound.size_le command
    have sent := performAll_emit_rounds (p := { p with emitter := fresh }) sound.size_le command
      owes rounds
    rw [Frame.emissions_wire] at sent
    simp only [performAll, perform, rewound, settle]
    exact congrArg _ sent
  · have filled := writeFrame_fst sound.size_le buffer
    refine ⟨filled, (p.writeFrame buffer).2.image, ?_⟩
    rw [sound.writeFrame?_image, filled]

/-- A packet that was received with a reserved checksum and is half sent begins anew, twice; a
buffer that is one byte too short stays as it is, and a longer one keeps its last byte. -/
theorem frames_are_sent_whole_of_received_packet
    : let p := (ofStorage [0xEE, 0xEE, 0xEE]).after
        [.receiveFrame [0x55, 0x01, 0x46, 0xDB, 0xDC, 0xC0], .emit, .emit, .emit]
      let frame : List WireByte :=
        [⟨0xC0, .unfinished⟩, ⟨0x01, .unfinished⟩, ⟨0x46, .unfinished⟩, ⟨0xDB, .unfinished⟩,
          ⟨0xDC, .unfinished⟩, ⟨0xC0, .complete⟩]
      p.body = [0x01, 0x46]
      ∧ p.emitter = ⟨.inside, 2, 0xC0⟩
      ∧ (p.performAll (.rewind :: List.replicate 12 .emit)).1
        = .built (.ok ()) :: answers (frame ++ frame)
      ∧ p.frameSize = 6
      ∧ (p.writeFrame (List.replicate 5 0xAA)).1 = ⟨.error .overflow, List.replicate 5 0xAA⟩
      ∧ (p.writeFrame (List.replicate 7 0xAA)).1
        = ⟨.ok 6, [0xC0, 0x01, 0x46, 0xDB, 0xDC, 0xC0, 0xAA]⟩
      ∧ ∃ emitter, p.after [.rewind, .emit, .writeFrame []] = { p with emitter } := by
  intro p frame
  have body : p.body = [0x01, 0x46] := by decide +kernel
  have command : p.body ≠ [] := by
    rw [body]
    decide
  have size : p.frameSize = 6 := by decide +kernel
  obtain ⟨sent, _, _, _, filled, unchanged⟩ := frames_are_sent_whole [0xEE, 0xEE, 0xEE]
    [.receiveFrame [0x55, 0x01, 0x46, 0xDB, 0xDC, 0xC0], .emit, .emit, .emit]
  have once : (delimiter :: stuff ([0x01, 0x46] ++ [Checksum.ofBytes [0x01, 0x46]])).map
      (⟨·, .unfinished⟩) ++ [⟨delimiter, .complete⟩] = frame := by
    decide +kernel
  have buffer : wire [0x01, 0x46] ++ (List.replicate 7 (0xAA : UInt8)).drop 6
      = [0xC0, 0x01, 0x46, 0xDB, 0xDC, 0xC0, 0xAA] := by
    decide +kernel
  have twice := sent command 2
  rw [show 2 * p.frameSize = 12 by rw [size]] at twice
  refine ⟨body, by decide +kernel, twice.trans ?_, size, ?_, ?_, unchanged _ ?_⟩
  · rw [body, once]
    rfl
  · rw [(filled _).1, intoBuffer, if_neg command, if_pos (by rw [size]; decide)]
  · rw [(filled _).1, intoBuffer, if_neg command, if_neg (by rw [size]; decide), size, body, buffer]
  · simp [Operation.Sends]

end Packet

end PacketBus
