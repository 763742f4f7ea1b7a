import PacketBus.Proofs.Reception.Frames
import PacketBus.Proofs.Stream.Shipment

/-! Messages that are sent one after the other are received one after the other.
The receiver completes a packet with the last byte of each frame and at no other byte, with any
number of delimiters around the frames.
-/

namespace PacketBus

open PacketBus.Frame (delimiter)

/-- Frames on a line, each behind a number of further delimiters, and delimiters behind the last. -/
def Frame.stream (frames : List (Nat × List UInt8)) (trailing : Nat) : List UInt8 :=
  (frames.flatMap fun frame => List.replicate frame.1 delimiter ++ frame.2)
    ++ List.replicate trailing delimiter

/-- What each byte of a stream is to bring: a packet with the last byte of each frame only. -/
def Frame.streamResults (frames : List (Nat × List UInt8)) (trailing : Nat)
    : List (Except Packet.Failure FrameStatus) :=
  (frames.flatMap fun frame =>
      List.replicate (frame.1 + (frame.2.length - 1)) (.ok .unfinished) ++ [.ok .complete])
    ++ List.replicate trailing (.ok .unfinished)

namespace Packet

open PacketBus.Frame (stream streamResults)

/-- The packets that were complete in a trace, in order. -/
def completed (trace : List (Except Failure FrameStatus × Packet)) : List Packet :=
  trace.filterMap fun entry =>
    match entry with
    | (.ok .complete, packet) => some packet
    | _ => none

theorem completed_of_quiet {trace : List (Except Failure FrameStatus × Packet)} {count : Nat}
    (quiet : trace.map Prod.fst = List.replicate count (.ok .unfinished))
    : completed trace = [] := by
  simp only [completed, List.filterMap_eq_nil_iff]
  rintro ⟨result, packet⟩ member
  have listed : result ∈ trace.map Prod.fst := List.mem_map_of_mem (f := Prod.fst) member
  rw [quiet] at listed
  obtain rfl := List.eq_of_mem_replicate listed
  rfl

/-- A longer stream completes the packets of a shorter one first. -/
theorem completed_mono (p : Packet) {front input : List UInt8} (part : front <+: input)
    : completed (p.trace front) <+: completed (p.trace input) := by
  obtain ⟨rest, rfl⟩ := part
  rw [trace_append, completed, completed, List.filterMap_append]
  exact List.prefix_append _ _

variable {p : Packet}

/-- One message, with delimiters before its frame, is received with the last byte of the frame. -/
theorem IsBetweenFrames.ends_shipment (h : p.IsBetweenFrames) (gap : Nat) (s : Shipment)
    (fits : s.payload.length + 2 ≤ p.capacity)
    : ∃ q, Ends p (List.replicate gap delimiter ++ Frame.wire s.body) (.ok .complete) q
        ∧ q.IsBetweenFrames ∧ q.capacity = p.capacity ∧ q.command? = some s.command
        ∧ q.payload = s.payload ∧ q.checksum? = some (Checksum.ofBytes s.body) := by
  obtain ⟨middle, skipped, ready, room⟩ := h.absorbs_delimiters gap
  have nonempty : s.body ≠ [] := by simp [Shipment.body]
  have fits' : s.body.length + 1 ≤ middle.capacity := by
    rw [Shipment.length_body, room]
    exact fits
  obtain ⟨q, ended, between, holds, verified⟩ := ready.ends_wire nonempty fits'
  exact ⟨q, skipped.ends ended, .inl between, holds.room.trans room, holds.message verified⟩

/-- The frames of any messages are received in order by a packet between frames, by induction on
the messages. -/
theorem IsBetweenFrames.trace_stream (h : p.IsBetweenFrames) (shipments : List (Nat × Shipment))
    (trailing : Nat) (fits : ∀ s ∈ shipments, s.2.payload.length + 2 ≤ p.capacity)
    : let frames := shipments.map fun s => (s.1, Frame.wire s.2.body)
      let trace := p.trace (stream frames trailing)
      trace.map Prod.fst = streamResults frames trailing
      ∧ (completed trace).map (fun q => (q.command?, q.payload, q.checksum?))
        = shipments.map fun s =>
            (some s.2.command, s.2.payload, some (Checksum.ofBytes s.2.body)) := by
  induction shipments generalizing p with
  | nil =>
      obtain ⟨q, skipped, _, _⟩ := h.absorbs_delimiters trailing
      have quiet := skipped.results
      rw [List.length_replicate] at quiet
      simpa [stream, streamResults, quiet] using completed_of_quiet quiet
  | cons first rest ih =>
      obtain ⟨gap, s⟩ := first
      obtain ⟨q, ended, ready, room, command, payload, checksum⟩ :=
        h.ends_shipment gap s (fits (gap, s) (by simp))
      obtain ⟨quiet, trace_eq, unfinished⟩ := ended.trace_eq
      have fitsRest : ∀ s ∈ rest, s.2.payload.length + 2 ≤ q.capacity := by
        intro s member
        rw [room]
        exact fits s (List.mem_cons_of_mem _ member)
      obtain ⟨restResults, restPackets⟩ := ih ready fitsRest
      have split : p.trace (stream
            (((gap, s) :: rest).map fun s => (s.1, Frame.wire s.2.body)) trailing)
          = quiet ++ (.ok .complete, q)
            :: q.trace (stream (rest.map fun s => (s.1, Frame.wire s.2.body)) trailing) := by
        rw [List.map_cons, stream, List.flatMap_cons, List.append_assoc, ← stream, trace_append,
          trace_eq, ended.fed_eq, List.append_assoc, List.singleton_append]
      have size : (List.replicate gap delimiter ++ Frame.wire s.body).length - 1
          = gap + ((Frame.wire s.body).length - 1) := by
        have opened : 0 < (Frame.wire s.body).length := by simp [Frame.wire]
        rw [List.length_append, List.length_replicate]
        omega
      have front := completed_of_quiet unfinished
      -- The trace of the first frame is quiet up to its last byte, and the rest is that of `rest`.
      simp only [split]
      constructor
      · rw [List.map_append, List.map_cons, unfinished, restResults, size]
        simp [streamResults]
      · simp only [completed, List.filterMap_append, List.filterMap_cons] at front restPackets ⊢
        rw [front, List.nil_append, List.map_cons, restPackets, command, payload, checksum]
        rfl

/-- Messages whose frames stand one behind the other are received in their order. -/
theorem IsBetweenFrames.completed_frames (h : p.IsBetweenFrames)
    (messages : List (UInt8 × List UInt8)) (fits : ∀ m ∈ messages, m.2.length + 2 ≤ p.capacity)
    : (completed (p.trace (messages.flatMap fun m => Frame.wire (m.1 :: m.2)))).map
        (fun q => (q.command?, q.payload))
      = messages.map fun m => (some m.1, m.2) := by
  let shipments : List (Nat × Shipment) := messages.map fun m => (0, ⟨m.1, m.2, [], []⟩)
  have fits' : ∀ s ∈ shipments, s.2.payload.length + 2 ≤ p.capacity := by
    intro s member
    obtain ⟨m, listed, rfl⟩ := List.mem_map.mp member
    exact fits m listed
  have received := (h.trace_stream shipments 0 fits').2
  have stream : Frame.stream (shipments.map fun s => (s.1, Frame.wire s.2.body)) 0
      = messages.flatMap fun m => Frame.wire (m.1 :: m.2) := by
    simp [shipments, Frame.stream, Shipment.body, List.flatMap_map]
  rw [stream] at received
  simpa [shipments, Function.comp_def]
    using congrArg (List.map fun message => (message.1, message.2.1)) received

end Packet

/-- Stream round trip: senders write a frame for each of their messages, and a fresh packet fed
with all frames, with delimiters around them, completes each message with the last byte of its
frame, in order, and nothing else. -/
theorem trace_frames_of_shipments (shipments : List (Nat × Shipment)) (trailing : Nat)
    (storage : List UInt8) (sent : ∀ s ∈ shipments, s.2.HasRoom)
    (fits : ∀ s ∈ shipments, s.2.payload.length + 2 ≤ storage.length)
    : ∃ frames : List (Nat × List UInt8),
        shipments.map (fun s => (s.1, s.2.frame?)) = frames.map (fun f => (f.1, some f.2))
        ∧ let trace := (Packet.ofStorage storage).trace (Frame.stream frames trailing)
          trace.map Prod.fst = Frame.streamResults frames trailing
          ∧ (Packet.completed trace).map (fun q => (q.command?, q.payload, q.checksum?))
            = shipments.map fun s =>
                (some s.2.command, s.2.payload, some (Checksum.ofBytes s.2.body)) := by
  refine ⟨shipments.map fun s => (s.1, Frame.wire s.2.body), ?_, ?_⟩
  · rw [List.map_map]
    apply List.map_congr_left
    intro s member
    rw [(sent s member).frame?]
    rfl
  · have fresh : (Packet.ofStorage storage).IsBetweenFrames := .inl rfl
    exact fresh.trace_stream shipments trailing fits

/-- Reserved bytes in both commands, in a payload and in a checksum, with packets that fill their
storage and delimiters before, between and behind the frames. -/
theorem trace_frames_of_reserved_bytes
    : let shipments : List (Nat × Shipment) :=
        [(2, ⟨0xC0, [0xDB, 0xC0], [0xAA, 0xAA, 0xAA], List.replicate 9 0xEE⟩),
          (0, ⟨0x01, [0x46], [0x55, 0x55], List.replicate 6 0xEE⟩)]
      (∀ s ∈ shipments, s.2.HasRoom)
      ∧ (∀ s ∈ shipments, s.2.payload.length + 2 ≤ [0xDB, 0xDB, 0xDB, 0xDB].length)
      ∧ ∃ frames : List (Nat × List UInt8),
          shipments.map (fun s => (s.1, s.2.frame?)) = frames.map (fun f => (f.1, some f.2))
          ∧ let trace :=
              (Packet.ofStorage [0xDB, 0xDB, 0xDB, 0xDB]).trace (Frame.stream frames 1)
            trace.map Prod.fst = Frame.streamResults frames 1
            ∧ (Packet.completed trace).map (fun q => (q.command?, q.payload, q.checksum?))
              = [(some 0xC0, [0xDB, 0xC0], some 0xEE), (some 0x01, [0x46], some 0xC0)] := by
  intro shipments
  have sent : ∀ s ∈ shipments, s.2.HasRoom := by
    intro s member
    rcases List.mem_cons.mp member with rfl | member
    · exact ⟨by decide, by decide +kernel⟩
    · obtain rfl := List.mem_singleton.mp member
      exact ⟨by decide, by decide +kernel⟩
  have fits : ∀ s ∈ shipments, s.2.payload.length + 2 ≤ [0xDB, 0xDB, 0xDB, 0xDB].length := by
    decide
  obtain ⟨frames, written, results, packets⟩ :=
    trace_frames_of_shipments shipments 1 [0xDB, 0xDB, 0xDB, 0xDB] sent fits
  exact ⟨sent, fits, frames, written, results, packets.trans (by decide +kernel)⟩

end PacketBus
