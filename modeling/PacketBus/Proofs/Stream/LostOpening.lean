import PacketBus.Proofs.Port.Record
import PacketBus.Proofs.Reception.Layout
import PacketBus.Proofs.Stream.RoundTrip

/-! A frame whose opening delimiter is lost on the way.
The byte behind the delimiter opens the frame in its place, so that the command is missing in what
is read, or only the mark before it is; the checksum does not notice a missing command if it is zero.
-/

namespace PacketBus

open PacketBus.Frame (delimiter escape? stuff stuffByte Item Layout)

/-- What stands before the checksum of a frame without its first two bytes: the payload, behind the
second half of an escaped command. -/
def Shipment.remainder (s : Shipment) : List UInt8 := (escape? s.command).toList ++ s.payload

/-- What becomes of the frame of a message without its opening delimiter. -/
def Shipment.unopened (s : Shipment) : Except Packet.Failure FrameStatus :=
  if s.payload = [] ∧ escape? s.command = none then .error .tooShort
  else if s.command = 0 ∧ s.payload ≠ [] then .ok .complete
  else .error (.checksumMismatch (Checksum.ofBytes s.body) (Checksum.ofBytes s.remainder))

namespace Shipment

/-- The command that is zero is sent as it is. -/
theorem remainder_of_zero (s : Shipment) (zero : s.command = 0)
    : s.remainder = s.payload := by
  rw [remainder, zero]
  rfl

theorem unopened_eq_complete_iff (s : Shipment)
    : s.unopened = .ok .complete ↔ s.command = 0 ∧ s.payload ≠ [] := by
  unfold unopened
  split
  · next alone => simp [alone.1]
  · split
    · next zero => simp [zero]
    · next other => simp [other]

end Shipment

namespace Packet

variable {p q : Packet}

/-- A run that only its last byte can end completes a packet with that byte or none. -/
theorem Ends.completed_eq {bytes : List UInt8} {result : Except Failure FrameStatus}
    (h : Ends p bytes result q)
    : completed (p.trace bytes) = completed [(result, q)] := by
  obtain ⟨quiet, trace, unfinished⟩ := h.trace_eq
  have none := completed_of_quiet unfinished
  rw [trace, completed, List.filterMap_append, ← completed, none, List.nil_append, ← completed]

theorem completed_of_incomplete {result : Except Failure FrameStatus}
    (incomplete : result ≠ .ok .complete)
    : completed [(result, q)] = [] := by
  rcases result with failure | _ | _
  · rfl
  · rfl
  · exact absurd rfl incomplete

/-- The first byte of the command takes the place of the delimiter that is lost. -/
theorem exists_layout_of_tail (s : Shipment)
    : ∃ l : Layout, l.wire = (Frame.wire s.body).tail
        ∧ l.content = s.remainder ++ [Checksum.ofBytes s.body] := by
  obtain ⟨first, sent⟩ := Frame.stuffByte_eq_cons s.command
  refine ⟨⟨first, 0, (s.remainder ++ [Checksum.ofBytes s.body]).map Item.ofByte⟩, ?_,
    Item.values_ofByte _⟩
  simp only [Layout.wire, Item.wires_ofByte, Frame.wire, Shipment.remainder, Frame.stuff_append,
    Frame.stuff_toList_escape?, List.replicate_zero, List.nil_append, List.tail_cons,
    List.cons_append]
  rw [show stuff s.body = stuffByte s.command ++ stuff s.payload from Frame.stuff_cons .., sent]
  simp

/-- The checksum is that of the remainder exactly if the command was zero: a command that is not
escaped is missing, and one that is escaped is another byte. -/
theorem ofBytes_body_eq_remainder_iff (s : Shipment)
    : Checksum.ofBytes s.body = Checksum.ofBytes s.remainder ↔ s.command = 0 := by
  unfold Shipment.remainder Shipment.body
  cases reserved : escape? s.command with
  | none =>
      rw [Option.toList_none, List.nil_append, Checksum.ofBytes, Checksum.run_cons,
        Checksum.ofBytes, Checksum.run_eq_run_iff, Checksum.update_eq_zero_iff]
  | some form =>
      have other : s.command ≠ form := by
        intro same
        rw [same] at reserved
        cases (Frame.escape?_of_escape? reserved).symm.trans reserved
      have nonzero : s.command ≠ 0 := by
        intro zero
        rw [zero] at reserved
        cases reserved
      rw [Option.toList_some, List.singleton_append, Checksum.ofBytes, Checksum.run_cons,
        Checksum.ofBytes, Checksum.run_cons, Checksum.run_eq_run_iff,
        Checksum.update_eq_update_iff, UInt8.zero_xor, UInt8.zero_xor]
      simp [other, nonzero]

/-- By the ways in which the remainder can be short or right. -/
theorem verdict_remainder (s : Shipment)
    : verdict (s.remainder ++ [Checksum.ofBytes s.body]) = s.unopened := by
  by_cases alone : s.payload = [] ∧ escape? s.command = none
  · have nothing : s.remainder = [] := by simp [Shipment.remainder, alone]
    rw [Shipment.unopened, if_pos alone, nothing]
    simp [verdict]
  · have some : s.remainder ≠ [] := by
      intro nothing
      simp only [Shipment.remainder, List.append_eq_nil_iff, Option.toList_eq_nil_iff] at nothing
      exact alone ⟨nothing.2, nothing.1⟩
    rw [Shipment.unopened, if_neg alone, verdict_append some]
    simp only [ofBytes_body_eq_remainder_iff]
    by_cases zero : s.command = 0
    · have plain : escape? s.command = none := by
        rw [zero]
        rfl
      have payload : s.payload ≠ [] := fun empty => alone ⟨empty, plain⟩
      rw [if_pos zero, if_pos ⟨zero, payload⟩]
    · rw [if_neg zero, if_neg fun both => zero both.1]

/-- Loss of the opening delimiter: a frame without its first byte brings nothing before its last
one. With that byte it is too short if nothing but a plain command was sent, and found wrong
otherwise, save where the command is zero and a payload stands behind it: then the payload is
delivered as a packet that nobody sent. -/
theorem unopened_frame_is_delivered_iff (p : Packet) (ready : p.isMidFrame = false) {s : Shipment}
    {frame : List UInt8} (sent : s.frame? = some frame)
    (fits : s.payload.length + 2 ≤ p.capacity)
    : let delivered := completed (p.trace frame.tail)
      (p.trace frame.tail).map Prod.fst
        = List.replicate (frame.tail.length - 1) (.ok .unfinished) ++ [s.unopened]
      ∧ delivered.map (fun q => (q.command?, q.payload, q.checksum?))
        = (if s.command = 0 ∧ s.payload ≠ [] then
            [(s.payload.head?, s.payload.tail, some (Checksum.ofBytes s.payload))]
          else [])
      ∧ ((∃ q ∈ delivered, q.body ≠ s.body) ↔ s.command = 0 ∧ s.payload ≠ []) := by
  obtain rfl := Shipment.eq_wire_of_frame? sent
  have between : p.receiver = .between := by simpa [isMidFrame] using ready
  obtain ⟨l, laid, content⟩ := exists_layout_of_tail s
  have nonempty : l.items ≠ [] := by
    intro none
    simp [Layout.content, none] at content
  have room : l.items.length ≤ p.capacity := by
    have size := congrArg List.length content
    simp only [Layout.content, List.length_map, List.length_append, List.length_singleton,
      Shipment.remainder] at size
    have form : (escape? s.command).toList.length ≤ 1 := Option.length_toList_le
    omega
  obtain ⟨q, ended, holds, verified⟩ := ends_layout between l nonempty room
  rw [content] at holds
  rw [laid, content, verdict_remainder] at ended
  rw [content, verdict_remainder] at verified
  have delivered := ended.completed_eq
  refine ⟨ended.results, ?_⟩
  by_cases unnoticed : s.command = 0 ∧ s.payload ≠ []
  · have right := s.unopened_eq_complete_iff.mpr unnoticed
    have remainder := s.remainder_of_zero unnoticed.1
    have sum := (ofBytes_body_eq_remainder_iff s).mpr unnoticed.1
    obtain ⟨first, rest, payload⟩ := List.exists_cons_of_ne_nil unnoticed.2
    rw [remainder] at sum holds
    have body := holds.body_eq (verified right)
    rw [payload] at holds
    obtain ⟨command, others, checksum⟩ := holds.message (verified right)
    rw [delivered, right, if_pos unnoticed]
    constructor
    · simp [completed, command, others, checksum, sum, payload]
    · have shorter : q.body ≠ s.body := by
        rw [body]
        exact List.ne_cons_self
      simp [completed, shorter, unnoticed]
  · have noticed : s.unopened ≠ .ok .complete := fun right =>
      unnoticed (s.unopened_eq_complete_iff.mp right)
    rw [delivered, completed_of_incomplete noticed, if_neg unnoticed]
    simp [unnoticed]

/-- A payload of one byte behind a command that is zero is delivered as a command, and a command of
which the escape mark is lost is found wrong. -/
theorem unopened_frame_is_delivered_of_zero_command
    : let p : Packet := { storage := [0xEE, 0xEE, 0xEE], size := 2, verified := true }
      let zero : Shipment := ⟨0x00, [0x01], [0, 0], List.replicate 5 0⟩
      let mark : Shipment := ⟨0xDB, [], [0], List.replicate 5 0⟩
      p.isMidFrame = false
      ∧ zero.frame? = some [0xC0, 0x00, 0x01, 0x07, 0xC0]
      ∧ zero.payload.length + 2 ≤ p.capacity
      ∧ (p.trace [0x00, 0x01, 0x07, 0xC0]).map Prod.fst
        = List.replicate 3 (.ok .unfinished) ++ [.ok .complete]
      ∧ (completed (p.trace [0x00, 0x01, 0x07, 0xC0])).map
          (fun q => (q.command?, q.payload, q.checksum?))
        = [(some 0x01, [], some 0x07)]
      ∧ mark.frame? = some [0xC0, 0xDB, 0xDD, 0x0F, 0xC0]
      ∧ (p.trace [0xDB, 0xDD, 0x0F, 0xC0]).map Prod.fst
        = List.replicate 3 (.ok .unfinished) ++ [.error (.checksumMismatch 0x0F 0x1D)] := by
  intro p zero mark
  have zeroSent : zero.frame? = some [0xC0, 0x00, 0x01, 0x07, 0xC0] :=
    (Shipment.HasRoom.frame? ⟨by decide, by decide +kernel⟩).trans (by decide +kernel)
  have markSent : mark.frame? = some [0xC0, 0xDB, 0xDD, 0x0F, 0xC0] :=
    (Shipment.HasRoom.frame? ⟨by decide, by decide +kernel⟩).trans (by decide +kernel)
  have fits : zero.payload.length + 2 ≤ p.capacity := by decide
  obtain ⟨results, delivered, _⟩ := unopened_frame_is_delivered_iff p rfl zeroSent fits
  obtain ⟨results', _⟩ := unopened_frame_is_delivered_iff p rfl markSent (by decide)
  exact ⟨rfl, zeroSent, fits, results.trans (by decide +kernel),
    delivered.trans (by decide +kernel), markSent, results'.trans (by decide +kernel)⟩

end Packet

end PacketBus
