import PacketBus.Proofs.Frame.Residue

/-! What a receiver still holds of a frame when the closing delimiter comes.
The content of a frame that does not fit is given up in pieces, and the last piece passes for a
packet of its own exactly if the checksum of what was lost before it makes up for its own.
-/

namespace PacketBus.Frame

-----------------------------------------------------------------------------------------
-- The last piece of the content
-----------------------------------------------------------------------------------------

/-- The part of the content that is held at the closing delimiter. A frame is given up with the
first byte for which there is no room, and the next byte on the line opens another; if that byte is
an escape mark, the byte behind it stands for itself.
-/
def remnant (capacity : Nat) (content : List UInt8) : List UInt8 :=
  if content.length ≤ capacity then content
  else
    match _behind : content.drop (capacity + 1) with
    | [] => []
    | opening :: rest => remnant capacity ((escape? opening).toList ++ rest)
termination_by content.length
decreasing_by
  have dropped := congrArg List.length _behind
  simp only [List.length_drop, List.length_cons, List.length_append] at dropped ⊢
  cases escape? opening with
  | none =>
      simp only [Option.toList_none, List.length_nil]
      omega
  | some form =>
      simp only [Option.toList_some, List.length_singleton]
      omega

theorem remnant_of_le {capacity : Nat} {content : List UInt8} (fits : content.length ≤ capacity)
    : remnant capacity content = content := by
  rw [remnant, if_pos fits]

theorem remnant_of_drop {capacity : Nat} {content rest : List UInt8} {opening : UInt8}
    (behind : content.drop (capacity + 1) = opening :: rest)
    : remnant capacity content = remnant capacity ((escape? opening).toList ++ rest) := by
  have large : ¬content.length ≤ capacity := by
    intro fits
    rw [List.drop_of_length_le (by omega)] at behind
    cases behind
  rw [remnant, if_neg large]
  split
  · next none => cases none.symm.trans behind
  · next found =>
      obtain ⟨rfl, rfl⟩ := List.cons.inj (found.symm.trans behind)
      rfl

/-- A byte is sent as one byte, with the second half of its pair behind it if it is escaped. -/
theorem stuffByte_eq_cons (byte : UInt8)
    : ∃ first, stuffByte byte = first :: (escape? byte).toList := by
  unfold stuffByte
  cases escape? byte with
  | none => exact ⟨byte, rfl⟩
  | some form => exact ⟨escapeMark, rfl⟩

/-- The second half of an escaped pair is sent as it is. -/
theorem stuff_toList_escape? (byte : UInt8)
    : stuff (escape? byte).toList = (escape? byte).toList := by
  cases reserved : escape? byte with
  | none => rfl
  | some form =>
      rw [Option.toList_some, stuff_cons, stuff_nil, List.append_nil, stuffByte,
        escape?_of_escape? reserved]

/-- `kept` is the end of `content` behind `lost`, or begins with the second half of the escaped pair
behind it; `seam` is by how much the two then differ in their first byte. -/
inductive Severed : (content kept lost : List UInt8) → (seam : UInt8) → Prop
  | whole (lost kept) : Severed (lost ++ kept) kept lost 0
  | cut {byte form} (lost rest) (reserved : escape? byte = some form)
    : Severed (lost ++ byte :: rest) (form :: rest) lost (byte ^^^ form)

theorem Severed.prepend {content kept lost : List UInt8} {seam : UInt8}
    (h : Severed content kept lost seam) (front : List UInt8)
    : Severed (front ++ content) kept (front ++ lost) seam := by
  cases h with
  | whole =>
      rw [← List.append_assoc]
      exact .whole _ _
  | cut lost rest reserved =>
      rw [← List.append_assoc]
      exact .cut _ rest reserved

/-- A piece of what is behind the first half of an escaped pair is a piece of what holds the pair:
it begins with the second half, or the pair is lost. -/
theorem Severed.of_second_half {byte form : UInt8} {rest kept lost : List UInt8} {seam : UInt8}
    (h : Severed (form :: rest) kept lost seam) (reserved : escape? byte = some form)
    : ∃ lost' seam', Severed (byte :: rest) kept lost' seam' := by
  generalize behind : form :: rest = content at h
  cases h with
  | whole lost =>
      cases lost with
      | nil =>
          obtain rfl : form :: rest = kept := behind
          -- All of it is kept, so what is kept begins in the middle of the pair.
          exact ⟨[], _, .cut [] rest reserved⟩
      | cons first lost =>
          obtain ⟨rfl, rfl⟩ := List.cons.inj behind
          exact ⟨_, _, (Severed.whole lost kept).prepend [byte]⟩
  | cut lost rest' reserved' =>
      cases lost with
      | nil =>
          -- The second half of a pair is itself never escaped.
          obtain ⟨rfl, rfl⟩ := List.cons.inj behind
          cases (escape?_of_escape? reserved).symm.trans reserved'
      | cons first lost =>
          obtain ⟨rfl, rfl⟩ := List.cons.inj behind
          exact ⟨_, _, (Severed.cut lost rest' reserved').prepend [byte]⟩

/-- What is held at the closing delimiter is severed from the content, and where the content does
not fit, more than the receiver has room for is lost; by the cases of `remnant`. -/
theorem severed_remnant (capacity : Nat) (content : List UInt8)
    : ∃ lost seam, Severed content (remnant capacity content) lost seam
        ∧ (capacity < content.length → capacity < lost.length) := by
  fun_induction remnant capacity content with
  | case1 content fits => exact ⟨[], 0, .whole [] content, fun large => by omega⟩
  | case2 content large behind =>
      exact ⟨content, 0, by simpa using Severed.whole content [], id⟩
  | case3 content large opening rest behind ih =>
      obtain ⟨lost, seam, severed, _⟩ := ih
      obtain ⟨lost', seam', severed'⟩
          : ∃ lost' seam', Severed (opening :: rest)
              (remnant capacity ((escape? opening).toList ++ rest)) lost' seam' := by
        cases reserved : escape? opening with
        | none =>
            rw [reserved] at severed
            exact ⟨_, _, severed.prepend [opening]⟩
        | some form =>
            rw [reserved] at severed
            exact severed.of_second_half reserved
      refine ⟨content.take (capacity + 1) ++ lost', seam', ?_, fun _ => ?_⟩
      · have joined := severed'.prepend (content.take (capacity + 1))
        rwa [← behind, List.take_append_drop] at joined
      · rw [List.length_append, List.length_take]
        omega

/-- If the whole content leaves the register empty, a severed end of it does so exactly if the
checksum of what was lost is the difference at the seam. -/
theorem Severed.ofBytes_eq_zero_iff {content kept lost : List UInt8} {seam : UInt8}
    (h : Severed content kept lost seam) (whole : Checksum.ofBytes content = 0)
    : Checksum.ofBytes kept = 0 ↔ Checksum.ofBytes lost = seam := by
  cases h with
  | whole =>
      rw [Checksum.ofBytes, Checksum.run_append] at whole
      calc
        Checksum.ofBytes kept = 0
            ↔ Checksum.run 0 kept = Checksum.run (Checksum.ofBytes lost) kept := by
          rw [Checksum.ofBytes, Checksum.ofBytes, whole]
        _ ↔ 0 = Checksum.ofBytes lost := Checksum.run_eq_run_iff kept
        _ ↔ Checksum.ofBytes lost = 0 := eq_comm
  | @cut byte form lost rest reserved =>
      rw [Checksum.ofBytes, Checksum.run_append, Checksum.run_cons] at whole
      have cancelled : (byte ^^^ form) ^^^ byte = form := by
        rw [UInt8.xor_comm, ← UInt8.xor_assoc, UInt8.xor_self, UInt8.zero_xor]
      calc
        Checksum.ofBytes (form :: rest) = 0
            ↔ Checksum.run (Checksum.update 0 form) rest
              = Checksum.run (Checksum.update (Checksum.ofBytes lost) byte) rest := by
          rw [Checksum.ofBytes, Checksum.run_cons, Checksum.ofBytes, whole]
        _ ↔ 0 ^^^ form = Checksum.ofBytes lost ^^^ byte := by
          rw [Checksum.run_eq_run_iff, Checksum.update_eq_update_iff]
        _ ↔ (byte ^^^ form) ^^^ byte = Checksum.ofBytes lost ^^^ byte := by
          rw [UInt8.zero_xor, cancelled]
        _ ↔ Checksum.ofBytes lost = byte ^^^ form := by
          rw [UInt8.xor_left_inj, eq_comm]

end PacketBus.Frame
