import PacketBus.Proofs.Frame.Remnant
import PacketBus.Proofs.Reception.Frames

/-! The reception of frames of any size.
Up to its closing delimiter a frame completes no packet, however often it is given up in between,
and what that delimiter completes is the remnant of the content, if it ends in its own checksum.
-/

namespace PacketBus.Packet

open PacketBus.Frame (delimiter remnant stuff stuffByte Item)

variable {p : Packet} {n : Nat}

/-- A frame is found right exactly if its content has a command and leaves the register empty. -/
theorem verdict_eq_complete_iff (content : List UInt8)
    : verdict content = .ok .complete ↔ 2 ≤ content.length ∧ Checksum.ofBytes content = 0 := by
  by_cases short : content.length < 2
  · have small : ¬2 ≤ content.length := Nat.not_le.mpr short
    simp [verdict, short, small]
  · have nonempty : content ≠ [] := by
      rintro rfl
      exact short (by decide)
    obtain ⟨front, last, rfl⟩ : ∃ front last, content = front ++ [last] :=
      ⟨_, _, (List.dropLast_concat_getLast nonempty).symm⟩
    have command : front ≠ [] := by
      rintro rfl
      simp at short
    rw [verdict_append command, Checksum.ofBytes_append_eq_zero_iff]
    split
    · next same => simpa [same] using Nat.le_of_not_lt short
    · next differs => simp [differs]

/-- A packet takes a run of bytes that completes nothing but may give up frames. -/
abbrev Discards : Packet → List UInt8 → Packet → Prop :=
  Takes fun result => result = .ok .unfinished ∨ result = .error .overflow

theorem Absorbs.discards {q : Packet} {bytes : List UInt8} (h : Absorbs p bytes q)
    : Discards p bytes q :=
  h.mono fun _ quiet => .inl quiet

/-- The first byte for which there is no room gives the frame up. -/
theorem Collects.discards_full (h : p.Collects n []) {content : List UInt8}
    (large : n < content.length)
    : ∃ q, Discards p (stuff (content.take (n + 1))) q ∧ q.receiver = .between ∧ q.capacity = n := by
  have size : (content.take n).length = n := by
    rw [List.length_take]
    omega
  obtain ⟨q, ended, between, holds⟩ :=
    h.ends_items ((content.take n).map Item.ofByte) (Item.ofByte content[n])
      (by rw [List.length_map, size, List.length_nil, Nat.zero_add])
  rw [Item.wires_ofByte, Item.wire_ofByte] at ended
  refine ⟨q, ?_, between, holds.room⟩
  rw [List.take_succ_eq_append_getElem large, Frame.stuff_append, Frame.stuff_cons,
    Frame.stuff_nil, List.append_nil]
  exact ended.takes (.inl rfl) (.inr rfl)

/-- Content of any size completes nothing, and its remnant is what the receiver holds behind it; by
the cases of `remnant`. -/
theorem Collects.discards_stuff (h : p.Collects n []) (content : List UInt8)
    : ∃ q, Discards p (stuff content) q
        ∧ (q.Collects n (remnant n content) ∨ q.receiver = .between ∧ remnant n content = []) := by
  fun_induction remnant n content generalizing p with
  | case1 content fits =>
      obtain ⟨q, absorbed, collects⟩ := h.absorbs_stuff fits
      exact ⟨q, absorbed.discards, .inl collects⟩
  | case2 content large behind =>
      obtain ⟨q, discarded, between, _⟩ := h.discards_full (Nat.lt_of_not_le large)
      have whole : content.take (n + 1) = content :=
        List.take_of_length_le (List.drop_eq_nil_iff.mp behind)
      rw [whole] at discarded
      exact ⟨q, discarded, .inr ⟨between, rfl⟩⟩
  | case3 content large opening rest behind ih =>
      obtain ⟨q, discarded, between, room⟩ := h.discards_full (Nat.lt_of_not_le large)
      -- The next piece is opened by the first byte that `opening` is sent as.
      obtain ⟨first, sent⟩ := Frame.stuffByte_eq_cons opening
      obtain ⟨r, opened, collects⟩ := receive_of_between between first
      rw [room] at collects
      obtain ⟨s, discardedRest, held⟩ := ih collects
      refine ⟨s, ?_, held⟩
      have split : stuff content
          = stuff (content.take (n + 1))
            ++ first :: stuff ((Frame.escape? opening).toList ++ rest) :=
        calc
          stuff content = stuff (content.take (n + 1) ++ opening :: rest) := by
            rw [← behind, List.take_append_drop]
          _ = _ := by
            rw [Frame.stuff_append, Frame.stuff_cons, sent, Frame.stuff_append,
              Frame.stuff_toList_escape?, List.cons_append]
      rw [split]
      exact discarded.trans (.cons opened (.inl rfl) discardedRest)

/-- A delimiter completes what is held exactly if that ends in its own checksum; where nothing is
held it opens a frame or changes nothing.
-/
theorem receive_delimiter_of_held {kept : List UInt8}
    (held : p.Collects n kept ∨ p.receiver = .between ∧ kept = [])
    : ∃ result q, p.receive delimiter = (result, q)
        ∧ (result = .ok .complete ↔ 2 ≤ kept.length ∧ Checksum.ofBytes kept = 0)
        ∧ (result = .ok .complete → q.bytes = kept) := by
  by_cases nothing : kept = []
  · subst nothing
    have ready : p.IsBetweenFrames := by
      rcases held with collects | ⟨between, _⟩
      · exact collects.isBetweenFrames
      · exact .inl between
    obtain ⟨q, opened, _⟩ := ready.receive_delimiter
    exact ⟨_, q, opened, by simp, by simp⟩
  · rcases held with collects | ⟨_, empty⟩
    · obtain ⟨q, closed, _, holds, _⟩ := collects.receive_delimiter nothing
      exact ⟨_, q, closed, verdict_eq_complete_iff kept, fun _ => holds.bytes⟩
    · exact absurd empty nothing

/-- A frame of any size completes nothing before its closing delimiter, and with that delimiter its
remnant, if it ends in its own checksum.
-/
theorem IsBetweenFrames.discards_wire (h : p.IsBetweenFrames) (body : List UInt8)
    : let kept := remnant p.capacity (body ++ [Checksum.ofBytes body])
      ∃ front middle result q, Frame.wire body = front ++ [delimiter]
        ∧ Discards p front middle
        ∧ middle.receive delimiter = (result, q)
        ∧ (result = .ok .complete ↔ 2 ≤ kept.length ∧ Checksum.ofBytes kept = 0)
        ∧ (result = .ok .complete → q.bytes = kept) := by
  intro kept
  obtain ⟨opened, first, empty⟩ := h.receive_delimiter
  obtain ⟨middle, discarded, held⟩ := empty.discards_stuff (body ++ [Checksum.ofBytes body])
  obtain ⟨result, q, closed, completed⟩ := receive_delimiter_of_held held
  exact ⟨delimiter :: stuff (body ++ [Checksum.ofBytes body]), middle, result, q, rfl,
    .cons first (.inl rfl) discarded, closed, completed⟩

end PacketBus.Packet
