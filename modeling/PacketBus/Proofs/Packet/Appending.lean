import PacketBus.Proofs.Packet.Building

/-! What becomes of bytes that are appended.
An append goes behind the body, so on a packet that holds anything it goes to the payload, and on
one that holds nothing its first byte stands in the place of the command.
-/

namespace PacketBus.Packet

variable {p q : Packet}

/-- The command is the first byte of the body, since a checksum never stands in its place. -/
theorem IsSound.command?_eq_head? (h : p.IsSound)
    : p.command? = p.body.head? := by
  have zero := h.bodySize_eq_zero_iff
  rw [command?, bytes, body, List.head?_take, List.head?_take]
  split
  · next empty => rw [if_pos (zero.mpr empty)]
  · next some => rw [if_neg (mt zero.mp some)]

theorem IsSound.isEmpty_iff_body (h : p.IsSound)
    : p.isEmpty = true ↔ p.body = [] := by
  rw [h.body_eq_nil_iff, isEmpty, beq_iff_eq]

/-- Data that was appended stands behind the body. -/
theorem IsSound.body_append (h : p.IsSound) {data : List UInt8} (built : p.append data = .ok q)
    : p.Rebuilds q ∧ q.IsSound ∧ q.body = p.body ++ data := by
  have builds := h.builds_append data
  by_cases fits : p.bodySize + data.length ≤ p.capacity
  · obtain ⟨q', taken, rebuilt, sound, body⟩ := builds.built fits
    obtain rfl : q' = q := Except.ok.inj (taken.symm.trans built)
    exact ⟨rebuilt, sound, body⟩
  · cases (builds.refused fits).symm.trans built

/-- What is appended to a packet that holds anything is payload. -/
theorem IsSound.append_behind_command (h : p.IsSound) {data : List UInt8}
    (built : p.append data = .ok q) (holds : p.isEmpty = false)
    : q.command? = p.command? ∧ q.payload = p.payload ++ data := by
  obtain ⟨_, sound, body⟩ := h.body_append built
  have some : p.body ≠ [] := fun none => by simp [h.isEmpty_iff_body.mpr none] at holds
  rw [sound.command?_eq_head?, h.command?_eq_head?, payload, payload, body]
  exact ⟨by rw [List.head?_append, List.head?_eq_some_head some]; rfl,
    List.drop_append_of_le_length (List.length_pos_iff.mpr some)⟩

/-- Of what is appended to a packet that holds nothing, the first byte is the command. -/
theorem IsSound.append_to_nothing (h : p.IsSound) {data : List UInt8}
    (built : p.append data = .ok q) (empty : p.isEmpty = true)
    : q.command? = data.head? ∧ q.payload = data.drop 1 := by
  obtain ⟨_, sound, body⟩ := h.body_append built
  rw [sound.command?_eq_head?, payload, body, h.isEmpty_iff_body.mp empty]
  exact ⟨rfl, rfl⟩

/-- An append is to the payload exactly if the packet holds anything or nothing is appended. -/
theorem IsSound.append_is_payload_iff (h : p.IsSound) {data : List UInt8}
    (built : p.append data = .ok q)
    : q.command? = p.command? ∧ q.payload = p.payload ++ data ↔ p.isEmpty = false ∨ data = [] := by
  cases empty : p.isEmpty with
  | false => exact iff_of_true (h.append_behind_command built empty) (.inl rfl)
  | true =>
      have nothing : p.command? = none := by
        rw [h.command?_eq_head?, h.isEmpty_iff_body.mp empty]
        rfl
      obtain ⟨command, rest⟩ := h.append_to_nothing built empty
      rw [command, rest, nothing, List.head?_eq_none_iff]
      refine ⟨fun same => .inr same.1, fun none => ?_⟩
      obtain rfl := none.resolve_left nofun
      have bare : p.payload = [] := by rw [payload, h.isEmpty_iff_body.mp empty]; rfl
      exact ⟨rfl, by rw [bare]; rfl⟩

/-- The pieces of data for which there is room, each behind those before it. -/
def fitting (room : Nat) : List (List UInt8) → List UInt8
  | [] => []
  | piece :: rest =>
      if piece.length ≤ room then piece ++ fitting (room - piece.length) rest
      else fitting room rest

/-- What fits comes from the pieces; by induction on them. -/
theorem mem_of_mem_fitting {room : Nat} {pieces : List (List UInt8)} {byte : UInt8}
    (member : byte ∈ fitting room pieces)
    : ∃ piece ∈ pieces, byte ∈ piece := by
  induction pieces generalizing room with
  | nil => cases member
  | cons piece rest ih =>
      rw [fitting] at member
      split at member
      · rcases List.mem_append.mp member with here | behind
        · exact ⟨piece, List.mem_cons_self, here⟩
        · obtain ⟨later, listed, held⟩ := ih behind
          exact ⟨later, List.mem_cons_of_mem _ listed, held⟩
      · obtain ⟨later, listed, held⟩ := ih member
        exact ⟨later, List.mem_cons_of_mem _ listed, held⟩

theorem length_fitting_le (room : Nat) (pieces : List (List UInt8))
    : (fitting room pieces).length ≤ room := by
  induction pieces generalizing room with
  | nil => exact Nat.zero_le room
  | cons piece rest ih =>
      rw [fitting]
      split
      · have behind := ih (room - piece.length)
        rw [List.length_append]
        omega
      · exact ih room

/-- Pieces that are appended one after the other stand behind the body as far as there is room; by
induction on the pieces. -/
theorem IsSound.body_after_appends (h : p.IsSound) (pieces : List (List UInt8))
    : (p.after (pieces.map .append)).body
      = p.body ++ fitting (p.capacity - p.body.length) pieces := by
  induction pieces generalizing p with
  | nil => exact (List.append_nil _).symm
  | cons piece rest ih =>
      have size := length_body h.size_le
      have within := h.bodySize_le_capacity
      rw [List.map_cons, after_cons, fitting]
      by_cases fits : p.bodySize + piece.length ≤ p.capacity
      · obtain ⟨q, taken, rebuilt, sound, body⟩ := (h.builds_append piece).built fits
        have room : q.capacity = p.capacity := rebuilt.room
        have left : q.capacity - q.body.length = p.capacity - p.body.length - piece.length := by
          rw [body, List.length_append, Nat.sub_add_eq, room]
        rw [if_pos (by omega), Packet.perform, taken, ← List.append_assoc, ← body, ← left]
        exact ih sound
      · rw [if_neg (by omega), Packet.perform, (h.builds_append piece).refused fits]
        exact ih h

end PacketBus.Packet
