import PacketBus.Proofs.Reception.Content

/-! The reception of whole frames.
A frame for whose content there is room is complete with its last byte and not before, if the
packet was between frames when its first byte came.
-/

namespace PacketBus

/-- Any content as it goes over the wire between two delimiters, be its last byte right or not. -/
def Frame.enclosed (content : List UInt8) : List UInt8 :=
  delimiter :: stuff content ++ [delimiter]

namespace Packet

open PacketBus.Frame (delimiter Item)

variable {p : Packet} {n : Nat}

theorem Collects.isBetweenFrames (h : p.Collects n [])
    : p.IsBetweenFrames :=
  .inr ⟨h.inside, h.size⟩

theorem IsBetweenFrames.absorbs_delimiters (h : p.IsBetweenFrames) (count : Nat)
    : ∃ q, Absorbs p (List.replicate count delimiter) q ∧ q.IsBetweenFrames
        ∧ q.capacity = p.capacity := by
  cases count with
  | zero => exact ⟨p, .nil, h, rfl⟩
  | succ count =>
      obtain ⟨q, opened, collects⟩ := h.receive_delimiter
      have skipped : Absorbs q (List.replicate count delimiter) q := by
        refine collects.absorbs_delimiters ?_
        intro byte member
        exact List.eq_of_mem_replicate member
      exact ⟨q, .cons opened rfl skipped, collects.isBetweenFrames, collects.room⟩

theorem Collects.absorbs_stuff (h : p.Collects n []) {content : List UInt8}
    (fits : content.length ≤ n)
    : ∃ q, Absorbs p (Frame.stuff content) q ∧ q.Collects n content := by
  obtain ⟨q, absorbed, collects⟩ :=
    h.absorbs_items (content.map Item.ofByte) (by simpa using fits)
  rw [Item.wires_ofByte] at absorbed
  rw [Item.values_ofByte, List.nil_append] at collects
  exact ⟨q, absorbed, collects⟩

/-- Content for which there is room is judged with its closing delimiter and not before. -/
theorem IsBetweenFrames.ends_enclosed (h : p.IsBetweenFrames) {content : List UInt8}
    (nonempty : content ≠ []) (fits : content.length ≤ p.capacity)
    : ∃ q, Ends p (Frame.enclosed content) (verdict content) q ∧ q.receiver = .between
        ∧ q.Holds p.capacity content ∧ (verdict content = .ok .complete → q.verified = true) := by
  obtain ⟨opened, first, empty⟩ := h.receive_delimiter
  obtain ⟨filled, absorbed, collects⟩ := empty.absorbs_stuff fits
  obtain ⟨q, closed, between, holds, verified⟩ := collects.receive_delimiter nonempty
  exact ⟨q, .intro _ delimiter filled (.cons first rfl absorbed) closed, between, holds, verified⟩

/-- A frame with room for its content is complete with its closing delimiter, since the last byte
of the content is the checksum of the others. -/
theorem IsBetweenFrames.ends_wire (h : p.IsBetweenFrames) {body : List UInt8} (nonempty : body ≠ [])
    (fits : body.length + 1 ≤ p.capacity)
    : ∃ q, Ends p (Frame.wire body) (.ok .complete) q ∧ q.receiver = .between
        ∧ q.Holds p.capacity (body ++ [Checksum.ofBytes body]) ∧ q.verified = true := by
  have fits' : (body ++ [Checksum.ofBytes body]).length ≤ p.capacity := by simpa using fits
  obtain ⟨q, ended, between, holds, verified⟩ := h.ends_enclosed (by simp) fits'
  have right : verdict (body ++ [Checksum.ofBytes body]) = .ok .complete := by
    rw [verdict_append nonempty, if_pos rfl]
  rw [right] at ended
  exact ⟨q, ended, between, holds, verified right⟩

/-- What an owner sees of a packet that was received whole. -/
theorem Holds.message {command checksum : UInt8} {payload : List UInt8}
    (h : p.Holds n (command :: payload ++ [checksum])) (verified : p.verified = true)
    : p.command? = some command ∧ p.payload = payload ∧ p.checksum? = some checksum := by
  obtain ⟨_, covered⟩ := h.closing
  have long : 2 ≤ p.size := by
    rw [h.size]
    simp
  refine ⟨?_, ?_, ?_⟩
  · rw [command?, h.bytes]
    rfl
  · rw [Packet.payload, body, bodySize, if_pos verified, covered]
    rfl
  · rw [checksum?, verified, h.bytes, List.getLast?_concat]
    simp [long]

end Packet

end PacketBus
