import PacketBus.Proofs.Frame.Damage
import PacketBus.Proofs.Packet.Representation

/-! The checksum that a packet reports, and whether it is that of its body.
A checksum comes with a frame that was found right, and whatever builds on the packet drops it. Only
a byte of the payload that is overwritten in place leaves a checksum behind that is wrong.
-/

namespace PacketBus.Packet

variable {p q r : Packet}

/-- The checksum that the packet reports, if it reports one, is that of its body. -/
def ReportsTruly (p : Packet) : Prop :=
  ∀ sum, p.checksum? = some sum → sum = Checksum.ofBytes p.body

/-- An operation puts another byte in the place of one of a payload that has a checksum. -/
def Rewrites (p : Packet) : Operation → Prop
  | .setPayloadByte index byte =>
      p.verified = true ∧ ∃ old, p.payload[index]? = some old ∧ byte ≠ old
  | _ => False

/-- Some operation of a history does. -/
def RewritesIn (p : Packet) : List Operation → Prop
  | [] => False
  | operation :: rest => p.Rewrites operation ∨ (p.perform operation).2.RewritesIn rest

-----------------------------------------------------------------------------------------
-- What a checksum stands behind
-----------------------------------------------------------------------------------------

theorem checksum?_of_unverified (unverified : p.verified = false)
    : p.checksum? = none := by
  simp [checksum?, unverified]

/-- A checksum is reported only by a packet that is marked, and then it ends what is held. -/
theorem IsSound.reportsTruly_iff (h : p.IsSound)
    : p.ReportsTruly ↔ (p.verified = true → Checksum.ofBytes p.bytes = 0) := by
  cases verified : p.verified with
  | false => simp [ReportsTruly, checksum?_of_unverified verified]
  | true =>
      obtain ⟨_, held, reported⟩ := h.bytes_of_verified verified
      simp [ReportsTruly, reported, held, Checksum.ofBytes_append_eq_zero_iff]

-----------------------------------------------------------------------------------------
-- Operations that leave a payload as it is, or its checksum behind
-----------------------------------------------------------------------------------------

/-- A packet that is marked afterwards was so before and holds the same, or holds what ends in its
own checksum. -/
def KeepsRight (p q : Packet) : Prop :=
  q.verified = true → (p.verified = true ∧ q.bytes = p.bytes) ∨ Checksum.ofBytes q.bytes = 0

theorem KeepsRight.refl (p : Packet)
    : p.KeepsRight p :=
  fun verified => .inl ⟨verified, rfl⟩

theorem KeepsRight.trans (first : p.KeepsRight q) (second : q.KeepsRight r)
    : p.KeepsRight r := by
  intro verified
  rcases second verified with ⟨before, same⟩ | right
  · rcases first before with ⟨earlier, same'⟩ | right
    · exact .inl ⟨earlier, same.trans same'⟩
    · exact .inr (by rwa [same])
  · exact .inr right

theorem keepsRight_of_unverified (unverified : q.verified = false)
    : p.KeepsRight q :=
  fun verified => nomatch unverified.symm.trans verified

/-- A frame is marked when its last byte was compared with the checksum of those before it. -/
theorem IsSound.keepsRight_close (h : p.IsSound)
    : p.KeepsRight p.close.2 := by
  unfold Packet.close
  split
  · exact .refl p
  · next some =>
      split
      · exact fun verified => .inl ⟨verified, rfl⟩
      · next several =>
          simp only [verify]
          split
          · next right =>
              have sound : ({ p with receiver := .between, verified := true } : Packet).IsSound :=
                ⟨h.size_le, fun _ => show 2 ≤ p.size by omega⟩
              refine fun _ => .inr ?_
              obtain ⟨_, held, _⟩ := sound.bytes_of_verified rfl
              rw [held, Checksum.ofBytes_append_eq_zero_iff]
              exact right
          · exact fun verified => .inl ⟨verified, rfl⟩

theorem IsConsistent.keepsRight_receive (h : p.IsConsistent) (byte : UInt8)
    : p.KeepsRight (p.receive byte).2 := by
  have unverified : p.receiver ≠ .between → p.verified = false := fun inside =>
    Bool.eq_false_iff.2 fun verified => inside (h.between_of_verified verified)
  unfold Packet.receive
  split
  · exact keepsRight_of_unverified rfl
  · next place =>
      have none := unverified (by simp [place])
      split
      · exact h.keepsRight_close
      · split
        · exact fun verified => .inl ⟨verified, rfl⟩
        · exact keepsRight_of_unverified ((verified_store p byte).trans none)
  · next place =>
      have none := unverified (by simp [place])
      exact keepsRight_of_unverified ((verified_store _ _).trans none)

/-- A run of bytes keeps what each of its bytes keeps, by induction on the run. -/
theorem IsConsistent.keepsRight_receiveFrame (h : p.IsConsistent) (bytes : List UInt8)
    : p.KeepsRight (p.receiveFrame bytes).2 := by
  induction bytes generalizing p with
  | nil => exact .refl p
  | cons byte rest ih =>
      have first := h.keepsRight_receive byte
      have next := h.receive byte
      simp only [Packet.receiveFrame]
      split
      · next received =>
          rw [received] at first next
          exact first.trans (ih next)
      · next received =>
          rw [received] at first
          exact first

theorem keepsRight_settle {result : Except Failure Packet}
    (built : ∀ q, result = .ok q → p.KeepsRight q)
    : p.KeepsRight (p.settle result).2 := by
  cases result with
  | ok q => exact built q rfl
  | error e => exact .refl p

theorem keepsRight_withEmitter (p : Packet) (emitter : Emitter)
    : p.KeepsRight { p with emitter } :=
  .refl p

/-- Every operation but the overwriting of a byte in place, by the operations. -/
theorem IsConsistent.keepsRight_perform (h : p.IsConsistent) {operation : Operation}
    (other : ∀ index byte, operation ≠ .setPayloadByte index byte)
    : p.KeepsRight (p.perform operation).2 := by
  cases operation with
  | withCommand command =>
      exact keepsRight_settle fun _ built =>
        keepsRight_of_unverified (rebuilds_withCommand built).unverified
  | withPayload data =>
      exact keepsRight_settle fun _ built =>
        keepsRight_of_unverified (rebuilds_withPayload built).unverified
  | withMessage command data =>
      exact keepsRight_settle fun _ built =>
        keepsRight_of_unverified (rebuilds_withMessage built).unverified
  | append data =>
      exact keepsRight_settle fun _ built =>
        keepsRight_of_unverified (h.rebuilds_append built).unverified
  | clear => exact keepsRight_of_unverified rfl
  | setPayloadByte index byte => exact absurd rfl (other index byte)
  | receive byte => exact h.keepsRight_receive byte
  | receiveFrame bytes => exact h.keepsRight_receiveFrame bytes
  | abandonFrame => exact fun verified => .inl ⟨verified, rfl⟩
  | rewind =>
      refine keepsRight_settle fun q rewound => ?_
      obtain ⟨emitter, rfl⟩ := rewind_eq_ok rewound
      exact keepsRight_withEmitter p emitter
  | emit =>
      simp only [Packet.perform]
      split
      · next sent =>
          obtain ⟨emitter, rfl⟩ := emit_eq_ok sent
          exact keepsRight_withEmitter p emitter
      · exact .refl p
  | writeFrame buffer =>
      obtain ⟨emitter, same⟩ := p.writeFrame_snd buffer
      simp only [Packet.perform, same]
      exact keepsRight_withEmitter p emitter

-----------------------------------------------------------------------------------------
-- A byte overwritten in place
-----------------------------------------------------------------------------------------

/-- A byte of the payload lies in the bytes held, behind the command and before a checksum. -/
theorem bytes_of_payload {index : Nat} {old : UInt8} (found : p.payload[index]? = some old)
    : index + 1 < p.bodySize ∧ p.bytes[index + 1]? = some old := by
  have within := p.bodySize_le
  rw [payload, body, List.getElem?_drop, Nat.add_comm, List.getElem?_take] at found
  split at found
  · next inBody =>
      refine ⟨inBody, ?_⟩
      rw [bytes, List.getElem?_take_of_lt (Nat.lt_of_lt_of_le inBody within)]
      exact found
  · cases found

theorem setPayloadByte?_eq_some {index : Nat} {byte : UInt8}
    (written : p.setPayloadByte? index byte = some q)
    : ∃ old, p.payload[index]? = some old
        ∧ q = { p with storage := p.storage.set (index + 1) byte } := by
  unfold setPayloadByte? at written
  split at written
  · next inRange =>
      cases written
      exact ⟨_, List.getElem?_eq_getElem inRange, rfl⟩
  · cases written

/-- A packet in which a byte is overwritten reports the checksum that it reported before. -/
theorem IsSound.checksum?_setPayloadByte? (h : p.IsSound) {index : Nat} {byte : UInt8}
    (written : p.setPayloadByte? index byte = some q)
    : q.checksum? = p.checksum? := by
  have sound := h.setPayloadByte? written
  obtain ⟨old, found, rfl⟩ := setPayloadByte?_eq_some written
  obtain ⟨inBody, _⟩ := bytes_of_payload found
  by_cases verified : p.verified = true
  · obtain ⟨_, _, reported⟩ := h.bytes_of_verified verified
    obtain ⟨_, _, reported'⟩ := sound.bytes_of_verified verified
    have last : index + 1 ≠ p.size - 1 := by
      rw [bodySize, if_pos verified] at inBody
      omega
    rw [reported, reported']
    simp only [List.getD_eq_getElem?_getD, List.getElem?_set_ne last]
  · have unverified := Bool.eq_false_iff.mpr verified
    rw [checksum?_of_unverified unverified]
    exact checksum?_of_unverified unverified

/-- What a byte overwritten in place does to a checksum that was right: another byte makes it
wrong, since it is damage within eight bits. -/
theorem IsSound.reportsTruly_setPayloadByte? (h : p.IsSound) (truly : p.ReportsTruly)
    {index : Nat} {byte : UInt8} (written : p.setPayloadByte? index byte = some q)
    : q.ReportsTruly ↔ ¬p.Rewrites (.setPayloadByte index byte) := by
  have sound := h.setPayloadByte? written
  have right := h.reportsTruly_iff.mp truly
  obtain ⟨old, found, rfl⟩ := setPayloadByte?_eq_some written
  obtain ⟨_, held⟩ := bytes_of_payload found
  have bytes : ({ p with storage := p.storage.set (index + 1) byte } : Packet).bytes
      = p.bytes.set (index + 1) byte := List.take_set
  rw [sound.reportsTruly_iff, bytes]
  constructor
  · rintro clean ⟨verified, before, found', changed⟩
    obtain rfl : old = before := Option.some.inj (found.symm.trans found')
    obtain ⟨damaged, burst⟩ := Checksum.isBurst_damage_set held changed
    exact Checksum.ofBytes_ne_zero_of_evident (List.length_set ..) (right verified)
      ⟨damaged, .inl burst⟩ (clean verified)
  · intro stands verified
    obtain rfl : byte = old :=
      Decidable.not_not.mp fun changed => stands ⟨verified, old, found, changed⟩
    obtain ⟨inside, same⟩ := List.getElem?_eq_some_iff.mp held
    have kept : p.bytes.set (index + 1) byte = p.bytes := by
      rw [← same, List.set_getElem_self]
    rw [kept]
    exact right verified

-----------------------------------------------------------------------------------------
-- Any history
-----------------------------------------------------------------------------------------

/-- Every operation leaves a checksum that was right so, but for a byte of a payload that became
another. -/
theorem IsConsistent.reportsTruly_perform (h : p.IsConsistent) (truly : p.ReportsTruly)
    (operation : Operation)
    : (p.perform operation).2.ReportsTruly ↔ ¬p.Rewrites operation := by
  have kept : (∀ index byte, operation ≠ .setPayloadByte index byte)
      → (p.perform operation).2.ReportsTruly := by
    intro other
    rw [(h.toIsSound.perform operation).reportsTruly_iff]
    intro verified
    rcases h.keepsRight_perform other verified with ⟨before, same⟩ | right
    · rw [same]
      exact h.reportsTruly_iff.mp truly before
    · exact right
  cases operation with
  | setPayloadByte index byte =>
      cases written : p.setPayloadByte? index byte with
      | some q =>
          have judged := h.reportsTruly_setPayloadByte? truly written
          simpa only [Packet.perform, written] using judged
      | none =>
          have stands : ¬p.Rewrites (.setPayloadByte index byte) := by
            rintro ⟨_, old, found, _⟩
            obtain ⟨inRange, _⟩ := List.getElem?_eq_some_iff.mp found
            cases written.symm.trans (if_pos inRange)
          simp only [Packet.perform, written]
          exact iff_of_true truly stands
  | _ => exact iff_of_true (kept fun _ _ same => by cases same) id

/-- By induction on the history. -/
theorem IsConsistent.reportsTruly_after (h : p.IsConsistent) (truly : p.ReportsTruly)
    {history : List Operation} (stands : ¬p.RewritesIn history)
    : (p.after history).ReportsTruly := by
  induction history generalizing p with
  | nil => exact truly
  | cons operation rest ih =>
      obtain ⟨first, later⟩ := not_or.mp stands
      exact ih (h.perform operation).1 ((h.reportsTruly_perform truly operation).mpr first) later

/-- What an operation makes of the body has a checksum only if a frame brought both, but for bytes
that are overwritten in place. -/
theorem IsConsistent.reportsTruly_of_changed (h : p.IsConsistent) {operation : Operation}
    (other : ∀ index byte, operation ≠ .setPayloadByte index byte)
    (changed : (p.perform operation).2.body ≠ p.body)
    : (p.perform operation).2.ReportsTruly := by
  have sound := h.toIsSound.perform operation
  rw [sound.reportsTruly_iff]
  intro verified
  rcases h.keepsRight_perform other verified with ⟨before, same⟩ | right
  · obtain ⟨_, held, _⟩ := h.bytes_of_verified before
    obtain ⟨_, held', _⟩ := sound.bytes_of_verified verified
    rw [held, held'] at same
    exact absurd (List.append_inj_left' same rfl) changed
  · exact right

/-- A byte of the payload that becomes another leaves the checksum that was reported. -/
theorem IsConsistent.checksum?_of_rewrites (h : p.IsConsistent) {operation : Operation}
    (rewritten : p.Rewrites operation)
    : ∃ sum, p.checksum? = some sum ∧ (p.perform operation).2.checksum? = some sum := by
  cases operation with
  | setPayloadByte index byte =>
      obtain ⟨verified, old, found, _⟩ := rewritten
      obtain ⟨_, _, reported⟩ := h.bytes_of_verified verified
      obtain ⟨inRange, _⟩ := List.getElem?_eq_some_iff.mp found
      have written : p.setPayloadByte? index byte
          = some { p with storage := p.storage.set (index + 1) byte } := if_pos inRange
      have same := h.checksum?_setPayloadByte? written
      refine ⟨_, reported, ?_⟩
      simp only [Packet.perform, written]
      exact same.trans reported
  | _ => exact rewritten.elim

/-- A reported checksum is that of the body as long as no byte of a payload that has one is made
another. Nothing else that an owner does makes it wrong, and what is built drops it; but a byte
that is made another does, and the packet goes on reporting the checksum. -/
theorem checksum_is_right_until_rewritten (storage : List UInt8) (history : List Operation)
    : let p := (ofStorage storage).after history
      (¬(ofStorage storage).RewritesIn history → p.ReportsTruly)
      ∧ (∀ operation, p.ReportsTruly
          → ((p.perform operation).2.ReportsTruly ↔ ¬p.Rewrites operation))
      ∧ (∀ operation, (∀ index byte, operation ≠ .setPayloadByte index byte)
          → (p.perform operation).2.body ≠ p.body → (p.perform operation).2.ReportsTruly)
      ∧ ∀ operation, p.Rewrites operation
          → ∃ sum, p.checksum? = some sum ∧ (p.perform operation).2.checksum? = some sum := by
  intro p
  have fresh := isConsistent_ofStorage storage
  obtain ⟨consistent, _⟩ := fresh.after history
  refine ⟨?_, ?_, ?_, ?_⟩
  · intro stands
    exact fresh.reportsTruly_after nofun stands
  · intro operation truly
    exact consistent.reportsTruly_perform truly operation
  · intro operation other changed
    exact consistent.reportsTruly_of_changed other changed
  · intro operation rewritten
    exact consistent.checksum?_of_rewrites rewritten

/-- A packet that came with the checksum of its payload 02 reports it for the payload 03. -/
theorem checksum_is_wrong_once_rewritten
    : let history : List Operation := [.receiveFrame [0xC0, 0x01, 0x02, 0x1B, 0xC0]]
      let p := (ofStorage (List.replicate 8 0)).after history
      let rewriting : Operation := .setPayloadByte 0 0x03
      ¬(ofStorage (List.replicate 8 0)).RewritesIn history ∧ p.ReportsTruly
      ∧ p.Rewrites rewriting ∧ ¬(p.perform rewriting).2.ReportsTruly
      ∧ (p.perform rewriting).2.body = [0x01, 0x03]
      ∧ (p.perform rewriting).2.checksum? = some 0x1B
      ∧ Checksum.ofBytes [0x01, 0x03] = 0x1C
      ∧ (p.perform (.append [0x04])).2.body = [0x01, 0x02, 0x04]
      ∧ (p.perform (.append [0x04])).2.ReportsTruly := by
  intro history p rewriting
  obtain ⟨kept, judged, changing, reporting⟩ :=
    checksum_is_right_until_rewritten (List.replicate 8 0) history
  have stands : ¬(ofStorage (List.replicate 8 0)).RewritesIn history := by
    rintro (rewritten | none)
    · exact rewritten
    · exact none
  have rewritten : p.Rewrites rewriting :=
    ⟨by decide +kernel, 0x02, by decide +kernel, by decide⟩
  have sum : p.checksum? = some 0x1B := by decide +kernel
  refine ⟨stands, kept stands, rewritten, ?_, by decide +kernel, ?_, by decide +kernel,
    by decide +kernel, ?_⟩
  · exact fun truly => (judged rewriting (kept stands)).mp truly rewritten
  · obtain ⟨reported, before, after⟩ := reporting rewriting rewritten
    rw [after, ← before, sum]
  · exact changing (.append [0x04]) nofun (by decide +kernel)

end PacketBus.Packet
