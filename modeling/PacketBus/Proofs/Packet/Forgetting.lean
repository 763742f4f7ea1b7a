import PacketBus.Proofs.Packet.Resemblance

/-! What an owner can learn of the bytes that are left in a storage.
A byte is held only once it was stored, but for the one in the place of the command, which a payload
that is put behind it takes up as it is; whatever else an owner does, a packet that holds nothing
is as good as any other.
-/

namespace PacketBus.Packet

variable {p q : Packet}

-----------------------------------------------------------------------------------------
-- Where nothing is held, nothing was stored
-----------------------------------------------------------------------------------------

theorem storage_store_of_empty {byte : UInt8} (empty : (p.store byte).2.size = 0)
    : (p.store byte).2.storage = p.storage := by
  unfold store at empty ⊢
  split at empty
  · cases empty
  · next full => rw [if_neg full]

theorem storage_close (p : Packet)
    : p.close.2.storage = p.storage ∧ p.close.2.size = p.size := by
  unfold close
  split
  · exact ⟨rfl, rfl⟩
  · split
    · exact ⟨rfl, rfl⟩
    · simp only [verify]
      split
      · exact ⟨rfl, rfl⟩
      · exact ⟨rfl, rfl⟩

theorem storage_receive_of_empty {byte : UInt8} (empty : (p.receive byte).2.size = 0)
    : (p.receive byte).2.storage = p.storage := by
  unfold Packet.receive at empty ⊢
  split at empty
  · rfl
  · split at empty
    · next closing => rw [if_pos closing, p.storage_close.1]
    · next ordinary =>
        rw [if_neg ordinary]
        split at empty
        · next mark => rw [if_pos mark]
        · next content =>
            rw [if_neg content]
            exact storage_store_of_empty empty
  · exact storage_store_of_empty empty

/-- Inside a frame nothing that is held is let go. -/
theorem size_receive (inside : p.isMidFrame = true) (byte : UInt8)
    : p.size ≤ (p.receive byte).2.size := by
  have grows : ∀ r : Packet, ∀ content, r.size ≤ (r.store content).2.size := by
    intro r content
    unfold store
    split
    · exact Nat.le_succ r.size
    · exact Nat.le_refl r.size
  unfold Packet.receive
  split
  · next between => simp [isMidFrame, between] at inside
  · split
    · exact Nat.le_of_eq p.storage_close.2.symm
    · split
      · exact Nat.le_refl p.size
      · exact grows p byte
  · exact grows { p with receiver := .inside } _

/-- By induction on the run. -/
theorem size_receiveFrame (inside : p.isMidFrame = true) (bytes : List UInt8)
    : p.size ≤ (p.receiveFrame bytes).2.size := by
  induction bytes generalizing p with
  | nil => exact Nat.le_refl p.size
  | cons byte rest ih =>
      have first := size_receive inside byte
      have midFrame := p.isMidFrame_receive byte
      simp only [Packet.receiveFrame]
      generalize p.receive byte = received at first midFrame
      obtain ⟨result, r⟩ := received
      rcases result with failure | _ | _
      · exact first
      · exact Nat.le_trans first (ih (midFrame.mpr rfl))
      · exact first

/-- A run of bytes that ends with nothing held has stored none of them, by induction on the run. -/
theorem storage_receiveFrame_of_empty {bytes : List UInt8}
    (empty : (p.receiveFrame bytes).2.size = 0)
    : (p.receiveFrame bytes).2.storage = p.storage := by
  induction bytes generalizing p with
  | nil => rfl
  | cons byte rest ih =>
      have first := @storage_receive_of_empty p byte
      have midFrame := p.isMidFrame_receive byte
      simp only [Packet.receiveFrame] at empty ⊢
      generalize p.receive byte = received at first midFrame empty ⊢
      obtain ⟨result, r⟩ := received
      rcases result with failure | _ | _
      · exact first empty
      · have kept : r.size ≤ (r.receiveFrame rest).2.size := size_receiveFrame (midFrame.mpr rfl) rest
        exact (ih empty).trans (first (Nat.le_zero.mp (empty ▸ kept)))
      · exact first empty

/-- What was built did fit, and holds its body and nothing else. -/
theorem Builds.size_eq {attempt : Except Failure Packet} {fits : Prop} {body : List UInt8}
    (builds : p.Builds attempt fits body) (taken : attempt = .ok q)
    : fits ∧ q.size = body.length := by
  by_cases room : fits
  · obtain ⟨r, built, rebuilt, sound, rfl⟩ := builds.built room
    cases built.symm.trans taken
    exact ⟨room, rebuilt.size_eq sound⟩
  · cases (builds.refused room).symm.trans taken

theorem storage_settle_of_empty {attempt : Except Failure Packet}
    (kept : ∀ r, attempt = .ok r → r.size = 0 → r.storage = p.storage)
    (empty : (p.settle attempt).2.size = 0)
    : (p.settle attempt).2.storage = p.storage := by
  cases attempt with
  | error failure => rfl
  | ok r => exact kept r rfl empty

/-- An operation that leaves nothing held leaves the storage as it was, by the operations. -/
theorem IsSound.storage_perform_of_empty (h : p.IsSound) {operation : Operation}
    (empty : (p.perform operation).2.size = 0)
    : (p.perform operation).2.storage = p.storage := by
  cases operation with
  | withCommand command =>
      refine storage_settle_of_empty (fun r taken none => ?_) empty
      cases ((h.builds_withCommand command).size_eq taken).2.symm.trans none
  | withPayload data =>
      refine storage_settle_of_empty (fun r taken none => ?_) empty
      obtain ⟨room, size⟩ := (p.builds_withPayload data).size_eq taken
      rw [capacity] at room
      simp only [List.length_append, List.length_take] at size
      omega
  | withMessage command data =>
      refine storage_settle_of_empty (fun r taken none => ?_) empty
      cases ((p.builds_withMessage command data).size_eq taken).2.symm.trans none
  | append data =>
      refine storage_settle_of_empty (fun r taken none => ?_) empty
      have size := ((h.builds_append data).size_eq taken).2.symm.trans none
      obtain ⟨_, rfl⟩ := List.append_eq_nil_iff.mp (List.length_eq_zero_iff.mp size)
      simp only [Packet.append, List.length_nil, Nat.not_lt_zero, if_false] at taken
      cases taken
      simp [overwrite]
  | clear => rfl
  | setPayloadByte index byte =>
      simp only [Packet.perform] at empty ⊢
      split at empty
      · next r written =>
          -- A payload has bytes only if the packet holds some.
          unfold Packet.setPayloadByte? at written
          split at written
          · next inRange =>
              cases written
              have none : p.size = 0 := empty
              simp [payload, Packet.body, bodySize, none] at inRange
          · cases written
      · rfl
  | receive byte => exact storage_receive_of_empty empty
  | receiveFrame bytes => exact storage_receiveFrame_of_empty empty
  | abandonFrame => rfl
  | rewind =>
      refine storage_settle_of_empty (fun r rewound _ => ?_) empty
      obtain ⟨emitter, rfl⟩ := rewind_eq_ok rewound
      rfl
  | emit =>
      simp only [Packet.perform]
      split
      · next emitted =>
          obtain ⟨emitter, rfl⟩ := emit_eq_ok emitted
          rfl
      · rfl
  | writeFrame buffer =>
      obtain ⟨emitter, same⟩ := p.writeFrame_snd buffer
      simp only [Packet.perform, same]

-----------------------------------------------------------------------------------------
-- A history
-----------------------------------------------------------------------------------------

/-- Some operation of a history recalls the byte in the place of the command, before anything is
stored. -/
def RecallsIn (p : Packet) : List Operation → Prop
  | [] => False
  | operation :: rest =>
      p.isEmpty = true ∧ (p.Recalls operation ∨ (p.perform operation).2.RecallsIn rest)

/-- What an owner learns from a history: each answer, with what is seen of the packet behind it. -/
def transcript (p : Packet) : List Operation → List (Reply × View)
  | [] => []
  | operation :: rest =>
      let (reply, q) := p.perform operation
      (reply, q.view) :: q.transcript rest

theorem transcript_cons (p : Packet) (operation : Operation) (rest : List Operation)
    : p.transcript (operation :: rest)
      = ((p.perform operation).1, (p.perform operation).2.view)
        :: (p.perform operation).2.transcript rest :=
  rfl

theorem isEmpty_iff
    : p.isEmpty = true ↔ p.size = 0 := by
  simp [isEmpty]

theorem isEmpty_of_recallsIn {history : List Operation} (recalls : p.RecallsIn history)
    : p.isEmpty = true := by
  cases history with
  | nil => exact recalls.elim
  | cons operation rest => exact recalls.1

/-- The next operation answers the same for both and leaves them so, and the byte in the place of
the command stays one that is the same or is not recalled. -/
theorem Resembles.perform_of_safe (h : p.Resembles q) (sound : p.IsSound) {operation : Operation}
    {rest : List Operation}
    (safe : p.storage.head? = q.storage.head? ∨ ¬p.RecallsIn (operation :: rest))
    : let p' := (p.perform operation).2
      let q' := (q.perform operation).2
      (p.perform operation).1 = (q.perform operation).1
      ∧ p'.Resembles q' ∧ (p'.storage.head? = q'.storage.head? ∨ ¬p'.RecallsIn rest) := by
  intro p' q'
  have first : p.Recalls operation → p.storage.head? = q.storage.head? := by
    intro recalls
    refine safe.resolve_right fun never => never ⟨?_, .inl recalls⟩
    cases operation with
    | withPayload data => exact recalls.1
    | _ => exact recalls.elim
  obtain ⟨same, next⟩ := h.perform sound operation first
  refine ⟨same, next, ?_⟩
  by_cases held : p'.size = 0
  · have kept : p'.storage = p.storage := sound.storage_perform_of_empty held
    have kept' : q'.storage = q.storage :=
      (h.isSound sound).storage_perform_of_empty (next.size ▸ held)
    rw [kept, kept']
    by_cases empty : p.size = 0
    · exact safe.imp_right fun never later => never ⟨isEmpty_iff.mpr empty, .inr later⟩
    · exact .inl (h.head_of_held empty)
  · exact .inl (next.head_of_held held)

/-- Where the byte is not the same, the operation that recalls it shows it. -/
theorem Resembles.head_of_recalls (h : p.Resembles q) {operation : Operation}
    (recalls : p.Recalls operation)
    (same : (p.perform operation).2.view = (q.perform operation).2.view)
    : p.storage.head? = q.storage.head? := by
  cases operation with
  | withPayload data =>
      obtain ⟨_, room⟩ := recalls
      obtain ⟨r, taken, rebuilt, _, body⟩ := (p.builds_withPayload data).built room
      obtain ⟨r', taken', rebuilt', _, body'⟩ := (q.builds_withPayload data).built (h.room ▸ room)
      simp only [Packet.perform, taken, taken'] at same
      have bodies : r.body = r'.body := congrArg View.body same
      rw [body, body'] at bodies
      have fronts := List.append_cancel_right bodies
      simpa only [List.head?_take, if_neg Nat.one_ne_zero] using congrArg List.head? fronts
  | _ => exact recalls.elim

/-- An owner can tell the two apart by a history exactly if the byte in the place of the command is
not the same and some operation recalls it; by induction on the history. -/
theorem Resembles.transcript_eq_iff (h : p.Resembles q) (sound : p.IsSound)
    (history : List Operation)
    : p.transcript history = q.transcript history
      ↔ p.storage.head? = q.storage.head? ∨ ¬p.RecallsIn history := by
  induction history generalizing p q with
  | nil => exact iff_of_true rfl (.inr id)
  | cons operation rest ih =>
      rw [transcript_cons, transcript_cons]
      constructor
      · intro same
        obtain ⟨now, later⟩ := List.cons.inj same
        by_cases recalls : p.Recalls operation
        · exact .inl (h.head_of_recalls recalls (congrArg Prod.snd now))
        · obtain ⟨_, next⟩ := h.perform sound operation (absurd · recalls)
          rcases (ih next (sound.perform operation)).mp later with head | never
          · by_cases recallsLater : (p.perform operation).2.RecallsIn rest
            · -- What is recalled later was there before, since nothing is stored until then.
              have empty := isEmpty_iff.mp (isEmpty_of_recallsIn recallsLater)
              rw [sound.storage_perform_of_empty empty,
                (h.isSound sound).storage_perform_of_empty (next.size ▸ empty)] at head
              exact .inl head
            · exact .inr fun ⟨_, either⟩ => either.elim recalls recallsLater
          · exact .inr fun ⟨_, either⟩ => either.elim recalls never
      · intro safe
        obtain ⟨reply, next, safe'⟩ := h.perform_of_safe sound safe
        rw [reply, next.toAlike.view, (ih next (sound.perform operation)).mpr safe']

-----------------------------------------------------------------------------------------
-- An owner who goes by what is seen
-----------------------------------------------------------------------------------------

/-- What an owner does who goes by the answers, and by what is seen of the packet behind each. -/
inductive Plan (A : Type) where
  | finish (outcome : A)
  | perform (operation : Operation) (next : Reply → View → Plan A)

/-- The operations that a plan comes to on a packet, in order, and its outcome. -/
def Plan.play {A : Type} : Plan A → Packet → List Operation × A
  | finish outcome, _ => ([], outcome)
  | perform operation next, p =>
      let (reply, q) := p.perform operation
      let (rest, outcome) := (next reply q.view).play q
      (operation :: rest, outcome)

theorem Plan.play_perform {A : Type} (operation : Operation) (next : Reply → View → Plan A)
    (p : Packet)
    : (perform operation next).play p
      = let q := (p.perform operation).2
        let rest := (next (p.perform operation).1 q.view).play q
        (operation :: rest.1, rest.2) :=
  rfl

/-- A plan that recalls nothing, or recalls the same, comes to the same on both and leaves them so;
by induction on the plan. -/
theorem Resembles.play {A : Type} (h : p.Resembles q) (sound : p.IsSound) (plan : Plan A)
    (safe : p.storage.head? = q.storage.head? ∨ ¬p.RecallsIn (plan.play p).1)
    : plan.play p = plan.play q
      ∧ (p.after (plan.play p).1).Resembles (q.after (plan.play p).1) := by
  induction plan generalizing p q with
  | finish outcome => exact ⟨rfl, h⟩
  | perform operation next ih =>
      simp only [Plan.play_perform] at safe ⊢
      obtain ⟨reply, later, safe'⟩ := h.perform_of_safe sound safe
      obtain ⟨same, final⟩ := ih _ _ later (sound.perform operation) safe'
      rw [← reply, ← later.toAlike.view, same]
      exact ⟨rfl, same ▸ final⟩

-----------------------------------------------------------------------------------------
-- Packets without a past
-----------------------------------------------------------------------------------------

theorem resembles_clear (room : p.capacity = q.capacity)
    : p.clear.Resembles q.clear :=
  ⟨⟨room, rfl, rfl, rfl, rfl⟩, rfl, rfl, nofun⟩

theorem resembles_ofStorage {storage storage' : List UInt8}
    (room : storage.length = storage'.length)
    : (ofStorage storage).Resembles (ofStorage storage') :=
  ⟨⟨room, rfl, rfl, rfl, rfl⟩, rfl, rfl, nofun⟩

end PacketBus.Packet
