import PacketBus.Proofs.Packet.Soundness
import PacketBus.Proofs.Reception.Frames

/-! A receiver that was given up between two frames, beside one that has never received anything.
Both take the same bytes in step from then on: nothing that is left of an earlier frame is seen.
-/

namespace PacketBus.Packet

open PacketBus.Frame (delimiter escapeMark)

/-- Two packets show their owners the same message. -/
structure Agrees (p q : Packet) : Prop where
  command : p.command? = q.command?
  payload : p.payload = q.payload
  checksum : p.checksum? = q.checksum?

/-- Two packets with room for `capacity` bytes are at the same place of a frame, and hold the same
of it. Between frames it does not matter what they hold. -/
inductive InStep (capacity : Nat) (p q : Packet) : Prop
  | between (place : p.receiver = .between) (place' : q.receiver = .between)
    (room : p.capacity = capacity) (room' : q.capacity = capacity)
  | inside {content} (collects : p.Collects capacity content)
    (collects' : q.Collects capacity content)
  | escaped {content} (place : p.receiver = .escaped) (place' : q.receiver = .escaped)
    (holds : p.Holds capacity content) (holds' : q.Holds capacity content)

variable {n : Nat} {p q : Packet}

theorem InStep.room (h : InStep n p q)
    : p.capacity = n := by
  cases h with
  | between _ _ room _ => exact room
  | inside collects _ => exact collects.room
  | escaped _ _ holds _ => exact holds.room

/-- What is held, and whether it is verified, is all that an owner sees. -/
theorem Holds.agrees {content : List UInt8} (h : p.Holds n content) (h' : q.Holds n content)
    (verified : p.verified = q.verified)
    : p.Agrees q := by
  have bytes : p.bytes = q.bytes := h.bytes.trans h'.bytes.symm
  have size : p.size = q.size := h.size.trans h'.size.symm
  have bodySize : p.bodySize = q.bodySize := by
    rw [Packet.bodySize, Packet.bodySize, verified, size]
  have body_eq : ∀ r : Packet, r.body = r.bytes.take r.bodySize := by
    intro r
    rw [Packet.bytes, List.take_take, Nat.min_eq_left r.bodySize_le]
    rfl
  refine ⟨?_, ?_, ?_⟩
  · rw [command?, command?, bytes]
  · rw [payload, payload, body_eq, body_eq, bytes, bodySize]
  · rw [checksum?, checksum?, verified, size, bytes]

/-- A byte that is stored keeps both packets in step, whether there is room for it or not. -/
theorem Holds.store_inStep {content : List UInt8} (h : p.Holds n content) (h' : q.Holds n content)
    (inside : p.receiver = .inside) (inside' : q.receiver = .inside) (byte : UInt8)
    : (p.store byte).1 = (q.store byte).1 ∧ (p.store byte).1 ≠ .ok .complete
      ∧ InStep n (p.store byte).2 (q.store byte).2 := by
  by_cases fits : content.length < n
  · obtain ⟨r, stored, holds, phase⟩ := h.store_of_lt fits byte
    obtain ⟨r', stored', holds', phase'⟩ := h'.store_of_lt fits byte
    rw [stored, stored']
    exact ⟨rfl, nofun, .inside ⟨holds, phase.trans inside⟩ ⟨holds', phase'.trans inside'⟩⟩
  · rw [h.store_of_ge (Nat.not_lt.mp fits), h'.store_of_ge (Nat.not_lt.mp fits)]
    exact ⟨rfl, nofun, .between rfl rfl h.room h'.room⟩

/-- A byte brings the same to both, and a packet that it completes shows the same message; by the
places in a frame. -/
theorem InStep.receive (h : InStep n p q) (byte : UInt8)
    : (p.receive byte).1 = (q.receive byte).1 ∧ InStep n (p.receive byte).2 (q.receive byte).2
      ∧ ((q.receive byte).1 = .ok .complete → (p.receive byte).2.Agrees (q.receive byte).2) := by
  cases h with
  | between place place' room room' =>
      obtain ⟨r, opened, collects⟩ := receive_of_between place byte
      obtain ⟨r', opened', collects'⟩ := receive_of_between place' byte
      rw [opened, opened']
      exact ⟨rfl, .inside (room ▸ collects) (room' ▸ collects'), nofun⟩
  | @inside content collects collects' =>
      by_cases isDelimiter : byte = delimiter
      · subst isDelimiter
        by_cases empty : content = []
        · subst empty
          rw [collects.receive_delimiter_nil, collects'.receive_delimiter_nil]
          exact ⟨rfl, .inside collects collects', nofun⟩
        · obtain ⟨r, closed, between, holds, verified⟩ := collects.receive_delimiter empty
          obtain ⟨r', closed', between', holds', verified'⟩ := collects'.receive_delimiter empty
          rw [closed, closed']
          refine ⟨rfl, .between between between' holds.room holds'.room, fun complete => ?_⟩
          exact holds.agrees holds' ((verified complete).trans (verified' complete).symm)
      · by_cases isMark : byte = escapeMark
        · subst isMark
          rw [receive_escapeMark_of_inside collects.inside,
            receive_escapeMark_of_inside collects'.inside]
          exact ⟨rfl, .escaped rfl rfl (collects.withReceiver .escaped)
            (collects'.withReceiver .escaped), nofun⟩
        · rw [receive_ordinary_of_inside collects.inside ⟨isDelimiter, isMark⟩,
            receive_ordinary_of_inside collects'.inside ⟨isDelimiter, isMark⟩]
          obtain ⟨same, incomplete, inStep⟩ :=
            collects.store_inStep collects'.toHolds collects.inside collects'.inside byte
          exact ⟨same, inStep, fun complete => absurd (same.trans complete) incomplete⟩
  | escaped place place' holds holds' =>
      rw [receive_of_escaped place, receive_of_escaped place']
      obtain ⟨same, incomplete, inStep⟩ :=
        (holds.withReceiver .inside).store_inStep (holds'.withReceiver .inside) rfl rfl
          (Frame.unescape byte)
      exact ⟨same, inStep, fun complete => absurd (same.trans complete) incomplete⟩

/-- Whatever a packet was left with, behind a frame that was given up it is in step with one that
has never received anything. -/
theorem inStep_abandonFrame (p : Packet)
    : InStep p.capacity p.abandonFrame (fresh p.capacity) :=
  .between rfl rfl rfl List.length_replicate

-----------------------------------------------------------------------------------------
-- The first packet of a run
-----------------------------------------------------------------------------------------

/-- The first packet that a run of bytes completes, and how many bytes it takes to complete it. -/
def firstPacket? (p : Packet) : List UInt8 → Option (Packet × Nat)
  | [] => none
  | byte :: rest =>
      match p.receive byte with
      | (.ok .complete, q) => some (q, 1)
      | (.ok .unfinished, q) | (.error _, q) =>
          (q.firstPacket? rest).map fun found => (found.1, found.2 + 1)

theorem firstPacket?_cons_of_complete {byte : UInt8} {q : Packet}
    (complete : p.receive byte = (.ok .complete, q)) (rest : List UInt8)
    : p.firstPacket? (byte :: rest) = some (q, 1) := by
  simp only [firstPacket?, complete]

theorem firstPacket?_cons_of_incomplete {byte : UInt8}
    (incomplete : (p.receive byte).1 ≠ .ok .complete) (rest : List UInt8)
    : p.firstPacket? (byte :: rest)
      = ((p.receive byte).2.firstPacket? rest).map fun found => (found.1, found.2 + 1) := by
  rcases received : p.receive byte with ⟨failure | _ | _, q⟩
  · simp only [firstPacket?, received]
  · simp only [firstPacket?, received]
  · exact absurd (congrArg Prod.fst received) incomplete

/-- Behind a run that completes no packet, a byte completes the first one if it completes any; by
induction on the run. -/
theorem firstPacket?_concat (p : Packet) {front : List UInt8} (quiet : p.firstPacket? front = none)
    (byte : UInt8)
    : p.firstPacket? (front ++ [byte])
      = match (p.fed front).receive byte with
        | (.ok .complete, q) => some (q, front.length + 1)
        | (.ok .unfinished, _) | (.error _, _) => none := by
  induction front generalizing p with
  | nil =>
      rcases received : p.receive byte with ⟨failure | _ | _, q⟩
      all_goals simp [firstPacket?, received]
  | cons first rest ih =>
      by_cases complete : (p.receive first).1 = .ok .complete
      · cases (firstPacket?_cons_of_complete (Prod.ext complete rfl) rest).symm.trans quiet
      · rw [firstPacket?_cons_of_incomplete complete, Option.map_eq_none_iff] at quiet
        rw [List.cons_append, firstPacket?_cons_of_incomplete complete, ih _ quiet, fed_cons]
        split
        · rfl
        · rfl
        · rfl

/-- A packet that has kept in step with a fresh one finds the first packet where the fresh one finds
it. -/
theorem InStep.concat {bytes : List UInt8} (h : InStep n p (q.fed bytes))
    (quiet : q.firstPacket? bytes = none) (byte : UInt8)
    : InStep n (p.receive byte).2 (q.fed (bytes ++ [byte]))
      ∧ match p.receive byte with
        | (.ok .complete, response) =>
            ∃ packet, q.firstPacket? (bytes ++ [byte]) = some (packet, (bytes ++ [byte]).length)
              ∧ response.Agrees packet
        | (.ok .unfinished, _) | (.error _, _) => q.firstPacket? (bytes ++ [byte]) = none := by
  obtain ⟨same, inStep, agrees⟩ := h.receive byte
  refine ⟨by rwa [fed_append], ?_⟩
  rw [q.firstPacket?_concat quiet byte]
  generalize p.receive byte = received at same agrees ⊢
  generalize (q.fed bytes).receive byte = received' at same agrees ⊢
  obtain ⟨result, response⟩ := received
  obtain ⟨result', packet⟩ := received'
  obtain rfl : result = result' := same
  rcases result with failure | _ | _
  · rfl
  · rfl
  · exact ⟨packet, by simp, agrees rfl⟩

end PacketBus.Packet
