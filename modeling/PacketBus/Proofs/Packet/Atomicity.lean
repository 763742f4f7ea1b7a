import PacketBus.Proofs.Packet.Accesses
import PacketBus.Proofs.Packet.Building
import PacketBus.Proofs.Packet.Verified

/-! What a builder does to a packet in memory.
A builder that is composed of others could stop half-way; it compares the room before it touches
anything, so that it either comes to the whole of what it builds or leaves every field as it is.
-/

namespace PacketBus

open Packet (Failure Operation Reply)

/-- An operation builds the body if it fits, and then no checksum is held and both places in a frame
are as they were. What does not fit is refused for lack of room, and no field is changed. -/
structure PacketImage.Builds (i : PacketImage) (operation : Operation) (fits : Prop)
    (body : List UInt8) : Prop where
  built
    : fits
      → ∃ j : PacketImage, i.perform? operation = some (.built (.ok ()), j)
        ∧ j.body? = some body ∧ j.checksum? = some none
        ∧ j.storage.length = i.storage.length
        ∧ j.receiver = i.receiver ∧ j.emitter = i.emitter
        ∧ j.next = i.next ∧ j.checksum = i.checksum
  refused : ¬fits → i.perform? operation = some (.built (.error .noRoom), i)

/-- Data that is put down in two pieces, the second where the first one ends, is put down as a
whole. -/
theorem overwrite_append {storage front back : List UInt8} {start : Nat}
    (room : start + (front ++ back).length ≤ storage.length)
    : overwrite (overwrite storage start front) (start + front.length) back
      = overwrite storage start (front ++ back) := by
  rw [List.length_append] at room
  have first : start + front.length ≤ storage.length := by omega
  have placed : (storage.take start ++ front).length = start + front.length := by
    rw [List.length_append, List.length_take]
    omega
  have behind : (overwrite storage start front).drop (start + front.length + back.length)
      = storage.drop (start + (front ++ back).length) := by
    rw [overwrite, ← List.drop_drop, ← placed, List.drop_left, placed, List.drop_drop,
      List.length_append, Nat.add_assoc]
  calc
    overwrite (overwrite storage start front) (start + front.length) back
        = (storage.take start ++ front) ++ back
            ++ storage.drop (start + (front ++ back).length) := by
          rw [overwrite, take_overwrite first, behind]
    _ = overwrite storage start (front ++ back) := by
          rw [overwrite, List.append_assoc (storage.take start)]

namespace Packet

variable {p q : Packet}

/-- What holds of the attempt holds of the operation in memory, by what the attempt comes to. -/
theorem Builds.image {attempt : Except Failure Packet} {fits : Prop} {body : List UInt8}
    {operation : Operation} (builds : p.Builds attempt fits body) (sound : p.IsSound)
    (settles : p.perform operation = p.settle attempt)
    : p.image.Builds operation fits body where
  built room := by
    obtain ⟨q, taken, rebuilt, sound', rfl⟩ := builds.built room
    refine ⟨q.image, ?_, sound'.body?_image, ?_, rebuilt.room, congrArg Phase.code rebuilt.receiver,
      congrArg (fun place => place.phase.code) rebuilt.emitter,
      congrArg Emitter.next rebuilt.emitter, congrArg Emitter.checksum rebuilt.emitter⟩
    · rw [sound.perform?_image, settles, taken]
      rfl
    · rw [sound'.checksum?_image, checksum?_of_unverified rebuilt.unverified]
  refused small := by
    rw [sound.perform?_image, settles, builds.refused small]
    rfl

/-- Data that fits as a whole is appended in two pieces to the same packet as in one. -/
theorem append_append {front back : List UInt8}
    (fits : p.bodySize + (front ++ back).length ≤ p.capacity)
    : ∃ q r, p.append front = .ok q ∧ q.append back = .ok r
        ∧ p.append (front ++ back) = .ok r := by
  have whole : ¬p.capacity - p.bodySize < (front ++ back).length := by omega
  rw [List.length_append] at fits
  have first : ¬p.capacity - p.bodySize < front.length := by omega
  have appended : p.append front = .ok _ := if_neg first
  have placed : p.bodySize + front.length ≤ p.storage.length := by
    rw [capacity] at fits
    omega
  have room : (overwrite p.storage p.bodySize front).length = p.capacity := length_overwrite placed
  have second : ¬(overwrite p.storage p.bodySize front).length - (p.bodySize + front.length)
      < back.length := by omega
  refine ⟨_, _, appended, if_neg second, ?_⟩
  refine (if_neg whole).trans ?_
  rw [← overwrite_append (by rw [List.length_append, ← capacity]; exact fits),
    List.length_append, ← Nat.add_assoc]
  rfl

/-- A packet that holds a command has it in the first place of its storage. -/
theorem head?_body {command : UInt8} (held : p.body.head? = some command)
    : p.storage.head? = some command := by
  rw [body, List.head?_take] at held
  split at held
  · cases held
  · exact held

/-- Whatever was done to a packet, each builder is atomic and comes to exactly its body. A command
needs one place, command and payload need one place more than the payload, and what is appended
needs room behind the body alone, for which a received checksum takes none. A payload that is
replaced comes behind the command that is held, and data that fits is appended in pieces as in
one. -/
theorem builders_are_atomic_and_exact (storage : List UInt8) (history : List Operation)
    : ∃ (replies : List Reply) (i : PacketImage) (body : List UInt8) (first : UInt8),
        (PacketImage.ofStorage storage).performAll? history = some (replies, i)
        ∧ i.body? = some body ∧ (∀ command, body.head? = some command → first = command)
        ∧ (∀ command, i.Builds (.withCommand command) (storage.length ≠ 0)
            (command :: body.drop 1))
        ∧ (∀ command data, i.Builds (.withMessage command data) (1 + data.length ≤ storage.length)
            (command :: data))
        ∧ (∀ data, i.Builds (.withPayload data) (1 + data.length ≤ storage.length) (first :: data))
        ∧ (∀ data, i.Builds (.append data) (body.length + data.length ≤ storage.length)
            (body ++ data))
        ∧ ∀ front back, body.length + (front ++ back).length ≤ storage.length
          → ∃ j k : PacketImage, i.perform? (.append front) = some (.built (.ok ()), j)
            ∧ j.perform? (.append back) = some (.built (.ok ()), k)
            ∧ i.perform? (.append (front ++ back)) = some (.built (.ok ()), k) := by
  obtain ⟨consistent, room⟩ := (isConsistent_ofStorage storage).after history
  have run := (isSound_ofStorage storage).performAll?_image history
  generalize (ofStorage storage).after history = p at consistent room run
  have sound := consistent.toIsSound
  have size : p.body.length = p.bodySize := length_body sound.size_le
  have roomy : p.capacity = storage.length := room
  refine ⟨_, p.image, p.body, p.storage.headD 0, run, sound.body?_image, ?_, ?_, ?_, ?_, ?_, ?_⟩
  · intro command held
    rw [List.headD_eq_head?_getD, head?_body held, Option.getD_some]
  · intro command
    have builds : p.image.Builds (.withCommand command) _ _ :=
      (sound.builds_withCommand command).image sound rfl
    rwa [roomy, Nat.one_le_iff_ne_zero] at builds
  · intro command data
    have builds : p.image.Builds (.withMessage command data) _ _ :=
      (p.builds_withMessage command data).image sound rfl
    rwa [roomy] at builds
  · intro data
    have builds : p.image.Builds (.withPayload data) _ _ :=
      (p.builds_withPayload data).image sound rfl
    rw [roomy] at builds
    refine ⟨fun fits => ?_, builds.refused⟩
    have some : p.storage ≠ [] := by
      rintro none
      rw [← roomy, capacity, none, List.length_nil] at fits
      omega
    have placed : p.storage.take 1 = [p.storage.headD 0] := by
      cases stored : p.storage with
      | nil => exact absurd stored some
      | cons first rest => rfl
    rw [placed] at builds
    exact builds.built fits
  · intro data
    have builds : p.image.Builds (.append data) _ _ := (sound.builds_append data).image sound rfl
    rwa [roomy, ← size] at builds
  · intro front back fits
    rw [size, ← roomy] at fits
    obtain ⟨q, r, first, second, whole⟩ := append_append fits
    refine ⟨q.image, r.image, ?_, ?_, ?_⟩
    · rw [sound.perform?_image, perform, first]
      rfl
    · rw [(sound.append first).perform?_image, perform, second]
      rfl
    · rw [sound.perform?_image, perform, whole]
      rfl

/-- A packet of five bytes has received a body of three with its checksum and is being sent from its
second place on: two more bytes fit, in one piece or in two, and three do not. -/
theorem builders_are_atomic_and_exact_behind_a_checksum
    : let history : List Operation :=
        [.receiveFrame [0xC0, 0x01, 0x02, 0x03, 0x48, 0xC0], .emit, .emit]
      ∃ (replies : List Reply) (i j k : PacketImage),
        (PacketImage.ofStorage [0, 0, 0, 0, 0]).performAll? history = some (replies, i)
        ∧ i.checksum? = some (some 0x48) ∧ i.next = 1
        ∧ i.perform? (.append [0x04]) = some (.built (.ok ()), j)
        ∧ j.perform? (.append [0x05]) = some (.built (.ok ()), k)
        ∧ i.perform? (.append [0x04, 0x05]) = some (.built (.ok ()), k)
        ∧ i.perform? (.append [0x04, 0x05, 0x06]) = some (.built (.error .noRoom), i)
        ∧ i.perform? (.withPayload [0x02, 0x03, 0x04, 0x05, 0x06])
            = some (.built (.error .noRoom), i) := by
  intro history
  have fresh := isSound_ofStorage [0, 0, 0, 0, 0]
  obtain ⟨replies, i, body, first, run, held, _, _, _, payload, appended, pieces⟩ :=
    builders_are_atomic_and_exact [0, 0, 0, 0, 0] history
  -- The packet behind the history is named, so that only what is asked of it is evaluated.
  obtain ⟨p, reached⟩ : ∃ p, (ofStorage [0, 0, 0, 0, 0]).after history = p := ⟨_, rfl⟩
  have sound : p.IsSound := reached ▸ fresh.after history
  have same := run.symm.trans (fresh.performAll?_image history)
  rw [reached] at same
  obtain rfl : i = p.image := congrArg Prod.snd (Option.some.inj same)
  obtain rfl : p.body = body := Option.some.inj (sound.body?_image.symm.trans held)
  have built : p.body = [0x01, 0x02, 0x03] := by
    rw [← reached]
    decide +kernel
  rw [built] at appended pieces
  obtain ⟨j, k, front, back, whole⟩ := pieces [0x04] [0x05] (by decide)
  refine ⟨replies, p.image, j, k, run, ?_, ?_, front, back, whole, ?_, ?_⟩
  · rw [sound.checksum?_image, ← reached]
    decide +kernel
  · rw [← reached]
    decide +kernel
  · exact (appended [0x04, 0x05, 0x06]).refused (by decide)
  · exact (payload [0x02, 0x03, 0x04, 0x05, 0x06]).refused (by decide)

end Packet

end PacketBus
