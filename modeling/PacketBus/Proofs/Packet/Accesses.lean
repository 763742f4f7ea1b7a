import PacketBus.Proofs.Emission.Outstanding
import PacketBus.Proofs.Packet.Image
import PacketBus.Proofs.Packet.Representation

/-! Every access that an operation makes to a packet in memory finds its bytes.
The operations on the image of a consistent packet have results, which are those of the packet, and
so a history in memory never asks for a byte outside the storage or the sender's buffer.
-/

namespace PacketBus.Packet

open Memory

variable {p q : Packet}

-----------------------------------------------------------------------------------------
-- What is read of a packet in memory
-----------------------------------------------------------------------------------------

theorem minus?_of_le {size less : Nat} (le : less ≤ size)
    : minus? size less = some (size - less) :=
  if_pos le

theorem slice?_zero {storage : List UInt8} {stop : Nat} (within : stop ≤ storage.length)
    : slice? storage 0 stop = some (storage.take stop) := by
  rw [slice?, if_pos ⟨Nat.zero_le _, within⟩, List.drop_zero]

theorem load?_of_lt {storage : List UInt8} {place : Nat} (within : place < storage.length)
    : load? storage place = some (storage.getD place 0) := by
  simp [load?, within]

theorem put?_of_lt {storage : List UInt8} {place : Nat} (within : place < storage.length)
    (byte : UInt8)
    : put? storage place byte = some (storage.set place byte) :=
  if_pos within

theorem IsSound.bodySize?_image (h : p.IsSound)
    : p.image.bodySize? = some p.bodySize := by
  cases verified : p.verified with
  | false => simp [PacketImage.bodySize?, image, verified, bodySize]
  | true =>
      have long := h.size_of_verified verified
      simp [PacketImage.bodySize?, image, verified, bodySize, minus?_of_le (Nat.le_of_succ_le long)]

theorem IsSound.body?_image (h : p.IsSound)
    : p.image.body? = some p.body := by
  rw [PacketImage.body?, h.bodySize?_image]
  exact slice?_zero h.bodySize_le_capacity

theorem IsSound.frameSize?_image (h : p.IsSound)
    : p.image.frameSize? = some p.frameSize := by
  rw [PacketImage.frameSize?, h.body?_image]
  rfl

theorem IsSound.payload?_image (h : p.IsSound)
    : p.image.payload? = some p.payload := by
  have within := h.bodySize_le_capacity
  simp only [PacketImage.payload?, h.bodySize?_image, Option.bind_eq_bind, Option.bind_some]
  split
  · next short =>
      rw [payload, body, List.drop_eq_nil_of_le]
      rw [List.length_take]
      omega
  · next long => exact if_pos ⟨Nat.le_of_not_le long, within⟩

theorem IsSound.command?_image (h : p.IsSound)
    : p.image.command? = some p.command? := by
  have within : p.size ≤ p.storage.length := h.size_le
  cases size : p.size with
  | zero => simp [PacketImage.command?, image, size, Packet.command?, bytes]
  | succ rest =>
      have first : 0 < p.storage.length := by omega
      simp [PacketImage.command?, image, size, Packet.command?, bytes, load?_of_lt first,
        List.head?_eq_getElem?, first]

theorem IsSound.checksum?_image (h : p.IsSound)
    : p.image.checksum? = some p.checksum? := by
  cases verified : p.verified with
  | false => simp [PacketImage.checksum?, image, verified, Packet.checksum?]
  | true =>
      have long := h.size_of_verified verified
      obtain ⟨within, _, held⟩ := h.bytes_of_verified verified
      rw [held]
      simp [PacketImage.checksum?, image, verified, long, minus?_of_le (Nat.le_of_succ_le long),
        load?_of_lt within]

theorem IsSound.view?_image (h : p.IsSound)
    : p.image.view? = some p.view := by
  have bytes : slice? p.image.storage 0 p.image.size = some p.bytes := slice?_zero h.size_le
  have middle : (p.image.receiver != Phase.between.code) = p.isMidFrame := by
    rw [isMidFrame, image]
    cases p.receiver <;> rfl
  simp only [PacketImage.view?, bytes, h.body?_image, h.payload?_image, h.command?_image,
    h.checksum?_image, h.frameSize?_image, middle, Option.bind_eq_bind, Option.bind_some]
  rfl

-----------------------------------------------------------------------------------------
-- Building
-----------------------------------------------------------------------------------------

/-- What an attempt comes to in memory: a packet that could not be built stays as it is. -/
def inMemory (p : Packet) : Except Failure Packet → Except Failure Unit × PacketImage
  | .ok q => (.ok (), q.image)
  | .error e => (.error e, p.image)

theorem IsSound.dropChecksum?_image (h : p.IsSound)
    : p.image.dropChecksum? = some p.dropChecksum.image := by
  cases verified : p.verified with
  | false => simp [PacketImage.dropChecksum?, image, verified, dropChecksum, bodySize]
  | true =>
      have long := Nat.le_of_succ_le (h.size_of_verified verified)
      simp [PacketImage.dropChecksum?, image, verified, dropChecksum, bodySize, minus?_of_le long]

theorem IsSound.withCommand?_image (h : p.IsSound) (command : UInt8)
    : p.image.withCommand? command = some (p.inMemory (p.withCommand command)) := by
  have size : (if p.dropChecksum.image.size = 0 then 1 else p.dropChecksum.image.size)
      = max p.bodySize 1 := by
    show (if p.bodySize = 0 then 1 else p.bodySize) = max p.bodySize 1
    split
    · next none => rw [none]; rfl
    · next some => omega
  unfold PacketImage.withCommand? Packet.withCommand capacity
  by_cases none : p.storage.length = 0
  · rw [if_pos none]
    exact if_pos none
  · have first : 0 < p.dropChecksum.image.storage.length := Nat.pos_of_ne_zero none
    rw [if_neg none]
    refine (if_neg none).trans ?_
    rw [h.dropChecksum?_image]
    simp only [Option.bind_eq_bind, Option.bind_some, put?_of_lt first, size]
    rfl

theorem IsSound.append?_image (h : p.IsSound) (data : List UInt8)
    : p.image.append? data = some (p.inMemory (p.append data)) := by
  have within := h.bodySize_le_capacity
  simp only [PacketImage.append?, h.bodySize?_image, Option.bind_eq_bind, Option.bind_some]
  rw [show p.image.storage.length = p.capacity from rfl, minus?_of_le within]
  unfold Packet.append
  simp only [Option.bind_some]
  split
  · rfl
  · next room =>
      have fits : p.bodySize + data.length ≤ p.storage.length := by
        simp only [capacity] at room within
        omega
      rw [h.dropChecksum?_image]
      simp [image, dropChecksum, copy?, fits, inMemory]

/-- The room is compared before the old payload is given up, so that the data is then taken. -/
theorem exists_withPayload {data : List UInt8} (room : 1 + data.length ≤ p.capacity)
    : ∃ q, ({ p with size := 1, verified := false } : Packet).append data = .ok q
        ∧ p.withPayload data = .ok q := by
  have behind : ¬p.capacity - 1 < data.length := by omega
  obtain ⟨q, taken⟩ : ∃ q, ({ p with size := 1, verified := false } : Packet).append data = .ok q :=
    ⟨_, if_neg behind⟩
  exact ⟨q, taken, (if_neg (Nat.not_lt.mpr room)).trans taken⟩

theorem withPayload?_image (p : Packet) (data : List UInt8)
    : p.image.withPayload? data = some (p.inMemory (p.withPayload data)) := by
  unfold PacketImage.withPayload? Packet.withPayload
  by_cases small : p.capacity < 1 + data.length
  · rw [if_pos small]
    exact if_pos small
  · have command := isSound_of_command (p := p) (by omega)
    obtain ⟨q, taken, _⟩ := exists_withPayload (Nat.le_of_not_lt small)
    have built := command.append?_image data
    rw [taken] at built
    rw [if_neg small, taken]
    exact (if_neg small).trans built

theorem IsSound.withMessage?_image (h : p.IsSound) (command : UInt8) (data : List UInt8)
    : p.image.withMessage? command data = some (p.inMemory (p.withMessage command data)) := by
  unfold PacketImage.withMessage? Packet.withMessage
  by_cases small : p.capacity < 1 + data.length
  · rw [if_pos small]
    exact if_pos small
  · rw [if_neg small]
    refine (if_neg small).trans ?_
    have room : ¬p.capacity = 0 := by omega
    obtain ⟨q, first⟩ : ∃ q, p.withCommand command = .ok q := ⟨_, if_neg room⟩
    have fits : q.capacity = p.capacity := (rebuilds_withCommand first).room
    have behind : 1 + data.length ≤ q.capacity := by omega
    obtain ⟨r, _, second⟩ := exists_withPayload behind
    have built := withPayload?_image q data
    rw [second] at built
    rw [h.withCommand?_image command, first]
    simp only [Except.bind, second]
    exact built

theorem IsSound.setPayloadByte?_image (h : p.IsSound) (index : Nat) (byte : UInt8)
    : p.image.setPayloadByte? index byte
      = some (match p.setPayloadByte? index byte with
          | some q => (true, q.image)
          | none => (false, p.image)) := by
  unfold PacketImage.setPayloadByte? Packet.setPayloadByte?
  simp only [h.payload?_image, Option.bind_eq_bind, Option.bind_some]
  split
  · next inRange =>
      have within : 1 + index < p.image.storage.length := by
        have := h.bodySize_le_capacity
        simp only [payload, body, List.length_drop, List.length_take] at inRange
        show 1 + index < p.storage.length
        omega
      rw [put?_of_lt within, Nat.add_comm 1 index]
      rfl
  · rfl

-----------------------------------------------------------------------------------------
-- Receiving
-----------------------------------------------------------------------------------------

theorem store?_image (p : Packet) (byte : UInt8)
    : p.image.store? byte = some ((p.store byte).1, (p.store byte).2.image) := by
  unfold PacketImage.store? Packet.store
  by_cases room : p.size < p.capacity
  · have within : p.image.size < p.image.storage.length := room
    rw [if_pos room, if_neg (Nat.not_le.mpr within), put?_of_lt within]
    rfl
  · rw [if_neg room]
    exact if_pos (Nat.not_lt.mp room)

/-- Closing a frame reads the last byte and those before it, if it holds several. -/
theorem IsSound.close?_image (h : p.IsSound)
    : p.image.close? = some (p.close.1, p.close.2.image) := by
  unfold PacketImage.close? Packet.close
  match size : p.size with
  | 0 => simp [image, size]
  | 1 => simp [image, size, Phase.code]
  | rest + 2 =>
      have imaged : p.image.size = rest + 2 := size
      have within : p.size - 1 < p.image.storage.length := by
        have : p.size ≤ p.image.storage.length := h.size_le
        omega
      have last : rest + 2 - 1 = p.size - 1 := by rw [size]
      have several : ¬rest + 2 = 0 ∧ ¬rest + 2 = 1 := by omega
      simp only [imaged, several, if_false, minus?_of_le (Nat.le_add_left 1 (rest + 1)), last,
        load?_of_lt within, slice?_zero (Nat.le_of_lt within), Option.bind_eq_bind,
        Option.bind_some, verify]
      by_cases same : p.storage.getD (p.size - 1) 0
          = Checksum.ofBytes (p.storage.take (p.size - 1))
      · rw [if_pos same]
        refine (if_neg (not_not_intro same)).trans ?_
        simp only [image, size, Phase.code]
      · rw [if_neg same]
        refine (if_pos same).trans ?_
        simp only [image, size, Phase.code]

/-- A byte is received by the number of the place in the frame, by the places that there are. -/
theorem IsSound.receive?_image (h : p.IsSound) (byte : UInt8)
    : p.image.receive? byte = some ((p.receive byte).1, (p.receive byte).2.image) := by
  cases place : p.receiver with
  | between => simp [PacketImage.receive?, Packet.receive, image, place]
  | inside =>
      have code : p.image.receiver = Phase.inside.code := congrArg Phase.code place
      have other : ¬Phase.inside.code = Phase.between.code := by decide
      simp only [PacketImage.receive?, Packet.receive, code, place, other, if_false, if_true]
      split
      · exact h.close?_image
      · split
        · rfl
        · exact store?_image p byte
  | escaped =>
      have code : p.image.receiver = Phase.escaped.code := congrArg Phase.code place
      have other : ¬Phase.escaped.code = Phase.between.code := by decide
      have other' : ¬Phase.escaped.code = Phase.inside.code := by decide
      simp only [PacketImage.receive?, Packet.receive, code, place, other, other', if_false,
        if_true]
      exact store?_image { p with receiver := .inside } _

/-- A run of bytes is received in memory as each of its bytes is, by induction on the run. -/
theorem IsSound.receiveFrame?_image (h : p.IsSound) (bytes : List UInt8)
    : p.image.receiveFrame? bytes
      = some ((p.receiveFrame bytes).1, (p.receiveFrame bytes).2.image) := by
  induction bytes generalizing p with
  | nil => rfl
  | cons byte rest ih =>
      have next := h.receive byte
      simp only [PacketImage.receiveFrame?, Packet.receiveFrame, h.receive?_image byte,
        Option.bind_eq_bind, Option.bind_some]
      rcases received : p.receive byte with ⟨failure | _ | _, q⟩
      · rfl
      · rw [received] at next
        simp only [ih next, Option.bind_some]
      · rfl

-----------------------------------------------------------------------------------------
-- Sending
-----------------------------------------------------------------------------------------

theorem IsSound.rewind?_image (h : p.IsSound)
    : p.image.rewind? = some (p.inMemory p.rewind) := by
  simp only [PacketImage.rewind?, Packet.rewind, h.bodySize?_image, Option.bind_eq_bind,
    Option.bind_some]
  split
  · rfl
  · rfl

theorem IsSound.pendingByte?_image (h : p.IsSound)
    : p.image.pendingByte? p.bodySize = some p.pendingByte := by
  unfold PacketImage.pendingByte? Packet.pendingByte
  by_cases inBody : p.emitter.next < p.bodySize
  · rw [if_pos inBody]
    exact (if_pos inBody).trans (load?_of_lt (Nat.lt_of_lt_of_le inBody h.bodySize_le_capacity))
  · rw [if_neg inBody]
    exact if_neg inBody

/-- What sending a byte comes to in memory: a packet that cannot be sent stays as it is. -/
def sentInMemory (p : Packet)
    : Except Failure (WireByte × Packet) → Except Failure WireByte × PacketImage
  | .ok (byte, q) => (.ok byte, q.image)
  | .error e => (.error e, p.image)

/-- A byte is sent by the number of the place in the frame, by the places that there are. -/
theorem IsSound.emit?_image (h : p.IsSound)
    : p.image.emit? = some (p.sentInMemory p.emit) := by
  have stored := slice?_zero h.bodySize_le_capacity
  simp only [PacketImage.emit?, h.bodySize?_image, h.pendingByte?_image, Option.bind_eq_bind,
    Option.bind_some]
  cases place : p.emitter.phase with
  | between =>
      have code : p.image.emitter = Phase.between.code := congrArg Phase.code place
      simp only [Packet.emit, code, place, if_true]
      split
      · rfl
      · rw [show p.image.storage = p.storage from rfl, stored]
        rfl
  | inside =>
      have code : p.image.emitter = Phase.inside.code := congrArg Phase.code place
      have other : ¬Phase.inside.code = Phase.between.code := by decide
      have held : p.image.next = p.emitter.next := rfl
      simp only [Packet.emit, code, place, other, held, if_false, if_true]
      split
      · rfl
      · split
        · rfl
        · simp only [sentInMemory, image]
  | escaped =>
      have code : p.image.emitter = Phase.escaped.code := congrArg Phase.code place
      have other : ¬Phase.escaped.code = Phase.between.code := by decide
      have other' : ¬Phase.escaped.code = Phase.inside.code := by decide
      simp only [Packet.emit, code, place, other, other', if_false, if_true]
      rfl

/-- Putting a byte in its place and the others behind it is putting them all there. -/
theorem overwrite_cons {buffer : List UInt8} {written : Nat} (room : written < buffer.length)
    (value : UInt8) (rest : List UInt8)
    : overwrite (buffer.set written value) (written + 1) rest
      = overwrite buffer written (value :: rest) := by
  have front : (buffer.set written value).take (written + 1) = buffer.take written ++ [value] := by
    rw [List.take_succ_eq_append_getElem (by simpa using room), List.getElem_set_self,
      List.take_set_of_le (Nat.le_refl _)]
  have back : (buffer.set written value).drop (written + 1 + rest.length)
      = buffer.drop (written + (rest.length + 1)) := by
    rw [List.drop_set_of_lt (by omega)]
    congr 1
    omega
  simp [overwrite, front, back]

/-- The bytes owed are put into a buffer with room for them, by induction on these bytes. -/
theorem IsSound.fill?_image (h : p.IsSound) {owed buffer : List UInt8} {written : Nat}
    (command : p.body ≠ []) (nonempty : owed ≠ []) (owes : p.emitter.Owes p.body owed)
    (room : written + owed.length ≤ buffer.length)
    : p.image.fill? buffer written
      = some (⟨.ok (written + owed.length), overwrite buffer written owed⟩,
          { p with emitter := .closed p.body : Packet }.image) := by
  induction owed generalizing p buffer written with
  | nil => exact absurd rfl nonempty
  | cons value rest ih =>
      obtain ⟨emitter, sent, after⟩ := emit_of_owes h.size_le command owes
      have within : written < buffer.length := by
        rw [List.length_cons] at room
        omega
      rw [PacketImage.fill?, h.emit?_image, sent]
      simp only [sentInMemory, within, dif_pos]
      by_cases last : rest = []
      · subst last
        obtain rfl : emitter = .closed p.body := by simpa using after
        rw [← overwrite_cons within]
        simp [overwrite]
      · simp only [last, if_false] at after ⊢
        have behind : written + 1 + rest.length ≤ (buffer.set written value).length := by
          rw [List.length_cons] at room
          rw [List.length_set]
          omega
        have more := ih (h.withEmitter emitter) command last after behind
        rw [more, overwrite_cons within, List.length_cons, Nat.add_right_comm, Nat.add_assoc]
        rfl

/-- A buffer is written only after its size was compared, so that each byte has its place. -/
theorem IsSound.writeFrame?_image (h : p.IsSound) (buffer : List UInt8)
    : p.image.writeFrame? buffer
      = some ((p.writeFrame buffer).1, (p.writeFrame buffer).2.image) := by
  simp only [PacketImage.writeFrame?, h.rewind?_image, Option.bind_eq_bind, Option.bind_some]
  by_cases command : p.body = []
  · have none : p.bodySize = 0 := by simp [← length_body h.size_le, command]
    simp [Packet.writeFrame, Packet.rewind, none, inMemory]
  · obtain ⟨fresh, rewound, owes⟩ := rewind_of_command h.size_le command
    have sound := h.withEmitter fresh
    simp only [Packet.writeFrame, rewound, inMemory, sound.frameSize?_image, Option.bind_some]
    split
    · rfl
    · next room =>
        have length : (Frame.wire p.body).length ≤ buffer.length := by
          rw [Frame.length_wire]
          exact Nat.not_lt.mp room
        have all := emitAll_of_owes (p := { p with emitter := fresh }) h.size_le command
          (by simp [Frame.wire]) owes
        have room : 0 + (Frame.wire p.body).length ≤ buffer.length := by simpa using length
        have filled := sound.fill?_image command (by simp [Frame.wire]) owes room
        rw [filled, all]
        simp [overwrite]

-----------------------------------------------------------------------------------------
-- Any history
-----------------------------------------------------------------------------------------

theorem image_settle (result : Except Failure Packet)
    : ((Reply.built (p.inMemory result).1, (p.inMemory result).2) : Reply × PacketImage)
      = ((p.settle result).1, (p.settle result).2.image) := by
  cases result with
  | ok q => rfl
  | error e => rfl

/-- Every operation on a sound packet has a result in memory, which is that on the packet. -/
theorem IsSound.perform?_image (h : p.IsSound) (operation : Operation)
    : p.image.perform? operation
      = some ((p.perform operation).1, (p.perform operation).2.image) := by
  cases operation with
  | withCommand command =>
      simp only [PacketImage.perform?, h.withCommand?_image, Option.map_some, image_settle,
        Packet.perform]
  | withPayload data =>
      simp only [PacketImage.perform?, withPayload?_image, Option.map_some, image_settle,
        Packet.perform]
  | withMessage command data =>
      simp only [PacketImage.perform?, h.withMessage?_image, Option.map_some, image_settle,
        Packet.perform]
  | append data =>
      simp only [PacketImage.perform?, h.append?_image, Option.map_some, image_settle,
        Packet.perform]
  | clear => rfl
  | setPayloadByte index byte =>
      simp only [PacketImage.perform?, h.setPayloadByte?_image, Option.map_some, Packet.perform]
      cases p.setPayloadByte? index byte with
      | some q => rfl
      | none => rfl
  | receive byte =>
      simp only [PacketImage.perform?, h.receive?_image, Option.map_some, Packet.perform]
  | receiveFrame bytes =>
      simp only [PacketImage.perform?, h.receiveFrame?_image, Option.map_some, Packet.perform]
  | abandonFrame => rfl
  | rewind =>
      simp only [PacketImage.perform?, h.rewind?_image, Option.map_some, image_settle,
        Packet.perform]
  | emit =>
      simp only [PacketImage.perform?, h.emit?_image, Option.map_some, Packet.perform]
      cases p.emit with
      | ok sent => rfl
      | error e => rfl
  | writeFrame buffer =>
      simp only [PacketImage.perform?, h.writeFrame?_image, Option.map_some, Packet.perform]

/-- A history in memory is that of the packet, by induction on the history. -/
theorem IsSound.performAll?_image (h : p.IsSound) (history : List Operation)
    : p.image.performAll? history
      = some ((p.performAll history).1, (p.after history).image) := by
  induction history generalizing p with
  | nil => rfl
  | cons operation rest ih =>
      simp only [PacketImage.performAll?, h.perform?_image operation, ih (h.perform operation),
        Option.bind_eq_bind, Option.bind_some]
      rfl

theorem code_mem (place : Phase)
    : place.code ∈ [Phase.between.code, Phase.inside.code, Phase.escaped.code] := by
  cases place <;> decide

/-- Whatever an owner does to a packet in memory, over any storage, each access of each operation
finds its bytes, and the fields stay within their bounds. -/
theorem every_access_is_in_bounds (storage : List UInt8) (history : List Operation)
    : ∃ (replies : List Reply) (i : PacketImage),
        (PacketImage.ofStorage storage).performAll? history = some (replies, i)
        ∧ ((ofStorage storage).performAll history).1 = replies
        ∧ ((ofStorage storage).after history).image = i
        ∧ i.view? = some ((ofStorage storage).after history).view
        ∧ i.storage.length = storage.length
        ∧ i.size ≤ storage.length
        ∧ (i.verified = true → 2 ≤ i.size ∧ i.receiver = Phase.between.code)
        ∧ i.receiver ∈ [Phase.between.code, Phase.inside.code, Phase.escaped.code]
        ∧ i.emitter ∈ [Phase.between.code, Phase.inside.code, Phase.escaped.code]
        ∧ i.next ≤ storage.length + 1
        ∧ ∀ reply ∈ replies, reply.failure? ≠ some .brokenState := by
  obtain ⟨consistent, room⟩ := (isConsistent_ofStorage storage).after history
  have run := (isSound_ofStorage storage).performAll?_image history
  refine ⟨_, _, run, rfl, rfl, consistent.view?_image, room, ?_, ?_, code_mem _, code_mem _, ?_,
    failure?_performAll _ history⟩
  · exact Nat.le_trans consistent.size_le (Nat.le_of_eq room)
  · intro verified
    exact ⟨consistent.size_of_verified verified,
      congrArg Phase.code (consistent.between_of_verified verified)⟩
  · exact Nat.le_trans consistent.next_le (Nat.le_of_eq (congrArg (· + 1) room))

end PacketBus.Packet
