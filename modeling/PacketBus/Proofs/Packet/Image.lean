import PacketBus.Packet.History

/-! A packet as it lies in memory, where nothing keeps an operation from going wrong.
A place in a frame is a plain number, every access names the bytes it needs, and a size is taken
from another only if it is not larger. An operation that asks for what is not there has no result.
-/

namespace PacketBus

-----------------------------------------------------------------------------------------
-- Checked accesses
-----------------------------------------------------------------------------------------

namespace Memory

/-- The difference of two sizes, which must not lie below zero. -/
def minus? (size less : Nat) : Option Nat :=
  if less ≤ size then some (size - less) else none

/-- The bytes from one place up to another, which must lie in this order and within the storage. -/
def slice? (storage : List UInt8) (start stop : Nat) : Option (List UInt8) :=
  if start ≤ stop ∧ stop ≤ storage.length then some ((storage.take stop).drop start) else none

/-- The byte in a place of the storage. -/
def load? (storage : List UInt8) (place : Nat) : Option UInt8 :=
  storage[place]?

/-- Puts a byte in a place of the storage. -/
def put? (storage : List UInt8) (place : Nat) (byte : UInt8) : Option (List UInt8) :=
  if place < storage.length then some (storage.set place byte) else none

/-- Puts data over the bytes of the storage from a place on. -/
def copy? (storage : List UInt8) (start : Nat) (data : List UInt8) : Option (List UInt8) :=
  if start + data.length ≤ storage.length then some (overwrite storage start data) else none

end Memory

open Memory

/-- The number under which a place in a frame is kept. -/
def Phase.code : Phase → UInt8
  | between => 0
  | inside => 1
  | escaped => 2

/-- The fields of a packet as they lie in memory. -/
structure PacketImage where
  storage : List UInt8
  size : Nat := 0
  verified : Bool := false
  receiver : UInt8 := Phase.between.code
  emitter : UInt8 := Phase.between.code
  next : Nat := 0
  checksum : UInt8 := 0

/-- A packet in memory. -/
def Packet.image (p : Packet) : PacketImage where
  storage := p.storage
  size := p.size
  verified := p.verified
  receiver := p.receiver.code
  emitter := p.emitter.phase.code
  next := p.emitter.next
  checksum := p.emitter.checksum

namespace PacketImage

/-- An empty packet over a storage. -/
def ofStorage (storage : List UInt8) : PacketImage := { storage }

open Packet (Failure Filled Operation Reception Reply View)

-----------------------------------------------------------------------------------------
-- What is read of a packet
-----------------------------------------------------------------------------------------

def bodySize? (i : PacketImage) : Option Nat :=
  if i.verified then minus? i.size 1 else some i.size

def body? (i : PacketImage) : Option (List UInt8) := do
  slice? i.storage 0 (← i.bodySize?)

def command? (i : PacketImage) : Option (Option UInt8) :=
  if 1 ≤ i.size then (load? i.storage 0).map some else some none

def payload? (i : PacketImage) : Option (List UInt8) := do
  let stop ← i.bodySize?
  if stop ≤ 1 then some [] else slice? i.storage 1 stop

def checksum? (i : PacketImage) : Option (Option UInt8) :=
  if i.verified && 2 ≤ i.size then do
    let last ← minus? i.size 1
    (load? i.storage last).map some
  else some none

def frameSize? (i : PacketImage) : Option Nat :=
  i.body?.map Frame.wireSize

/-- What an owner can see of a packet without changing it. -/
def view? (i : PacketImage) : Option View := do
  let bytes ← slice? i.storage 0 i.size
  let body ← i.body?
  let command? ← i.command?
  let payload ← i.payload?
  let checksum? ← i.checksum?
  let frameSize ← i.frameSize?
  some
    { bytes, body, command?, payload, checksum?, frameSize
      isEmpty := i.size == 0
      isMidFrame := i.receiver != Phase.between.code }

-----------------------------------------------------------------------------------------
-- Building
-----------------------------------------------------------------------------------------

def dropChecksum? (i : PacketImage) : Option PacketImage := do
  if i.verified then
    let size ← minus? i.size 1
    some { i with size, verified := false }
  else some i

def withCommand? (i : PacketImage) (command : UInt8) : Option (Except Failure Unit × PacketImage) :=
  if i.storage.length = 0 then some (.error .noRoom, i)
  else do
    let j ← i.dropChecksum?
    let storage ← put? j.storage 0 command
    some (.ok (), { j with storage, size := if j.size = 0 then 1 else j.size })

def append? (i : PacketImage) (data : List UInt8) : Option (Except Failure Unit × PacketImage) := do
  let start ← i.bodySize?
  let room ← minus? i.storage.length start
  if room < data.length then some (.error .noRoom, i)
  else
    let j ← i.dropChecksum?
    let storage ← copy? j.storage start data
    some (.ok (), { j with storage, size := start + data.length })

def withPayload? (i : PacketImage) (data : List UInt8)
    : Option (Except Failure Unit × PacketImage) :=
  if i.storage.length < 1 + data.length then some (.error .noRoom, i)
  else { i with verified := false, size := 1 }.append? data

def withMessage? (i : PacketImage) (command : UInt8) (data : List UInt8)
    : Option (Except Failure Unit × PacketImage) :=
  if i.storage.length < 1 + data.length then some (.error .noRoom, i)
  else do
    match ← i.withCommand? command with
    | (.ok (), j) => j.withPayload? data
    | (.error e, j) => some (.error e, j)

def clear (i : PacketImage) : PacketImage :=
  { i with
    size := 0
    verified := false
    receiver := Phase.between.code
    emitter := Phase.between.code
    next := 0 }

/-- Overwrites one byte of the payload, and answers whether there is one in its place. -/
def setPayloadByte? (i : PacketImage) (index : Nat) (byte : UInt8)
    : Option (Bool × PacketImage) := do
  let payload ← i.payload?
  if index < payload.length then
    let storage ← put? i.storage (1 + index) byte
    some (true, { i with storage })
  else some (false, i)

-----------------------------------------------------------------------------------------
-- Receiving
-----------------------------------------------------------------------------------------

def store? (i : PacketImage) (byte : UInt8) : Option (Except Failure FrameStatus × PacketImage) :=
  if i.storage.length ≤ i.size then
    some (.error .overflow, { i with receiver := Phase.between.code })
  else do
    let storage ← put? i.storage i.size byte
    some (.ok .unfinished, { i with storage, size := i.size + 1 })

def close? (i : PacketImage) : Option (Except Failure FrameStatus × PacketImage) :=
  match i.size with
  | 0 => some (.ok .unfinished, i)
  | 1 => some (.error .tooShort, { i with receiver := Phase.between.code })
  | size => do
      let last ← minus? size 1
      let received ← load? i.storage last
      let expected := Checksum.ofBytes (← slice? i.storage 0 last)
      if received ≠ expected then
        some (.error (.checksumMismatch received expected),
          { i with receiver := Phase.between.code })
      else some (.ok .complete, { i with receiver := Phase.between.code, verified := true })

/-- A place that is none is reported, and changes nothing. -/
def receive? (i : PacketImage) (byte : UInt8) : Option (Except Failure FrameStatus × PacketImage) :=
  if i.receiver = Phase.between.code then
    some (.ok .unfinished,
      { i with size := 0, verified := false, receiver := Phase.inside.code })
  else if i.receiver = Phase.inside.code then
    if byte = Frame.delimiter then i.close?
    else if byte = Frame.escapeMark then
      some (.ok .unfinished, { i with receiver := Phase.escaped.code })
    else i.store? byte
  else if i.receiver = Phase.escaped.code then
    { i with receiver := Phase.inside.code }.store? (Frame.unescape byte)
  else some (.error .brokenState, i)

def receiveFrame? (i : PacketImage) : List UInt8 → Option (Reception × PacketImage)
  | [] => some (⟨.ok .unfinished, 0⟩, i)
  | byte :: rest => do
      match ← i.receive? byte with
      | (.ok .unfinished, j) =>
          let (reception, k) ← j.receiveFrame? rest
          some ({ reception with used := reception.used + 1 }, k)
      | (result, j) => some (⟨result, 1⟩, j)

-----------------------------------------------------------------------------------------
-- Sending
-----------------------------------------------------------------------------------------

def rewind? (i : PacketImage) : Option (Except Failure Unit × PacketImage) := do
  let body ← i.bodySize?
  if body = 0 then some (.error .tooShort, i)
  else some (.ok (), { i with emitter := Phase.between.code, next := 0 })

def pendingByte? (i : PacketImage) (body : Nat) : Option UInt8 :=
  if i.next < body then load? i.storage i.next else some i.checksum

/-- A place that is none is reported, and changes nothing. -/
def emit? (i : PacketImage) : Option (Except Failure WireByte × PacketImage) := do
  let body ← i.bodySize?
  if i.emitter = Phase.between.code then
    if body = 0 then some (.error .tooShort, i)
    else
      let checksum := Checksum.ofBytes (← slice? i.storage 0 body)
      some (.ok ⟨Frame.delimiter, .unfinished⟩,
        { i with next := 0, checksum, emitter := Phase.inside.code })
  else if i.emitter = Phase.inside.code then
    if body < i.next then
      some (.ok ⟨Frame.delimiter, .complete⟩, { i with emitter := Phase.between.code })
    else
      let byte ← i.pendingByte? body
      if (Frame.escape? byte).isSome then
        some (.ok ⟨Frame.escapeMark, .unfinished⟩, { i with emitter := Phase.escaped.code })
      else some (.ok ⟨byte, .unfinished⟩, { i with next := i.next + 1 })
  else if i.emitter = Phase.escaped.code then
    let byte ← i.pendingByte? body
    some (.ok ⟨(Frame.escape? byte).getD Frame.escapedMark, .unfinished⟩,
      { i with next := i.next + 1, emitter := Phase.inside.code })
  else some (.error .brokenState, i)

/-- Puts the bytes of the frame into a buffer behind those written, as many as are still to come. -/
def fill? (i : PacketImage) (buffer : List UInt8) (written : Nat) : Option (Filled × PacketImage) :=
  match i.emit? with
  | none => none
  | some (.error e, j) => some (⟨.error e, buffer⟩, j)
  | some (.ok byte, j) =>
      if _room : written < buffer.length then
        match byte.status with
        | .complete => some (⟨.ok (written + 1), buffer.set written byte.value⟩, j)
        | .unfinished => j.fill? (buffer.set written byte.value) (written + 1)
      else none
termination_by buffer.length - written
decreasing_by
  rw [List.length_set]
  omega

def writeFrame? (i : PacketImage) (buffer : List UInt8) : Option (Filled × PacketImage) := do
  match ← i.rewind? with
  | (.error e, j) => some (⟨.error e, buffer⟩, j)
  | (.ok (), j) =>
      if buffer.length < (← j.frameSize?) then some (⟨.error .overflow, buffer⟩, j)
      else j.fill? buffer 0

-----------------------------------------------------------------------------------------
-- Any history
-----------------------------------------------------------------------------------------

/-- Carries out one operation. -/
def perform? (i : PacketImage) : Operation → Option (Reply × PacketImage)
  | .withCommand command => (i.withCommand? command).map fun (result, j) => (.built result, j)
  | .withPayload data => (i.withPayload? data).map fun (result, j) => (.built result, j)
  | .withMessage command data =>
      (i.withMessage? command data).map fun (result, j) => (.built result, j)
  | .append data => (i.append? data).map fun (result, j) => (.built result, j)
  | .clear => some (.completed, i.clear)
  | .setPayloadByte index byte =>
      (i.setPayloadByte? index byte).map fun (inRange, j) => (.overwritten inRange, j)
  | .receive byte => (i.receive? byte).map fun (result, j) => (.received ⟨result, 1⟩, j)
  | .receiveFrame bytes =>
      (i.receiveFrame? bytes).map fun (reception, j) => (.received reception, j)
  | .abandonFrame => some (.completed, { i with receiver := Phase.between.code })
  | .rewind => i.rewind?.map fun (result, j) => (.built result, j)
  | .emit => i.emit?.map fun (result, j) => (.emitted result, j)
  | .writeFrame buffer => (i.writeFrame? buffer).map fun (filled, j) => (.filled filled, j)

/-- Carries out a history, with the answers in order. -/
def performAll? (i : PacketImage) : List Operation → Option (List Reply × PacketImage)
  | [] => some ([], i)
  | operation :: rest => do
      let (reply, j) ← i.perform? operation
      let (replies, k) ← j.performAll? rest
      some (reply :: replies, k)

end PacketImage

end PacketBus
