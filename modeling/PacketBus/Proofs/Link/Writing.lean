import PacketBus.Link
import PacketBus.Proofs.Emission.Outstanding
import PacketBus.Proofs.Port.Record

/-! What a link still has to bring to its port.
A push takes the bytes of a frame in order and stops at the first one that the port does not take.
A byte that was refused is the first one still owed; a byte on which the port failed is owed no
more, and if it was the last one the whole frame is owed again.
-/

namespace PacketBus.Link

open PacketBus.Frame (wire)

variable {P ε : Type}

/-- The bytes of the frame of `packet` that are still to be offered: those that its emitter owes,
and before them the byte held. -/
inductive Owes (link : Link P) (packet : Packet) : List UInt8 → Prop
  | emitter {owed} (free : link.held = none) (owes : packet.emitter.Owes packet.body owed)
    : link.Owes packet owed
  | held {byte rest}
    (kept : link.held = some ⟨byte, if rest = [] then .complete else .unfinished⟩)
    (behind
      : if rest = [] then packet.emitter = .closed packet.body
        else packet.emitter.Owes packet.body rest)
    : link.Owes packet (byte :: rest)

/-- A link writes `packet` with the message `body`, and the port has still to take `owed`. -/
structure Writes (link : Link P) (packet : Packet) (body owed : List UInt8) : Prop where
  sized : packet.size ≤ packet.capacity
  body_eq : packet.body = body
  command : body ≠ []
  owes : link.Owes packet owed
  nonempty : owed ≠ []

variable {link : Link P} {packet : Packet} {body owed : List UInt8}

/-- What is owed depends on the byte held and on the packet alone. -/
theorem Writes.of_held_eq {Q : Type} {other : Link Q} (h : link.Writes packet body owed)
    (same : other.held = link.held)
    : other.Writes packet body owed where
  sized := h.sized
  body_eq := h.body_eq
  command := h.command
  owes := by
    cases h.owes with
    | emitter free owes => exact .emitter (same.trans free) owes
    | held kept behind => exact .held (same.trans kept) behind
  nonempty := h.nonempty

/-- A packet that has no frame leaves the link as it is. -/
theorem prepare_of_refused {failure : Packet.Failure} (link : Link P)
    (refused : packet.rewind = .error failure)
    : link.prepare packet = (.error failure, link) := by
  rw [prepare, refused]

/-- A write that is prepared owes the whole frame, and nothing of an earlier one. -/
theorem prepare_of_command (link : Link P) (sized : packet.size ≤ packet.capacity)
    (command : packet.body ≠ [])
    : ∃ emitter : Emitter,
        link.prepare packet = (.ok { packet with emitter }, { link with held := none })
        ∧ Writes { link with held := none } { packet with emitter } packet.body
            (wire packet.body) := by
  obtain ⟨emitter, rewound, owes⟩ := Packet.rewind_of_command sized command
  refine ⟨emitter, ?_, ?_⟩
  · rw [prepare, rewound]
  · exact { sized, body_eq := rfl, command, owes := .emitter rfl owes, nonempty := by simp [wire] }

/-- The byte offered is the first one owed, whether it is held or the emitter has still to make
it. -/
theorem Writes.nextByte {value : UInt8} {rest : List UInt8}
    (h : link.Writes packet body (value :: rest))
    : ∃ emitter : Emitter,
        link.nextByte packet
          = .ok (⟨value, if rest = [] then .complete else .unfinished⟩, { packet with emitter })
        ∧ if rest = [] then emitter = .closed body else emitter.Owes body rest := by
  obtain ⟨sized, rfl, command, owes, _⟩ := h
  cases owes with
  | emitter free owes =>
      rw [Link.nextByte, free]
      exact Packet.emit_of_owes sized command owes
  | held kept behind =>
      rw [Link.nextByte, kept]
      exact ⟨packet.emitter, rfl, behind⟩

/-- Once the byte offered is gone, the bytes behind it are owed. -/
theorem Writes.behind {value : UInt8} {rest : List UInt8} {emitter : Emitter}
    (h : link.Writes packet body (value :: rest)) (more : rest ≠ []) (owes : emitter.Owes body rest)
    (port : P)
    : Writes { link with port, held := none } { packet with emitter } body rest where
  sized := h.sized
  body_eq := h.body_eq
  command := h.command
  owes := by
    obtain rfl := h.body_eq
    exact .emitter rfl owes
  nonempty := more

/-- Once the last byte is gone, the emitter is ready to send the frame from its beginning. -/
theorem Writes.again (h : link.Writes packet body owed) (port : P)
    : Writes { link with port, held := none } { packet with emitter := .closed body } body
        (wire body) where
  sized := h.sized
  body_eq := h.body_eq
  command := h.command
  owes := by
    obtain rfl := h.body_eq
    exact .emitter rfl .between
  nonempty := by simp [wire]

/-- A read changes the port and the incoming packet alone. -/
theorem receive_snd [Port P ε] (link : Link P)
    : ∃ incoming, link.receive.2 = { link with port := (Port.read link.port).2, incoming } := by
  unfold receive
  split
  · next read => exact ⟨link.incoming, by rw [read]⟩
  · next read => exact ⟨link.incoming, by rw [read]⟩
  · next read =>
      rw [read]
      split
      · exact ⟨_, rfl⟩
      · exact ⟨_, rfl⟩

-----------------------------------------------------------------------------------------
-- One offer to the port
-----------------------------------------------------------------------------------------

section Offers

variable [Port P ε] {next : Packet} {byte : WireByte} {port : P}

theorem push_of_no_byte {failure : Packet.Failure} (failed : link.nextByte packet = .error failure)
    : link.push packet = ⟨.error (.packet failure), link, packet⟩ := by
  rw [push]
  split
  · next found =>
      cases found.symm.trans failed
      rfl
  · next found => cases found.symm.trans failed

theorem push_of_failed {fault : ε} (offered : link.nextByte packet = .ok (byte, next))
    (answered : Port.write link.port byte.value = (.error fault, port))
    : link.push packet = ⟨.error (.port fault), { link with port, held := none }, next⟩ := by
  rw [push]
  split
  · next none => cases none.symm.trans offered
  · next found =>
      cases found.symm.trans offered
      simp only [answered]

theorem push_of_refused (offered : link.nextByte packet = .ok (byte, next))
    (answered : Port.write link.port byte.value = (.ok false, port))
    : link.push packet = ⟨.ok .unfinished, { link with port, held := some byte }, next⟩ := by
  rw [push]
  split
  · next none => cases none.symm.trans offered
  · next found =>
      cases found.symm.trans offered
      simp only [answered]

theorem push_of_last (offered : link.nextByte packet = .ok (byte, next))
    (answered : Port.write link.port byte.value = (.ok true, port)) (last : byte.status = .complete)
    : link.push packet = ⟨.ok .complete, { link with port, held := none }, next⟩ := by
  rw [push]
  split
  · next none => cases none.symm.trans offered
  · next found =>
      cases found.symm.trans offered
      simp only [answered]
      split
      · rfl
      · next more => cases more.symm.trans last

theorem push_of_taken (offered : link.nextByte packet = .ok (byte, next))
    (answered : Port.write link.port byte.value = (.ok true, port))
    (more : byte.status = .unfinished)
    : link.push packet = ({ link with port, held := none } : Link P).push next := by
  rw [push]
  split
  · next none => cases none.symm.trans offered
  · next found =>
      cases found.symm.trans offered
      simp only [answered]
      split
      · next last => cases last.symm.trans more
      · rfl

end Offers

-----------------------------------------------------------------------------------------
-- A whole push
-----------------------------------------------------------------------------------------

open Port.Call (accepts)

/-- How a push of a frame ends of which `owed` was still owed: the calls it makes, its result, and
the link and the packet behind it. -/
inductive Ending (body owed : List UInt8)
    : List (Port.Call ε) → Except (Failure ε) FrameStatus → Link (RecordedPort P ε) → Packet → Prop
  | complete {after next} (closed : next.emitter = .closed body)
    : Ending body owed (accepts owed) (.ok .complete) after next
  | refused {sent byte rest after next} (split : owed = sent ++ byte :: rest)
    (later : after.Writes next body (byte :: rest))
    : Ending body owed (accepts sent ++ [.write byte (.ok false)]) (.ok .unfinished) after next
  | failed {sent byte rest fault after next} (split : owed = sent ++ byte :: rest)
    (later : after.Writes next body (if rest = [] then wire body else rest))
    : Ending body owed (accepts sent ++ [.write byte (.error fault)]) (.error (.port fault))
        after next

/-- A byte that the port takes first goes before what the rest of the push does. -/
theorem Ending.cons {value : UInt8} {rest : List UInt8} {calls : List (Port.Call ε)}
    {result : Except (Failure ε) FrameStatus} {link : Link (RecordedPort P ε)}
    (h : Ending body rest calls result link packet)
    : Ending body (value :: rest) (.write value (.ok true) :: calls) result link packet := by
  cases h with
  | complete closed => exact .complete closed
  | @refused sent byte rest' _ _ split later =>
      have longer : value :: rest = value :: sent ++ byte :: rest' := congrArg (value :: ·) split
      exact .refused longer later
  | @failed sent byte rest' fault _ _ split later =>
      have longer : value :: rest = value :: sent ++ byte :: rest' := congrArg (value :: ·) split
      exact .failed longer later

/-- A push reads nothing. -/
theorem Ending.delivered {calls : List (Port.Call ε)} {result : Except (Failure ε) FrameStatus}
    {after : Link (RecordedPort P ε)} {next : Packet} (h : Ending body owed calls result after next)
    : calls.filterMap Port.Call.delivered? = [] := by
  cases h with
  | complete closed => simp
  | refused split later => simp [List.filterMap_cons]
  | failed split later => simp [List.filterMap_cons]

/-- All calls of a push are writes, and there is one if anything was owed. -/
theorem Ending.isWrite {calls : List (Port.Call ε)} {result : Except (Failure ε) FrameStatus}
    {after : Link (RecordedPort P ε)} {next : Packet} (h : Ending body owed calls result after next)
    : (∀ call ∈ calls, call.IsWrite) ∧ (owed ≠ [] → calls ≠ []) := by
  have taken : ∀ bytes, ∀ call ∈ (accepts bytes : List (Port.Call ε)), call.IsWrite := by
    intro bytes call member
    obtain ⟨byte, _, rfl⟩ := List.mem_map.mp member
    trivial
  cases h with
  | complete closed => exact ⟨taken owed, by simp [accepts]⟩
  | @refused sent byte rest _ _ split later =>
      refine ⟨?_, by simp⟩
      intro call member
      rcases List.mem_append.mp member with early | last
      · exact taken sent call early
      · rw [List.mem_singleton.mp last]
        trivial
  | @failed sent byte rest fault _ _ split later =>
      refine ⟨?_, by simp⟩
      intro call member
      rcases List.mem_append.mp member with early | last
      · exact taken sent call early
      · rw [List.mem_singleton.mp last]
        trivial

/-- A push makes no more calls than bytes are owed. -/
theorem Ending.length_le {calls : List (Port.Call ε)} {result : Except (Failure ε) FrameStatus}
    {after : Link (RecordedPort P ε)} {next : Packet} (h : Ending body owed calls result after next)
    : calls.length ≤ owed.length := by
  cases h with
  | complete closed => simp [accepts]
  | refused split later => simp [accepts, split]
  | failed split later => simp [accepts, split]

variable [Port P ε]

/-- By the recursion of a push, which makes one call at each turn. -/
theorem port_push {Rel : P → P → Prop} (keeps : Port.Keeps Rel) (link : Link P) (packet : Packet)
    : Rel link.port (link.push packet).link.port := by
  fun_induction Link.push link packet with
  | case1 link packet failure failed => exact keeps.refl link.port
  | case2 link packet byte next offered fault port answered =>
      simpa only [answered] using keeps.write link.port byte.value
  | case3 link packet byte next offered port answered =>
      simpa only [answered] using keeps.write link.port byte.value
  | case4 link packet byte next offered port answered last =>
      simpa only [answered] using keeps.write link.port byte.value
  | case5 link packet byte next offered port answered more ih =>
      have first : Rel link.port port := by
        simpa only [answered] using keeps.write link.port byte.value
      exact keeps.trans first ih

/-- What every write keeps, a push keeps; by the recursion of a push. -/
theorem port_push_of_writes {K : P → Prop}
    (kept : ∀ {port} byte, K port → K (Port.write port byte).2) {link : Link P}
    (packet : Packet) (before : K link.port)
    : K (link.push packet).link.port := by
  fun_induction Link.push link packet with
  | case1 => exact before
  | case2 link packet byte next offered fault port answered
  | case3 link packet byte next offered port answered
  | case4 link packet byte next offered port answered =>
      simpa only [answered] using kept byte.value before
  | case5 link packet byte next offered port answered more ih =>
      refine ih ?_
      simpa only [answered] using kept byte.value before

/-- A push takes the bytes owed in order up to the first that the port does not take, and changes
nothing but the port, the byte held and the place in the frame; by induction on the bytes owed. -/
theorem Writes.push {link : Link (RecordedPort P ε)} (h : link.Writes packet body owed)
    : ∃ (calls : List (Port.Call ε)) (port : P) (held : Option WireByte) (emitter : Emitter),
        let after := { link with port := ⟨port, link.port.calls ++ calls⟩, held }
        (link.push packet).link = after
        ∧ (link.push packet).packet = { packet with emitter }
        ∧ Ending body owed calls (link.push packet).result after { packet with emitter } := by
  induction owed generalizing link packet with
  | nil => exact absurd rfl h.nonempty
  | cons value rest ih =>
      obtain ⟨emitter, offered, behind⟩ := h.nextByte
      have split : value :: rest = [] ++ value :: rest := rfl
      rcases answered : Port.write link.port.port value with ⟨answer, port⟩
      have written : Port.write link.port value
          = (answer, ⟨port, link.port.calls ++ [.write value answer]⟩) := by
        simp only [Port.write, answered]
      rcases answer with fault | _ | _
      · -- The byte is gone, and so is what the link held of it.
        refine ⟨[.write value (.error fault)], port, none, emitter, ?_⟩
        rw [push_of_failed offered written]
        refine ⟨rfl, rfl, .failed split ?_⟩
        by_cases last : rest = []
        · simp only [last, if_true] at behind ⊢
          obtain rfl := behind
          exact h.again _
        · simp only [last, if_false] at behind ⊢
          exact h.behind last behind _
      · refine ⟨[.write value (.ok false)], port,
          some ⟨value, if rest = [] then .complete else .unfinished⟩, emitter, ?_⟩
        rw [push_of_refused offered written]
        refine ⟨rfl, rfl, .refused split ?_⟩
        obtain ⟨sized, rfl, command, _, nonempty⟩ := h
        exact { sized, body_eq := rfl, command, owes := .held rfl behind, nonempty }
      · by_cases last : rest = []
        · subst last
          simp only [if_true] at behind offered
          obtain rfl := behind
          refine ⟨[.write value (.ok true)], port, none, .closed body, ?_⟩
          rw [push_of_last offered written rfl]
          exact ⟨rfl, rfl, .complete rfl⟩
        · simp only [last, if_false] at behind offered
          have later := h.behind last behind ⟨port, link.port.calls ++ [.write value (.ok true)]⟩
          obtain ⟨calls, port', held, emitter', linked, packed, ending⟩ := ih later
          refine ⟨.write value (.ok true) :: calls, port', held, emitter', ?_⟩
          rw [push_of_taken offered written rfl]
          refine ⟨?_, packed, ?_⟩
          · simpa using linked
          · simpa using ending.cons

/-- A push that loses no byte completes the frame with all that was owed, or stops at a byte that is
refused and leaves it owed; by the ways a push ends. -/
theorem Writes.push_of_kept {link : Link (RecordedPort P ε)} (h : link.Writes packet body owed)
    (kept : (link.push packet).link.port.lost = link.port.lost)
    : let pushed := link.push packet
      pushed.link.incoming = link.incoming
      ∧ pushed.link.port.delivered = link.port.delivered
      ∧ ∃ emitter : Emitter, pushed.packet = { packet with emitter }
        ∧ (pushed.result = .ok .complete ∧ emitter = .closed body
            ∧ pushed.link.port.accepted = link.port.accepted ++ owed
          ∨ pushed.result = .ok .unfinished
            ∧ ∃ rest, pushed.link.Writes pushed.packet body rest
              ∧ pushed.link.port.accepted ++ rest = link.port.accepted ++ owed) := by
  obtain ⟨calls, port, held, emitter, linked, packed, ending⟩ := h.push
  simp only [linked, packed] at kept ⊢
  refine ⟨trivial, ?_, emitter, rfl, ?_⟩
  · simp [RecordedPort.delivered, ending.delivered]
  · generalize (link.push packet).result = result at ending ⊢
    cases ending with
    | complete closed =>
        refine .inl ⟨rfl, closed, ?_⟩
        simp [RecordedPort.accepted]
    | @refused sent byte rest _ _ split later =>
        refine .inr ⟨rfl, byte :: rest, later, ?_⟩
        simp [RecordedPort.accepted, List.filterMap_cons, split]
    | failed split later => simp [RecordedPort.lost] at kept

end PacketBus.Link
