import Mathlib.Algebra.GroupWithZero.Nat
import PacketBus.Proofs.Reception.Running

/-! A stream that comes in chunks.
Each call takes bytes up to the one that ends a frame and no further, so that it does not matter to
a frame where the chunks are cut, nor to the packet behind it.
-/

namespace PacketBus.Packet

/-- A frame that ended in a stream, whether it is complete or lost. -/
structure FrameEnd where
  /-- How many bytes of the stream were taken with the one that ended the frame. -/
  place : Nat
  result : Except Failure FrameStatus
  /-- The packet behind that byte. -/
  packet : Packet

/-- The frames that end in a number of calls, of which the first begins at a place of the stream. -/
def frameEnds (start : Nat) : List (Reception × Packet) → List FrameEnd
  | [] => []
  | (reception, q) :: rest =>
      let place := start + reception.used
      match reception.result with
      | .ok .unfinished => frameEnds place rest
      | result => ⟨place, result, q⟩ :: frameEnds place rest

/-- How many bytes a number of calls take. -/
def taken (calls : List (Reception × Packet)) : Nat := (calls.map (·.1.used)).sum

/-- The packet behind a number of calls. -/
def behind (p : Packet) (calls : List (Reception × Packet)) : Packet :=
  calls.foldl (fun _ call => call.2) p

/-- Takes each byte by a call of its own. -/
def receiveEach (p : Packet) (bytes : List UInt8) : List (Reception × Packet) :=
  (p.trace bytes).map fun step => (⟨step.1, 1⟩, step.2)

/-- Takes one chunk after the other, each until none of it is left. -/
def receiveChunks (p : Packet) : List (List UInt8) → List (Reception × Packet)
  | [] => []
  | chunk :: rest => p.receiveAll chunk ++ (p.behind (p.receiveAll chunk)).receiveChunks rest

-----------------------------------------------------------------------------------------
-- Calls in a row
-----------------------------------------------------------------------------------------

theorem taken_cons (call : Reception × Packet) (rest : List (Reception × Packet))
    : taken (call :: rest) = call.1.used + taken rest :=
  rfl

theorem taken_append (front back : List (Reception × Packet))
    : taken (front ++ back) = taken front + taken back := by
  simp [taken]

theorem behind_append (p : Packet) (front back : List (Reception × Packet))
    : p.behind (front ++ back) = (p.behind front).behind back :=
  List.foldl_append ..

theorem receiveEach_cons (p : Packet) (byte : UInt8) (rest : List UInt8)
    : p.receiveEach (byte :: rest)
      = (⟨(p.receive byte).1, 1⟩, (p.receive byte).2) :: (p.receive byte).2.receiveEach rest :=
  rfl

theorem receiveEach_append (p : Packet) (front back : List UInt8)
    : p.receiveEach (front ++ back) = p.receiveEach front ++ (p.fed front).receiveEach back := by
  simp only [receiveEach, trace_append, List.map_append]

theorem taken_receiveEach (p : Packet) (bytes : List UInt8)
    : taken (p.receiveEach bytes) = bytes.length := by
  induction bytes generalizing p with
  | nil => rfl
  | cons byte rest ih =>
      rw [receiveEach_cons, taken_cons, ih, List.length_cons, Nat.add_comm]

theorem frameEnds_cons (start : Nat) (call : Reception × Packet)
    (rest : List (Reception × Packet))
    : frameEnds start (call :: rest)
      = frameEnds start [call] ++ frameEnds (start + call.1.used) rest := by
  obtain ⟨⟨result, used⟩, q⟩ := call
  rcases result with failure | _ | _
  · rfl
  · rfl
  · rfl

/-- Further calls begin where the first ones end, by induction on these. -/
theorem frameEnds_append (start : Nat) (front back : List (Reception × Packet))
    : frameEnds start (front ++ back)
      = frameEnds start front ++ frameEnds (start + taken front) back := by
  induction front generalizing start with
  | nil => rfl
  | cons call rest ih =>
      rw [List.cons_append, frameEnds_cons, ih, frameEnds_cons start call rest,
        List.append_assoc, taken_cons, Nat.add_assoc]

-----------------------------------------------------------------------------------------
-- One call
-----------------------------------------------------------------------------------------

/-- Where no frame ends, it does not matter how far a call had come before. -/
theorem frameEnds_later (start used more : Nat) (result : Except Failure FrameStatus) (q : Packet)
    : frameEnds start [(⟨result, used + more⟩, q)]
      = frameEnds (start + more) [(⟨result, used⟩, q)] := by
  have place : start + (used + more) = start + more + used := by omega
  rcases result with failure | _ | _
  · simp only [frameEnds, place]
  · rfl
  · simp only [frameEnds, place]

/-- A call comes to what its bytes come to one by one, by induction on the bytes. -/
theorem frameEnds_receiveFrame (p : Packet) (start : Nat) (bytes : List UInt8)
    : let call := p.receiveFrame bytes
      let front := bytes.take call.1.used
      frameEnds start [call] = frameEnds start (p.receiveEach front) ∧ call.2 = p.fed front := by
  induction bytes generalizing p start with
  | nil => exact ⟨rfl, rfl⟩
  | cons byte rest ih =>
      simp only [receiveFrame]
      rcases received : p.receive byte with ⟨failure | _ | _, q⟩
      · simp [receiveEach, trace, received]
      · obtain ⟨ends, final⟩ := ih q (start + 1)
        simp only [List.take_succ_cons, fed_cons, received, final, and_true, frameEnds_later,
          receiveEach_cons]
        rw [← final]
        exact ends
      · simp [receiveEach, trace, received]

-----------------------------------------------------------------------------------------
-- A chunk, and a stream of them
-----------------------------------------------------------------------------------------

/-- What a number of calls has in common with taking a run of bytes one by one: the frames that end
at each place, the packet, and how far they come, in not many more calls than there are bytes. -/
structure Covers (p : Packet) (calls : List (Reception × Packet)) (bytes : List UInt8)
    (surplus : Nat) : Prop where
  frameEnds : ∀ start, frameEnds start calls = frameEnds start (p.receiveEach bytes)
  behind : p.behind calls = p.fed bytes
  taken : taken calls = bytes.length
  count : calls.length ≤ bytes.length + surplus

theorem Covers.append {p : Packet} {calls calls' : List (Reception × Packet)}
    {bytes bytes' : List UInt8} {surplus surplus' : Nat} (h : p.Covers calls bytes surplus)
    (next : (p.fed bytes).Covers calls' bytes' surplus')
    : p.Covers (calls ++ calls') (bytes ++ bytes') (surplus + surplus') where
  frameEnds start := by
    rw [frameEnds_append, h.frameEnds, h.taken, next.frameEnds, receiveEach_append,
      frameEnds_append, taken_receiveEach]
  behind := by rw [behind_append, h.behind, next.behind, fed_append]
  taken := by rw [taken_append, h.taken, next.taken, List.length_append]
  count := by
    have first := h.count
    have second := next.count
    simp only [List.length_append]
    omega

/-- One call covers the bytes that it takes. -/
theorem covers_receiveFrame (p : Packet) (bytes : List UInt8)
    : p.Covers [p.receiveFrame bytes] (bytes.take (p.receiveFrame bytes).1.used) 1 where
  frameEnds start := (p.frameEnds_receiveFrame start bytes).1
  behind := (p.frameEnds_receiveFrame 0 bytes).2
  taken := by simp [taken, p.used_receiveFrame_le bytes]
  count := Nat.le_add_left 1 _

/-- The calls for a chunk use it up, by the recursion of `receiveAll`. -/
theorem covers_receiveAll (p : Packet) (chunk : List UInt8)
    : p.Covers (p.receiveAll chunk) chunk 1 := by
  fun_induction Packet.receiveAll p chunk with
  | case1 p chunk step rest ih =>
      have first : p.Covers [step] (chunk.take step.1.used) 1 := p.covers_receiveFrame chunk
      have split : chunk.take step.1.used ++ rest = chunk := List.take_append_drop _ chunk
      by_cases done : rest = []
      · rw [done, List.append_nil] at split
        rw [if_pos done]
        exact split ▸ first
      · -- The call has taken a byte, which makes up for the call itself.
        have nonempty : chunk ≠ [] := fun none => done (by simp [rest, none])
        have some : 1 ≤ step.1.used := p.used_receiveFrame_pos nonempty
        have early : p.Covers [step] (chunk.take step.1.used) 0 :=
          { first with count := by simpa [first.taken.symm, taken] using some }
        have later : (p.fed (chunk.take step.1.used)).Covers (step.2.receiveAll rest) rest 1 :=
          first.behind ▸ ih done
        rw [if_neg done]
        exact split ▸ early.append later

/-- By induction on the chunks. -/
theorem covers_receiveChunks (p : Packet) (chunks : List (List UInt8))
    : p.Covers (p.receiveChunks chunks) chunks.flatten chunks.length := by
  induction chunks generalizing p with
  | nil => exact ⟨fun _ => rfl, rfl, rfl, Nat.le_refl 0⟩
  | cons chunk rest ih =>
      have first := p.covers_receiveAll chunk
      simp only [receiveChunks, List.flatten_cons, first.behind, List.length_cons]
      rw [Nat.add_comm]
      exact first.append (ih (p.fed chunk))

end PacketBus.Packet
