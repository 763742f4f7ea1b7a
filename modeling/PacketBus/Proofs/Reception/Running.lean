import PacketBus.Packet.Reception

/-! A packet that takes a run of bytes one after the other.
A run is told by what each of its bytes brings, and the reception of a whole frame is read off the
run up to the first byte that ends the frame.
-/

namespace PacketBus.Packet

/-- A packet of a capacity that has never received anything. -/
def fresh (capacity : Nat) : Packet := .ofStorage (List.replicate capacity 0)

theorem capacity_fresh (capacity : Nat)
    : (fresh capacity).capacity = capacity :=
  List.length_replicate

/-- What each byte of a run brings, with the packet behind that byte. -/
def trace (p : Packet) : List UInt8 → List (Except Failure FrameStatus × Packet)
  | [] => []
  | byte :: rest => p.receive byte :: (p.receive byte).2.trace rest

/-- The packet behind a run of bytes. -/
def fed (p : Packet) (bytes : List UInt8) : Packet :=
  bytes.foldl (fun q byte => (q.receive byte).2) p

@[simp] theorem fed_nil (p : Packet)
    : p.fed [] = p :=
  rfl

@[simp] theorem fed_cons (p : Packet) (byte : UInt8) (rest : List UInt8)
    : p.fed (byte :: rest) = (p.receive byte).2.fed rest :=
  rfl

theorem fed_append (p : Packet) (front back : List UInt8)
    : p.fed (front ++ back) = (p.fed front).fed back :=
  List.foldl_append

/-- The trace of a run goes on from the packet behind its first part, by induction on that part. -/
theorem trace_append (p : Packet) (front back : List UInt8)
    : p.trace (front ++ back) = p.trace front ++ (p.fed front).trace back := by
  induction front generalizing p with
  | nil => rfl
  | cons byte rest ih => simp only [List.cons_append, trace, fed_cons, ih]

theorem length_trace (p : Packet) (bytes : List UInt8)
    : (p.trace bytes).length = bytes.length := by
  induction bytes generalizing p with
  | nil => rfl
  | cons byte rest ih => exact congrArg (· + 1) (ih _)

/-- A packet takes a run of bytes of which each brings an allowed result. -/
inductive Takes (allowed : Except Failure FrameStatus → Prop)
    : Packet → List UInt8 → Packet → Prop
  | nil {p} : Takes allowed p [] p
  | cons {p q r byte rest result} (first : p.receive byte = (result, q))
    (permitted : allowed result) (more : Takes allowed q rest r)
    : Takes allowed p (byte :: rest) r

/-- A packet takes a run of bytes of which none ends a frame. -/
abbrev Absorbs : Packet → List UInt8 → Packet → Prop :=
  Takes (· = .ok .unfinished)

namespace Takes

variable {allowed : Except Failure FrameStatus → Prop} {p q r : Packet}

theorem single {byte : UInt8} {result : Except Failure FrameStatus}
    (first : p.receive byte = (result, q)) (permitted : allowed result)
    : Takes allowed p [byte] q :=
  .cons first permitted .nil

/-- Runs compose, by induction on the first. -/
theorem trans {front back : List UInt8} (h : Takes allowed p front q)
    (next : Takes allowed q back r)
    : Takes allowed p (front ++ back) r := by
  induction h with
  | nil => exact next
  | cons first permitted _ ih => exact .cons first permitted (ih next)

/-- What is allowed may be widened, by induction on the run. -/
theorem mono {wider : Except Failure FrameStatus → Prop} {bytes : List UInt8}
    (h : Takes allowed p bytes q) (implied : ∀ result, allowed result → wider result)
    : Takes wider p bytes q := by
  induction h with
  | nil => exact .nil
  | cons first permitted _ ih => exact .cons first (implied _ permitted) ih

/-- A run ends at the packet fed with it, by induction on the run. -/
theorem fed_eq {bytes : List UInt8} (h : Takes allowed p bytes q)
    : p.fed bytes = q := by
  induction h with
  | nil => rfl
  | cons first _ _ ih => rw [fed_cons, first, ih]

end Takes

theorem Absorbs.results {p q : Packet} {bytes : List UInt8} (h : Absorbs p bytes q)
    : (p.trace bytes).map Prod.fst = List.replicate bytes.length (.ok .unfinished) := by
  induction h with
  | nil => rfl
  | cons first permitted _ ih =>
      simp only [trace, first, List.map_cons, ih, permitted, List.length_cons, List.replicate_succ]

/-- Reception goes on behind a run that ends no frame, by induction on the run. -/
theorem Absorbs.receiveFrame_append {p q : Packet} {bytes : List UInt8} (h : Absorbs p bytes q)
    (rest : List UInt8)
    : p.receiveFrame (bytes ++ rest)
      = ({ (q.receiveFrame rest).1 with used := bytes.length + (q.receiveFrame rest).1.used },
          (q.receiveFrame rest).2) := by
  induction h with
  | nil => simp
  | cons first permitted _ ih =>
      subst permitted
      simp only [List.cons_append, receiveFrame, first, ih, List.length_cons]
      congr 2
      omega

theorem Absorbs.receiveFrame {p q : Packet} {bytes : List UInt8} (h : Absorbs p bytes q)
    : p.receiveFrame bytes = (⟨.ok .unfinished, bytes.length⟩, q) := by
  simpa [Packet.receiveFrame] using h.receiveFrame_append []

/-- A packet takes a run of bytes of which only the last may end a frame. -/
inductive Ends : Packet → List UInt8 → Except Failure FrameStatus → Packet → Prop
  | intro {p q result} (front : List UInt8) (byte : UInt8) (middle : Packet)
    (before : Absorbs p front middle) (last : middle.receive byte = (result, q))
    : Ends p (front ++ [byte]) result q

theorem Absorbs.ends {p q r : Packet} {front back : List UInt8}
    {result : Except Failure FrameStatus} (h : Absorbs p front q) (next : Ends q back result r)
    : Ends p (front ++ back) result r := by
  obtain ⟨rest, byte, middle, before, last⟩ := next
  rw [← List.append_assoc]
  exact .intro (front ++ rest) byte middle (h.trans before) last

namespace Ends

variable {p q : Packet} {bytes : List UInt8} {result : Except Failure FrameStatus}

/-- A run that ends in an allowed result is one of allowed results. -/
theorem takes {allowed : Except Failure FrameStatus → Prop} (h : Ends p bytes result q)
    (quiet : allowed (.ok .unfinished)) (permitted : allowed result)
    : Takes allowed p bytes q := by
  obtain ⟨front, byte, middle, before, last⟩ := h
  exact (before.mono fun _ unfinished => unfinished ▸ quiet).trans (.single last permitted)

theorem fed_eq (h : Ends p bytes result q)
    : p.fed bytes = q := by
  obtain ⟨front, byte, middle, before, last⟩ := h
  rw [fed_append, before.fed_eq, fed_cons, last, fed_nil]

/-- The trace of a run has one entry for its last byte behind those that end no frame. -/
theorem trace_eq (h : Ends p bytes result q)
    : ∃ quiet, p.trace bytes = quiet ++ [(result, q)]
        ∧ quiet.map Prod.fst = List.replicate (bytes.length - 1) (.ok .unfinished) := by
  obtain ⟨front, byte, middle, before, last⟩ := h
  refine ⟨p.trace front, ?_, ?_⟩
  · rw [trace_append, before.fed_eq, trace, last, trace]
  · simpa using before.results

theorem results (h : Ends p bytes result q)
    : (p.trace bytes).map Prod.fst
      = List.replicate (bytes.length - 1) (.ok .unfinished) ++ [result] := by
  obtain ⟨quiet, trace, unfinished⟩ := h.trace_eq
  rw [trace, List.map_append, unfinished]
  rfl

/-- The first part of a run ends no frame. -/
theorem quiet {front back : List UInt8} (h : Ends p (front ++ back) result q) (more : back ≠ [])
    : (p.trace front).map Prod.fst = List.replicate front.length (.ok .unfinished) := by
  have longer := List.length_pos_iff.mpr more
  have whole := congrArg (List.take front.length) h.results
  rw [trace_append, List.map_append, List.take_append_of_le_length (by simp [length_trace]),
    List.take_of_length_le (by simp [length_trace]),
    List.take_append_of_le_length (by rw [List.length_replicate, List.length_append]; omega),
    List.take_replicate] at whole
  rw [whole, List.length_append]
  congr 1
  omega

/-- A byte of a run ends a frame only if it is the last one. -/
theorem receive {front back : List UInt8} {byte : UInt8}
    (h : Ends p (front ++ byte :: back) result q)
    : if back = [] then (p.fed front).receive byte = (result, q)
      else ((p.fed front).receive byte).1 = .ok .unfinished := by
  split
  · next last =>
      subst last
      obtain ⟨quiet, trace, _⟩ := h.trace_eq
      rw [trace_append] at trace
      exact (List.cons.inj (List.append_inj_right' trace rfl)).1
  · next more =>
      have split : front ++ byte :: back = (front ++ [byte]) ++ back := by simp
      rw [split] at h
      have results := h.quiet more
      rw [trace_append, List.map_append, List.length_append, List.length_singleton,
        List.replicate_succ'] at results
      exact (List.cons.inj (List.append_inj_right' results rfl)).1

/-- Reception ends with the run, and leaves what is behind it. -/
theorem receiveFrame (h : Ends p bytes result q) (ended : result ≠ .ok .unfinished)
    (rest : List UInt8)
    : p.receiveFrame (bytes ++ rest) = (⟨result, bytes.length⟩, q) := by
  obtain ⟨front, byte, middle, before, last⟩ := h
  have stops : middle.receiveFrame (byte :: rest) = (⟨result, 1⟩, q) := by
    simp only [Packet.receiveFrame, last]
  rw [List.append_assoc, List.singleton_append, before.receiveFrame_append, stops]
  simp

end Ends

end PacketBus.Packet
