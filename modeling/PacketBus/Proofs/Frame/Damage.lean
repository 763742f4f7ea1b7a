import PacketBus.Proofs.Frame.Residue

/-! Damage to a run of bytes on its way, and what it leaves in the register of the checksum.
The register takes a run bit by bit. So damage within eight bits in a row leaves something in it
that no later bit takes away, and damage to an odd number of bits leaves an odd number of them.
-/

namespace PacketBus.Checksum

-----------------------------------------------------------------------------------------
-- A run bit by bit
-----------------------------------------------------------------------------------------

/-- The bits of a byte, the most significant first. -/
def bits (byte : UInt8) : List Bool :=
  (List.range 8).map byte.toBitVec.getMsbD

/-- The bits of a run of bytes, in the order in which the register takes them. -/
def bitsOf (bytes : List UInt8) : List Bool :=
  bytes.flatMap bits

/-- Takes one bit into the register. -/
def takeBit (register : UInt8) (bit : Bool) : UInt8 :=
  shift (register ^^^ if bit then 0x80 else 0)

/-- The register after a run of bits. -/
def runBits (register : UInt8) (run : List Bool) : UInt8 :=
  run.foldl takeBit register

theorem runBits_append (register : UInt8) (front back : List Bool)
    : runBits register (front ++ back) = runBits (runBits register front) back :=
  List.foldl_append

theorem repeat_shift_succ (count : Nat) (register : UInt8)
    : Nat.repeat shift (count + 1) register = Nat.repeat shift count (shift register) := by
  induction count with
  | zero => rfl
  | succ count ih => exact congrArg shift ih

theorem repeat_shift_zero (count : Nat)
    : Nat.repeat shift count 0 = 0 := by
  induction count with
  | zero => rfl
  | succ count ih =>
      rw [Nat.repeat, ih]
      rfl

/-- What is in the register before a run of bits is shifted on and adds to what the run leaves
there, by induction on the run. -/
theorem runBits_xor (a b : UInt8) (run : List Bool)
    : runBits (a ^^^ b) run = Nat.repeat shift run.length a ^^^ runBits b run := by
  induction run generalizing a b with
  | nil => rfl
  | cons bit rest ih =>
      have taken : takeBit (a ^^^ b) bit = shift a ^^^ takeBit b bit := by
        rw [takeBit, UInt8.xor_assoc, shift_xor, takeBit]
      calc
        runBits (a ^^^ b) (bit :: rest) = runBits (shift a ^^^ takeBit b bit) rest :=
          congrArg (runBits · rest) taken
        _ = Nat.repeat shift rest.length (shift a) ^^^ runBits (takeBit b bit) rest := ih _ _
        _ = Nat.repeat shift (bit :: rest).length a ^^^ runBits b (bit :: rest) := by
          rw [List.length_cons, repeat_shift_succ]
          rfl

/-- Bits that are not set shift the register on. -/
theorem runBits_of_clear (register : UInt8) {run : List Bool} (clear : true ∉ run)
    : runBits register run = Nat.repeat shift run.length register := by
  induction run generalizing register with
  | nil => rfl
  | cons bit rest ih =>
      have others : true ∉ rest := fun set => clear (List.mem_cons_of_mem _ set)
      obtain rfl : bit = false := by
        cases bit with
        | false => rfl
        | true => exact absurd List.mem_cons_self clear
      rw [List.length_cons, repeat_shift_succ, ← ih (shift register) others]
      simp [runBits, takeBit]

theorem runBits_bits_of_zero (byte : UInt8)
    : runBits 0 (bits byte) = Nat.repeat shift 8 byte := by
  obtain ⟨⟨⟨n, small⟩⟩⟩ := byte
  revert n
  decide +kernel

/-- The register takes a byte by taking its bits. -/
theorem update_eq_runBits (register byte : UInt8)
    : update register byte = runBits register (bits byte) := by
  have split := runBits_xor register 0 (bits byte)
  rw [UInt8.xor_zero, runBits_bits_of_zero] at split
  rw [split, update, repeat_shift_xor]
  rfl

/-- By induction on the bytes. -/
theorem run_eq_runBits (register : UInt8) (bytes : List UInt8)
    : run register bytes = runBits register (bitsOf bytes) := by
  induction bytes generalizing register with
  | nil => rfl
  | cons byte rest ih =>
      rw [run_cons, ih, update_eq_runBits, bitsOf, bitsOf, List.flatMap_cons, runBits_append]

-----------------------------------------------------------------------------------------
-- Damage within eight bits in a row
-----------------------------------------------------------------------------------------

/-- All bits that are set lie within eight in a row. -/
def IsBurst (damage : List Bool) : Prop :=
  ∃ start, ∀ place, damage[place]? = some true → start ≤ place ∧ place < start + 8

theorem exists_bits_eq {run : List Bool} (eight : run.length = 8)
    : ∃ byte, bits byte = run := by
  refine ⟨⟨(BitVec.ofBoolListBE run).cast eight⟩, ?_⟩
  apply List.ext_getElem
  · simp [bits, eight]
  · intro place _ within
    simp [bits, BitVec.getMsbD_ofBoolListBE, within]

theorem eq_zero_of_clear {byte : UInt8} (clear : true ∉ bits byte)
    : byte = 0 := by
  obtain ⟨⟨⟨n, small⟩⟩⟩ := byte
  revert clear
  revert n
  decide +kernel

/-- Up to eight bits leave the register empty only if none of them is set: with bits in front that
are not set they are those of one byte. -/
theorem clear_of_short {run : List Bool} (short : run.length ≤ 8) (empty : runBits 0 run = 0)
    : true ∉ run := by
  have eight : (List.replicate (8 - run.length) false ++ run).length = 8 := by
    simp only [List.length_append, List.length_replicate]
    omega
  obtain ⟨byte, padded⟩ := exists_bits_eq eight
  have front : true ∉ List.replicate (8 - run.length) false := by simp
  have none : update 0 byte = 0 := by
    rw [update_eq_runBits, padded, runBits_append, runBits_of_clear 0 front, repeat_shift_zero,
      empty]
  obtain rfl := update_eq_zero_iff.mp none
  intro set
  have found : true ∈ bits 0 := by
    rw [padded]
    exact List.mem_append_right _ set
  exact absurd found (by decide)

/-- A burst of damage does not leave the register empty. Before it nothing is in the register, and
behind it the register is only shifted on. -/
theorem clear_of_burst {damage : List Bool} (burst : IsBurst damage) (empty : runBits 0 damage = 0)
    : true ∉ damage := by
  obtain ⟨start, within⟩ := burst
  have front : true ∉ damage.take start := by
    intro set
    obtain ⟨place, before, found⟩ := List.mem_take_iff_getElem.mp set
    have inside := within place (List.getElem?_eq_some_iff.mpr ⟨by omega, found⟩)
    omega
  have back : true ∉ damage.drop (start + 8) := by
    intro set
    obtain ⟨place, behind, found⟩ := List.mem_drop_iff_getElem.mp set
    have inside := within _ (List.getElem?_eq_some_iff.mpr ⟨by omega, found⟩)
    omega
  have split : damage
      = damage.take start ++ (damage.drop start).take 8 ++ damage.drop (start + 8) := by
    rw [List.append_assoc, ← List.drop_drop, List.take_append_drop, List.take_append_drop]
  rw [split, runBits_append, runBits_append, runBits_of_clear 0 front, repeat_shift_zero,
    runBits_of_clear _ back] at empty
  have window : true ∉ (damage.drop start).take 8 :=
    clear_of_short (List.length_take_le 8 _) (repeat_shift_eq_zero empty)
  rw [split]
  simp only [List.mem_append, not_or]
  exact ⟨⟨front, window⟩, back⟩

-----------------------------------------------------------------------------------------
-- Damage to an odd number of bits
-----------------------------------------------------------------------------------------

/-- How many bits of a byte are set. -/
def weight (byte : UInt8) : Nat := (bits byte).count true

/-- A bit that leaves the register at its top brings three in, so whether their number is odd does
not change. -/
theorem weight_shift (register : UInt8)
    : weight (shift register) % 2 = weight register % 2 := by
  obtain ⟨⟨⟨n, small⟩⟩⟩ := register
  revert n
  decide +kernel

theorem weight_flip_top (register : UInt8)
    : weight (register ^^^ 0x80) % 2 = (weight register + 1) % 2 := by
  obtain ⟨⟨⟨n, small⟩⟩⟩ := register
  revert n
  decide +kernel

theorem weight_takeBit (register : UInt8) (bit : Bool)
    : weight (takeBit register bit) % 2 = (weight register + [bit].count true) % 2 := by
  rw [takeBit, weight_shift]
  cases bit with
  | false => simp
  | true => simpa using weight_flip_top register

/-- An odd number of bits leaves an odd number of them, by induction on the run. -/
theorem weight_runBits (register : UInt8) (run : List Bool)
    : weight (runBits register run) % 2 = (weight register + run.count true) % 2 := by
  induction run generalizing register with
  | nil => rfl
  | cons bit rest ih =>
      have first := weight_takeBit register bit
      have counted : (bit :: rest).count true = [bit].count true + rest.count true := by
        rw [← List.singleton_append, List.count_append]
      have later : weight (runBits register (bit :: rest)) % 2
          = (weight (takeBit register bit) + rest.count true) % 2 := ih _
      rw [later, counted]
      omega

-----------------------------------------------------------------------------------------
-- What a run becomes
-----------------------------------------------------------------------------------------

/-- The bits in which two runs of bytes differ. -/
def damage (sent received : List UInt8) : List Bool :=
  bitsOf (List.zipWith (· ^^^ ·) sent received)

/-- Some bit is damaged, and either all such bits lie within eight in a row or their number is
odd. -/
def IsEvident (damage : List Bool) : Prop :=
  true ∈ damage ∧ (IsBurst damage ∨ damage.count true % 2 = 1)

/-- The register is linear in a whole run, by induction on the two runs. -/
theorem run_xor_run (a b : UInt8) {sent received : List UInt8}
    (same : received.length = sent.length)
    : run a sent ^^^ run b received = run (a ^^^ b) (List.zipWith (· ^^^ ·) sent received) := by
  induction sent generalizing a b received with
  | nil =>
      obtain rfl := List.length_eq_zero_iff.mp same
      rfl
  | cons first rest ih =>
      cases received with
      | nil => cases same
      | cons first' rest' =>
          have mixed : (a ^^^ first) ^^^ (b ^^^ first') = (a ^^^ b) ^^^ (first ^^^ first') := by
            ac_rfl
          have taken : update a first ^^^ update b first'
              = update (a ^^^ b) (first ^^^ first') := by
            rw [update, update, ← repeat_shift_xor, mixed, update]
          rw [run_cons, run_cons, ih _ _ (Nat.succ.inj same), taken, List.zipWith_cons_cons,
            run_cons]

/-- What is evidently damaged does not leave the register empty. -/
theorem ofBytes_ne_zero_of_evident {sent received : List UInt8}
    (same : received.length = sent.length) (right : ofBytes sent = 0)
    (evident : IsEvident (damage sent received))
    : ofBytes received ≠ 0 := by
  obtain ⟨damaged, burst | odd⟩ := evident
  all_goals
    intro empty
    have left : runBits 0 (damage sent received) = 0 := by
      have difference := run_xor_run 0 0 same
      rw [← ofBytes, ← ofBytes, right, empty, UInt8.xor_self] at difference
      rw [damage, ← run_eq_runBits, ← difference]
  · exact clear_of_burst burst left damaged
  · have count := weight_runBits 0 (damage sent received)
    rw [left] at count
    have none : weight 0 = 0 := by decide
    omega

-----------------------------------------------------------------------------------------
-- One byte that becomes another
-----------------------------------------------------------------------------------------

theorem IsBurst.prepend {front back : List Bool} (h : IsBurst back) (clear : true ∉ front)
    : IsBurst (front ++ back) := by
  obtain ⟨start, within⟩ := h
  refine ⟨front.length + start, fun place set => ?_⟩
  by_cases before : place < front.length
  · rw [List.getElem?_append_left before] at set
    exact absurd (List.mem_of_getElem? set) clear
  · rw [List.getElem?_append_right (Nat.le_of_not_lt before)] at set
    have inside := within _ set
    omega

theorem isBurst_append_clear {front back : List Bool} (short : front.length ≤ 8)
    (clear : true ∉ back)
    : IsBurst (front ++ back) := by
  refine ⟨0, fun place set => ?_⟩
  by_cases before : place < front.length
  · omega
  · rw [List.getElem?_append_right (Nat.le_of_not_lt before)] at set
    exact absurd (List.mem_of_getElem? set) clear

theorem damage_cons (first first' : UInt8) (rest rest' : List UInt8)
    : damage (first :: rest) (first' :: rest') = bits (first ^^^ first') ++ damage rest rest' := by
  rw [damage, List.zipWith_cons_cons, bitsOf, List.flatMap_cons]
  rfl

theorem clear_bits_xor_self (byte : UInt8)
    : true ∉ bits (byte ^^^ byte) := by
  rw [UInt8.xor_self]
  decide

theorem clear_damage_self (run : List UInt8)
    : true ∉ damage run run := by
  induction run with
  | nil => exact List.not_mem_nil
  | cons byte rest ih =>
      rw [damage_cons, List.mem_append, not_or]
      exact ⟨clear_bits_xor_self byte, ih⟩

/-- Another byte in the place of one is a burst of damage, by induction on the run up to there. -/
theorem isBurst_damage_set {run : List UInt8} {index : Nat} {old byte : UInt8}
    (found : run[index]? = some old) (changed : byte ≠ old)
    : true ∈ damage run (run.set index byte) ∧ IsBurst (damage run (run.set index byte)) := by
  induction run generalizing index with
  | nil => cases found
  | cons first rest ih =>
      cases index with
      | zero =>
          obtain rfl : first = old := by simpa using found
          rw [List.set_cons_zero, damage_cons]
          have differs : first ^^^ byte ≠ 0 := fun same =>
            changed (UInt8.xor_eq_zero_iff.mp same).symm
          have set : true ∈ bits (first ^^^ byte) :=
            Decidable.not_not.mp fun clear => differs (eq_zero_of_clear clear)
          exact ⟨List.mem_append_left _ set,
            isBurst_append_clear (Nat.le_of_eq rfl) (clear_damage_self rest)⟩
      | succ index =>
          rw [List.getElem?_cons_succ] at found
          obtain ⟨set, burst⟩ := ih found
          rw [List.set_cons_succ, damage_cons]
          exact ⟨List.mem_append_right _ set, burst.prepend (clear_bits_xor_self first)⟩

end PacketBus.Checksum
