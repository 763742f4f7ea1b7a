import PacketBus.Frame.Wire
import PacketBus.Proofs.Frame.Items

/-! The algebra of the checksum.
The register is linear in what it takes and forgets nothing, so a run that leaves it empty goes on
to do so behind a first part exactly if that part left it empty.
-/

namespace PacketBus.Checksum

theorem and_top_eq (byte : UInt8)
    : byte &&& 0x80 = 0 ∨ byte &&& 0x80 = 0x80 := by
  obtain ⟨⟨⟨n, small⟩⟩⟩ := byte
  revert n
  decide +kernel

/-- Multiplying the register is linear, by the top bits that leave it. -/
theorem shift_xor (a b : UInt8)
    : shift (a ^^^ b) = shift a ^^^ shift b := by
  have top : (a ^^^ b) &&& 0x80 = (a &&& 0x80) ^^^ (b &&& 0x80) :=
    UInt8.toNat_inj.mp (by simp [Nat.and_xor_distrib_right])
  unfold shift
  rw [top, UInt8.shiftLeft_xor]
  rcases and_top_eq a with ha | ha
  · rcases and_top_eq b with hb | hb
    · simp [ha, hb]
    · simp [ha, hb, UInt8.xor_assoc]
  · rcases and_top_eq b with hb | hb
    · have moved : (a <<< 1 ^^^ b <<< 1) ^^^ polynomial
          = (a <<< 1 ^^^ polynomial) ^^^ b <<< 1 := by
        ac_rfl
      simp [ha, hb, moved]
    · -- Both top bits leave, and the polynomial that each brings in cancels the other.
      have cancelled : (a <<< 1 ^^^ polynomial) ^^^ (b <<< 1 ^^^ polynomial)
          = (a <<< 1 ^^^ b <<< 1) ^^^ (polynomial ^^^ polynomial) := by
        ac_rfl
      simp [ha, hb, cancelled]

theorem shift_eq_zero {register : UInt8} (h : shift register = 0)
    : register = 0 := by
  obtain ⟨⟨⟨n, small⟩⟩⟩ := register
  revert h
  revert n
  decide +kernel

theorem repeat_shift_xor (count : Nat) (a b : UInt8)
    : Nat.repeat shift count (a ^^^ b) = Nat.repeat shift count a ^^^ Nat.repeat shift count b := by
  induction count with
  | zero => rfl
  | succ count ih => rw [Nat.repeat, ih, shift_xor, Nat.repeat, Nat.repeat]

theorem repeat_shift_eq_zero {count : Nat} {register : UInt8}
    (h : Nat.repeat shift count register = 0)
    : register = 0 := by
  induction count with
  | zero => exact h
  | succ count ih => exact ih (shift_eq_zero h)

/-- The register depends on itself and the byte taken only through their difference. -/
theorem update_eq_update_iff {a b x y : UInt8}
    : update a x = update b y ↔ a ^^^ x = b ^^^ y := by
  constructor
  · intro same
    have difference : Nat.repeat shift 8 ((a ^^^ x) ^^^ (b ^^^ y)) = 0 := by
      rw [repeat_shift_xor]
      exact UInt8.xor_eq_zero_iff.mpr same
    exact UInt8.xor_eq_zero_iff.mp (repeat_shift_eq_zero difference)
  · intro same
    rw [update, update, same]

theorem update_eq_zero_iff {register byte : UInt8}
    : update register byte = 0 ↔ byte = register := by
  rw [← update_self 0, update_eq_update_iff, UInt8.xor_self, UInt8.xor_eq_zero_iff]
  exact eq_comm

/-- A run forgets nothing of the register it begins with, by induction on the run. -/
theorem run_eq_run_iff {a b : UInt8} (bytes : List UInt8)
    : run a bytes = run b bytes ↔ a = b := by
  induction bytes generalizing a b with
  | nil => exact Iff.rfl
  | cons byte rest ih =>
      rw [run_cons, run_cons, ih, update_eq_update_iff]
      exact UInt8.xor_left_inj byte

/-- A run that ends in its own checksum is one that leaves the register empty. -/
theorem ofBytes_append_eq_zero_iff {front : List UInt8} {last : UInt8}
    : ofBytes (front ++ [last]) = 0 ↔ last = ofBytes front := by
  rw [ofBytes, run_append, run_cons, run_nil, update_eq_zero_iff]
  rfl

end PacketBus.Checksum
