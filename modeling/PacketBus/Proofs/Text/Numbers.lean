import PacketBus.Text.Hex

/-! Numbers in hexadecimal that have a least number of digits.
The digits of a number read back as it, and no zero stands in front of them but to fill them up.
-/

namespace PacketBus.Hex

/-- Reads a number from its lower-case digits, the most significant one first. -/
def number? (digits : List Char) : Option Nat :=
  digits.foldlM (fun number c => (value? c).map (16 * number + ·)) 0

/-- The digits are those of a number, at least so many, with no zero in front beyond these. -/
structure IsNumber (width value : Nat) (digits : List Char) : Prop where
  reads : number? digits = some value
  wide : width ≤ digits.length
  noLonger : width < digits.length → digits.head? ≠ some '0'

-----------------------------------------------------------------------------------------
-- Digits
-----------------------------------------------------------------------------------------

/-- Each digit reads back as its value, by looking at the sixteen cases. -/
theorem value?_digitChar {value : Nat} (h : value < 16)
    : value? value.digitChar = some value := by
  have cases : ∀ n : Fin 16, value? n.val.digitChar = some n.val := by decide
  exact cases ⟨value, h⟩

/-- Only the digit zero is shown as a zero, by looking at the sixteen cases. -/
theorem digitChar_ne_zero {value : Nat} (h : value < 16) (positive : value ≠ 0)
    : value.digitChar ≠ '0' := by
  have cases : ∀ n : Fin 16, n.val ≠ 0 → n.val.digitChar ≠ '0' := by decide
  exact cases ⟨value, h⟩ positive

/-- A digit takes one byte, for it lies between two characters that do. -/
theorem utf8Size_of_value? {c : Char} (digit : (value? c).isSome = true)
    : c.utf8Size = 1 := by
  rw [Char.utf8Size_eq_one_iff]
  simp only [value?] at digit
  split at digit
  · next h => exact UInt32.le_trans h.2 (by decide)
  · split at digit
    · next h => exact UInt32.le_trans h.2 (by decide)
    · cases digit

-----------------------------------------------------------------------------------------
-- Numbers
-----------------------------------------------------------------------------------------

theorem number?_append_digit {digits : List Char} {number value : Nat}
    (front : number? digits = some number) (small : value < 16)
    : number? (digits ++ [value.digitChar]) = some (16 * number + value) := by
  unfold number? at front ⊢
  rw [List.foldlM_append, front]
  simp [value?_digitChar small]

/-- Zeros in front change nothing, by induction on their number. -/
theorem number?_zeros_append (count : Nat) (digits : List Char)
    : number? (List.replicate count '0' ++ digits) = number? digits := by
  have zero : value? '0' = some 0 := by decide
  induction count with
  | zero => rfl
  | succ count ih =>
      rw [← ih, List.replicate_succ, List.cons_append]
      simp [number?, zero]

/-- The digits of a number read back as it, by induction on the number. -/
theorem number?_toDigits (value : Nat)
    : number? (Nat.toDigits 16 value) = some value := by
  induction value using Nat.strongRecOn with
  | ind value ih =>
      rw [Nat.toDigits_eq_if (by decide)]
      split
      · next small =>
          have none : number? [] = some 0 := rfl
          simpa using number?_append_digit none small
      · next large =>
          rw [number?_append_digit (ih _ (by omega)) (Nat.mod_lt _ (by decide)),
            Nat.div_add_mod]

/-- The first digit of a number that is not zero is none, by induction on the number. -/
theorem head?_toDigits_ne_zero {value : Nat} (positive : value ≠ 0)
    : (Nat.toDigits 16 value).head? ≠ some '0' := by
  induction value using Nat.strongRecOn with
  | ind value ih =>
      rw [Nat.toDigits_eq_if (by decide)]
      split
      · next small => simpa using digitChar_ne_zero small positive
      · next large =>
          have front := ih (value / 16) (by omega) (by omega)
          cases digits : Nat.toDigits 16 (value / 16) with
          | nil => exact absurd digits Nat.toDigits_ne_nil
          | cons digit rest => rwa [digits] at front

/-- What reads as a number has digits only, by induction on the digits. -/
theorem value?_of_number? {digits : List Char} {value : Nat} (reads : number? digits = some value)
    : ∀ c ∈ digits, (value? c).isSome = true := by
  have general (start : Nat)
      (h : digits.foldlM (fun number c => (value? c).map (16 * number + ·)) start = some value)
      : ∀ c ∈ digits, (value? c).isSome = true := by
    clear reads
    induction digits generalizing start with
    | nil => simp
    | cons c rest ih =>
        cases first : value? c with
        | none => simp [first] at h
        | some digit =>
            rw [List.forall_mem_cons]
            exact ⟨by rw [first]; rfl, ih _ (by simpa [first] using h)⟩
  exact general 0 reads

theorem length_ofNat (width value : Nat)
    : (ofNat width value).length = max width (Nat.toDigits 16 value).length := by
  simp only [ofNat, String.length_ofList, List.length_append, List.length_replicate]
  omega

theorem isNumber_ofNat {width : Nat} (positive : 0 < width) (value : Nat)
    : IsNumber width value (ofNat width value).toList where
  reads := by
    rw [ofNat, String.toList_ofList, number?_zeros_append, number?_toDigits]
  wide := by
    rw [String.length_toList, length_ofNat]
    omega
  noLonger longer := by
    rw [String.length_toList, length_ofNat] at longer
    have unfilled : width - (Nat.toDigits 16 value).length = 0 := by omega
    have large : value ≠ 0 := by
      rintro rfl
      rw [Nat.toDigits_zero] at longer
      simp only [List.length_singleton] at longer
      omega
    rw [ofNat, String.toList_ofList, unfilled]
    exact head?_toDigits_ne_zero large

theorem value?_of_mem_ofNat {width value : Nat} {c : Char} (member : c ∈ (ofNat width value).toList)
    : (value? c).isSome = true := by
  have reads : number? (ofNat width value).toList = some value := by
    rw [ofNat, String.toList_ofList, number?_zeros_append, number?_toDigits]
  exact value?_of_number? reads c member

end PacketBus.Hex
