/-! The checksum of a frame: an eight-bit remainder modulo x^8 + x^2 + x + 1.
The register starts at zero, takes each byte with its most significant bit first and is read as
it stands, so a run followed by its own checksum leaves the register at zero.
-/

namespace PacketBus.Checksum

/-- The low coefficients of the dividing polynomial. -/
def polynomial : UInt8 := 0x07

/-- Multiplies the register by x modulo the polynomial. -/
def shift (register : UInt8) : UInt8 :=
  if register &&& 0x80 = 0 then register <<< 1 else (register <<< 1) ^^^ polynomial

/-- Takes one byte into the register. -/
def update (register byte : UInt8) : UInt8 :=
  Nat.repeat shift 8 (register ^^^ byte)

/-- The register after a run of bytes. -/
def run (register : UInt8) (bytes : List UInt8) : UInt8 :=
  bytes.foldl update register

/-- The checksum of a run of bytes. -/
def ofBytes (bytes : List UInt8) : UInt8 :=
  run 0 bytes

@[simp] theorem run_nil (register : UInt8)
    : run register [] = register :=
  rfl

@[simp] theorem run_cons (register byte : UInt8) (rest : List UInt8)
    : run register (byte :: rest) = run (update register byte) rest :=
  rfl

theorem run_append (register : UInt8) (front back : List UInt8)
    : run register (front ++ back) = run (run register front) back :=
  List.foldl_append

/-- A byte equal to the register clears it. -/
theorem update_self (register : UInt8)
    : update register register = 0 := by
  rw [update, UInt8.xor_self]
  decide

/-- A run that ends in its own checksum leaves nothing in the register. -/
theorem ofBytes_append_ofBytes (bytes : List UInt8)
    : ofBytes (bytes ++ [ofBytes bytes]) = 0 := by
  simp [ofBytes, run_append, update_self]

end PacketBus.Checksum
