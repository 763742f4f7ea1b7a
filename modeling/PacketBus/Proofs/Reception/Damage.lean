import PacketBus.Proofs.Frame.Damage
import PacketBus.Proofs.Port.Record
import PacketBus.Proofs.Reception.Frames

/-! Damaged frames that a receiver always finds.
The bytes of a frame may become reserved by damage, or cease to be, but what is judged is the
content behind the stuffing; and content with evident damage never ends in its own checksum.
-/

namespace PacketBus.Packet

open PacketBus.Frame (enclosed)

/-- Corruption detection: content of the right length that differs from that of a frame in a burst
of at most eight bits, or in an odd number of bits, is found wrong at the closing delimiter and
brings nothing before. So does one byte that became another, wherever it is. -/
theorem corruption_is_detected (p : Packet) (ready : p.isMidFrame = false) {body : List UInt8}
    (command : body ≠ []) (fits : body.length + 1 ≤ p.capacity)
    : let sent := body ++ [Checksum.ofBytes body]
      let IsDetected := fun received : List UInt8 =>
        (p.trace (enclosed received)).map Prod.fst
          = List.replicate ((enclosed received).length - 1) (.ok .unfinished)
            ++ [.error
                (.checksumMismatch (received.getLastD 0) (Checksum.ofBytes received.dropLast))]
      (∀ received : List UInt8, received.length = sent.length
        → Checksum.IsEvident (Checksum.damage sent received) → IsDetected received)
      ∧ ∀ (index : Nat) (old byte : UInt8), sent[index]? = some old → byte ≠ old
        → IsDetected (sent.set index byte) := by
  intro sent IsDetected
  have between : p.receiver = .between := by simpa [isMidFrame] using ready
  have detected : ∀ received : List UInt8, received.length = sent.length
      → Checksum.IsEvident (Checksum.damage sent received) → IsDetected received := by
    intro received same evident
    have nonempty : received ≠ [] := by
      intro none
      simp [none, sent] at same
    obtain ⟨front, last, rfl⟩ : ∃ front last, received = front ++ [last] :=
      ⟨_, _, (List.dropLast_concat_getLast nonempty).symm⟩
    have long : front.length = body.length := by simpa [sent] using same
    have commanded : front ≠ [] := by
      rw [← List.length_pos_iff, long]
      exact List.length_pos_iff.mpr command
    -- The content is not empty in the register, so its last byte is not the checksum of the others.
    have left := Checksum.ofBytes_ne_zero_of_evident same
      (Checksum.ofBytes_append_ofBytes body) evident
    rw [ne_eq, Checksum.ofBytes_append_eq_zero_iff] at left
    have room : (front ++ [last]).length ≤ p.capacity := by
      rw [same]
      simpa [sent] using fits
    obtain ⟨q, ended, _⟩ := IsBetweenFrames.ends_enclosed (.inl between) nonempty room
    rw [verdict_append commanded, if_neg left] at ended
    simpa [IsDetected] using ended.results
  refine ⟨detected, fun index old byte found changed => ?_⟩
  obtain ⟨damaged, burst⟩ := Checksum.isBurst_damage_set found changed
  exact detected _ (List.length_set ..) ⟨damaged, .inl burst⟩

/-- A short burst after which a byte of the payload is not reserved any more and the checksum is,
three damaged bits far from each other, and a command that becomes an escape mark. -/
theorem corruption_is_detected_across_reserved_bytes
    : let p : Packet := { storage := [0xEE, 0xEE, 0xEE], size := 2, verified := true }
      let body : List UInt8 := [0x01, 0xC0]
      let sent : List UInt8 := [0x01, 0xC0, 0x5B]
      let results := fun received : List UInt8 => (p.trace (enclosed received)).map Prod.fst
      p.isMidFrame = false ∧ body ≠ [] ∧ body.length + 1 ≤ p.capacity
      ∧ body ++ [Checksum.ofBytes body] = sent
      ∧ Checksum.IsBurst (Checksum.damage sent [0x01, 0xC3, 0xDB])
      ∧ results [0x01, 0xC3, 0xDB]
        = List.replicate 5 (.ok .unfinished) ++ [.error (.checksumMismatch 0xDB 0x52)]
      ∧ (Checksum.damage sent [0x81, 0xC1, 0x5A]).count true % 2 = 1
      ∧ results [0x81, 0xC1, 0x5A]
        = List.replicate 4 (.ok .unfinished) ++ [.error (.checksumMismatch 0x5A 0xEA)]
      ∧ results [0xDB, 0xC0, 0x5B]
        = List.replicate 6 (.ok .unfinished) ++ [.error (.checksumMismatch 0x5B 0x63)] := by
  intro p body sent results
  have command : body ≠ [] := by decide
  have fits : body.length + 1 ≤ p.capacity := by decide
  have sum : body ++ [Checksum.ofBytes body] = sent := by decide +kernel
  obtain ⟨detected, one⟩ := corruption_is_detected p rfl command fits
  rw [sum] at detected one
  have burst : Checksum.IsBurst (Checksum.damage sent [0x01, 0xC3, 0xDB]) := by
    have within : ∀ place < 24, (Checksum.damage sent [0x01, 0xC3, 0xDB])[place]? = some true
        → 14 ≤ place ∧ place < 22 := by
      decide +kernel
    refine ⟨14, fun place set => ?_⟩
    obtain ⟨inside, _⟩ := List.getElem?_eq_some_iff.mp set
    exact within place inside set
  have odd : (Checksum.damage sent [0x81, 0xC1, 0x5A]).count true % 2 = 1 := by
    decide +kernel
  refine ⟨rfl, command, fits, sum, burst, ?_, odd, ?_, ?_⟩
  · have found := detected [0x01, 0xC3, 0xDB] rfl ⟨by decide +kernel, .inl burst⟩
    exact found.trans (by decide +kernel)
  · have found := detected [0x81, 0xC1, 0x5A] rfl ⟨by decide +kernel, .inr odd⟩
    exact found.trans (by decide +kernel)
  · have found := one 0 0x01 0xDB rfl (by decide)
    exact found.trans (by decide +kernel)

end PacketBus.Packet
