import EngineFuzz.Json.Double

/-!
Numbers that a double keeps. A whole number of at most 53 bits is a double itself, and one of 64 bits is
far from the greatest.
-/

namespace EngineFuzz.Double

theorem spacing_of_small {n : Nat} (small : n ≤ 9007199254740991) : spacing n = 1 := by
  have bits : n.log2 - 52 = 0 := by
    by_cases none : n = 0
    · rw [none, Nat.log2_zero]
    · have below : n.log2 < 53 := (Nat.log2_lt none).mpr (by omega)
      omega
  rw [spacing, bits, Nat.shiftLeft_zero]

/-- A number of 53 bits is not rounded. -/
theorem nearest_of_small {n : Nat} (small : n ≤ 9007199254740991) : nearest n = n := by
  simp only [nearest, spacing_of_small small, Nat.div_one, Nat.mod_one, Nat.mul_one]
  rfl

theorem spacing_le (n : Nat) : spacing n ≤ n + 1 := by
  rw [spacing, Nat.one_shiftLeft]
  by_cases none : n = 0
  · simp [none]
  · calc 2 ^ (n.log2 - 52)
      _ ≤ 2 ^ n.log2 := Nat.pow_le_pow_right (by decide) (Nat.sub_le _ _)
      _ ≤ n := Nat.log2_self_le none
      _ ≤ n + 1 := Nat.le_succ n

/-- Rounding up goes no further than to the next double. -/
theorem nearest_le (n : Nat) : nearest n ≤ 2 * n + 1 := by
  have parts : spacing n * (n / spacing n) + n % spacing n = n := Nat.div_add_mod n (spacing n)
  have one := spacing_le n
  rw [Nat.mul_comm] at parts
  simp only [nearest, Nat.add_mul, Nat.one_mul]
  split <;> omega

/-- A number of 64 bits is finite: no digit is left out, and there is nothing to scale by. -/
theorem isFinite_of_word {n : Nat} (word : n < UInt64.size) : isFinite n 0 = true := by
  have whole : leading n = (n, 0) := by
    rw [leading, if_pos word]
  have far : 2 * UInt64.size + 1 < limit := by decide +kernel
  have one : nearest (Nat.pow 10 0) = 1 := nearest_of_small (by decide : 1 ≤ 9007199254740991)
  have scaled : nearest n * nearest (Nat.pow 10 0) < limit := by
    have near := nearest_le n
    rw [one]
    omega
  simp only [isFinite, whole]
  split
  · rfl
  · exact decide_eq_true scaled

end EngineFuzz.Double
