import EngineFuzz.Random.Rng
import Mathlib.Algebra.Group.Units.Equiv
import Mathlib.Data.Nat.ModEq
import Mathlib.Data.UInt

/-!
Seeds of programs. Spreading a number loses nothing: each of its steps can be taken back. Main statement: the
programs of a worker have each a seed of their own, and two programs have one seed exactly if their iterations
differ in the bits in which their workers' numbers do, once these are spread.
-/

namespace EngineFuzz

namespace Rng

variable {seed worker iteration seed' worker' iteration' : UInt64}

/-! ### Spreading taken back -/

theorem shiftRight_thrice {places : UInt64} (far : 22 ≤ places.toNat % 64) (z : UInt64) :
    z >>> places >>> places >>> places = 0 := by
  rw [← UInt64.toNat_inj]
  simp only [UInt64.toNat_shiftRight, ← Nat.shiftRight_add]
  have bound : z.toNat < 2 ^ (places.toNat % 64 + places.toNat % 64 + places.toNat % 64) :=
    Nat.lt_of_lt_of_le z.toNat_lt (Nat.pow_le_pow_right (by decide) (by omega))
  exact Nat.shiftRight_eq_zero _ _ bound

/-- A word laid over itself, some places lower. In 64 bits there is room for it three times at most, and the
second and the third can be taken off again. -/
def overlay (places : UInt64) (far : 22 ≤ places.toNat % 64) : Equiv.Perm UInt64 where
  toFun z := z ^^^ (z >>> places)
  invFun z := z ^^^ (z >>> places) ^^^ (z >>> places >>> places)
  left_inv z := by
    simp only [UInt64.shiftRight_xor, shiftRight_thrice far, UInt64.xor_zero]
    rw [UInt64.xor_assoc z, ← UInt64.xor_assoc (z >>> places), UInt64.xor_self, UInt64.zero_xor,
      UInt64.xor_assoc, UInt64.xor_self, UInt64.xor_zero]
  right_inv z := by
    simp only [UInt64.shiftRight_xor, shiftRight_thrice far, UInt64.xor_zero]
    rw [UInt64.xor_assoc z, UInt64.xor_assoc, UInt64.xor_self, UInt64.xor_zero]

/-- The steps of spreading, each with what takes it back. An odd factor has an inverse among the words. -/
def spreading : Equiv.Perm UInt64 :=
  (Equiv.addRight 0x9e3779b97f4a7c15).trans <|
  (overlay 30 (by decide)).trans <|
  (Units.mulRight ⟨0xbf58476d1ce4e5b9, 0x96de1b173f119089, by decide, by decide⟩).trans <|
  (overlay 27 (by decide)).trans <|
  (Units.mulRight ⟨0x94d049bb133111eb, 0x319642b2d24d8ec3, by decide, by decide⟩).trans <|
  overlay 31 (by decide)

theorem coe_spreading : ⇑spreading = spread := rfl

theorem spread_bijective : Function.Bijective spread := coe_spreading ▸ spreading.bijective

theorem spread_inj {z z' : UInt64} : spread z = spread z' ↔ z = z' := spread_bijective.injective.eq_iff

/-! ### Programs with one seed -/

theorem xor_eq_xor_iff {a b c d : UInt64} : a ^^^ b = c ^^^ d ↔ a ^^^ c = b ^^^ d := by
  have rearranged : a ^^^ b ^^^ (c ^^^ d) = a ^^^ c ^^^ (b ^^^ d) := by ac_rfl
  rw [← UInt64.xor_eq_zero_iff, rearranged, UInt64.xor_eq_zero_iff]

theorem programSeed_eq_iff : programSeed seed worker iteration = programSeed seed' worker' iteration' ↔
    spread (seed + worker) ^^^ spread (seed' + worker') = iteration ^^^ iteration' := by
  rw [programSeed, programSeed, spread_inj, xor_eq_xor_iff]

/-- In one iteration the workers are told apart by what they add to their sessions' seeds. -/
theorem programSeed_eq_iff_of_iteration :
    programSeed seed worker iteration = programSeed seed' worker' iteration ↔
      seed + worker = seed' + worker' := by
  rw [programSeed_eq_iff, UInt64.xor_self, UInt64.xor_eq_zero_iff, spread_inj]

theorem add_eq_add_iff : seed + worker = seed' + worker' ↔
    seed.toNat + worker.toNat ≡ seed'.toNat + worker'.toNat [MOD 2 ^ 64] := by
  rw [← UInt64.toNat_inj, UInt64.toNat_add, UInt64.toNat_add, Nat.ModEq]

theorem programSeed_bijective (seed worker : UInt64) : Function.Bijective (programSeed seed worker) := by
  have undone : Function.Involutive (spread (seed + worker) ^^^ ·) := by
    intro iteration
    change spread (seed + worker) ^^^ (spread (seed + worker) ^^^ iteration) = iteration
    rw [← UInt64.xor_assoc, UInt64.xor_self, UInt64.zero_xor]
  exact spread_bijective.comp undone.bijective

/-- Over all iterations two workers go through the same seeds, each in an order of its own. -/
theorem existsUnique_programSeed_eq (seed worker iteration seed' worker' : UInt64) :
    ∃! iteration', programSeed seed' worker' iteration' = programSeed seed worker iteration :=
  (programSeed_bijective seed' worker').existsUnique _

/-- A program's seed tells its iteration, given its worker, and the sum of its session's seed and its worker, given
its iteration. Programs that have neither in common can share one. -/
theorem programSeeds_tell_apart :
    Function.Bijective spread ∧
    (∀ seed worker iteration, forProgram seed worker iteration = ofSeed (programSeed seed worker iteration)) ∧
    (∀ seed worker, Function.Bijective (programSeed seed worker)) ∧
    (∀ seed worker seed' worker' iteration,
      programSeed seed worker iteration = programSeed seed' worker' iteration ↔
        seed.toNat + worker.toNat ≡ seed'.toNat + worker'.toNat [MOD 2 ^ 64]) ∧
    (∀ seed worker iteration seed' worker' iteration',
      programSeed seed worker iteration = programSeed seed' worker' iteration' ↔
        spread (seed + worker) ^^^ spread (seed' + worker') = iteration ^^^ iteration') :=
  ⟨spread_bijective, fun _ _ _ => rfl, programSeed_bijective,
    fun _ _ _ _ _ => programSeed_eq_iff_of_iteration.trans add_eq_add_iff,
    fun _ _ _ _ _ _ => programSeed_eq_iff⟩

example : programSeed 7 1 0 ≠ programSeed 7 0 1 ∧ programSeed 42 1 9 = programSeed 43 0 9 := by decide

end Rng

end EngineFuzz
