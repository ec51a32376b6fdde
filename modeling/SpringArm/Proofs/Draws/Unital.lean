import SpringArm.Draws.Stream
import SpringArm.Proofs.Binary64.Arithmetic

/-!
# Numbers between zero and one

What growth relies on is that all the numbers it draws in turn are at least zero and below one.
-/

namespace SpringArm

open Binary64

section Units

variable {γ : Type} [Draws γ]

/-- A source after so many numbers were drawn from it. -/
def Draws.afterUnits : Nat → γ → γ
  | 0, draws => draws
  | count + 1, draws => afterUnits count (Draws.unit draws).2

/-- Numbers drawn in turn are at least zero and below one. -/
def Draws.Unital (draws : γ) : Prop :=
  ∀ count, InUnit (Draws.unit (Draws.afterUnits count draws)).1

theorem Draws.afterUnits_add (count more : Nat) (draws : γ) :
    Draws.afterUnits more (Draws.afterUnits count draws) =
      Draws.afterUnits (count + more) draws := by
  induction count generalizing draws with
  | zero => rw [Nat.zero_add, Draws.afterUnits]
  | succ count inductionHypothesis =>
    rw [Nat.succ_add, Draws.afterUnits, Draws.afterUnits, inductionHypothesis]

theorem Draws.Unital.afterUnits {draws : γ} (unital : Draws.Unital draws) (count : Nat) :
    Draws.Unital (Draws.afterUnits count draws) := by
  intro more
  rw [Draws.afterUnits_add]
  exact unital (count + more)

/-- Every number is between zero and one if the first one is in all states that are reached. -/
theorem Draws.unital_of_invariant (invariant : γ → Prop)
    (first : ∀ draws, invariant draws → InUnit (Draws.unit draws).1)
    (kept : ∀ draws, invariant draws → invariant (Draws.unit draws).2) {draws : γ}
    (start : invariant draws) : Draws.Unital draws := by
  intro count
  induction count generalizing draws with
  | zero => exact first draws start
  | succ count inductionHypothesis => exact inductionHypothesis (kept draws start)

end Units

/-- A written list of numbers between zero and one gives such numbers. -/
theorem ScriptedDraws.unital {draws : ScriptedDraws}
    (units : ∀ number ∈ draws.script, InUnit number) : Draws.Unital draws := by
  apply Draws.unital_of_invariant
    (fun draws : ScriptedDraws => ∀ number ∈ draws.script, InUnit number) _ _ units
  · intro draws units
    change InUnit (draws.script[draws.used % draws.script.size]?.getD 0.0)
    cases found : draws.script[draws.used % draws.script.size]? with
    | none => exact ⟨by decide +kernel, by decide +kernel⟩
    | some number => exact units number (Array.mem_of_getElem? found)
  · exact fun draws units => units

/-- 53 bits are divided down to a number between zero and one. -/
theorem inUnit_of_bits {bits : Nat} (few : bits < 2 ^ 53) :
    InUnit (bits.toFloat / (1 <<< 53 : Nat).toFloat) := by
  have unpacked : (1 <<< 53 : Nat).toFloat.toModel.unpack =
      .finite .positive (2 ^ 52) 1 (by norm_num) := by
    rfl
  have scale : valueOf (1 <<< 53 : Nat).toFloat = 2 ^ (53 : ℤ) := by
    rw [valueOf, unpacked, value, signed]
    norm_num
  obtain ⟨bitsFinite, bitsValue⟩ := valueOf_toFloat few
  have quotient := computes_div bitsFinite (show (1 <<< 53 : Nat).toFloat.isFinite = true from rfl)
    (by rw [scale]; exact (two_zpow_pos 53).ne')
  rw [bitsValue, scale] at quotient
  have nonneg : (0 : ℚ) ≤ bits / 2 ^ (53 : ℤ) := by positivity
  have below : (bits / 2 ^ (53 : ℤ) : ℚ) < 1 := by
    rw [div_lt_one (two_zpow_pos 53)]
    exact_mod_cast few
  have onGrid : OnGrid (bits / 2 ^ (53 : ℤ) : ℚ) := by
    rw [div_eq_mul_inv, ← zpow_neg]
    exact .of_digits few (by norm_num)
  have small : |(bits / 2 ^ (53 : ℤ) : ℚ)| < limit := by
    rw [abs_of_nonneg nonneg]
    exact below.trans_le (one_le_zpow₀ one_le_two (by norm_num))
  obtain ⟨finite, value⟩ := quotient.exact_of_onGrid onGrid small
  constructor
  · rwa [le_iff_valueOf_le rfl finite, value]
  · rwa [lt_iff_valueOf_lt finite rfl, value, valueOf_one]

namespace SeededDraws

theorem rotateRight_lt {word : Nat} (amount : Nat) (small : word < 2 ^ 64) :
    rotateRight word amount < 2 ^ 64 :=
  Nat.or_lt_two_pow ((Nat.shiftRight_le word amount).trans_lt small)
    (Nat.mod_lt _ (Nat.two_pow_pos 64))

theorem nextWide_lt (draws : SeededDraws) : draws.nextWide.1 < 2 ^ 64 := by
  have state : draws.advance.state < 2 ^ 64 * 2 ^ 64 := Nat.mod_lt _ (by decide)
  have upper : draws.advance.state >>> 64 < 2 ^ 64 := by
    rw [Nat.shiftRight_eq_div_pow]
    exact Nat.div_lt_of_lt_mul state
  exact rotateRight_lt _ (Nat.xor_lt_two_pow upper (Nat.mod_lt _ (Nat.two_pow_pos 64)))

/-- The generator gives numbers between zero and one. -/
theorem unital (draws : SeededDraws) : Draws.Unital draws := by
  intro count
  generalize Draws.afterUnits count draws = draws
  apply inUnit_of_bits
  rw [Nat.shiftRight_eq_div_pow]
  exact Nat.div_lt_of_lt_mul draws.nextWide_lt

end SeededDraws

end SpringArm
