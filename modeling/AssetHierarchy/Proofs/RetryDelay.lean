import AssetHierarchy.Http.Client
import Mathlib.Algebra.Order.Field.Rat
import Mathlib.Tactic.Linarith
import Mathlib.Tactic.Ring

/-! The wait before another try. What a reply asks for is waited for to the nearest nanosecond if it
is a time below `2 ^ 64` seconds, and what is no time at all is replaced by one second. A longer
time is neither: it has no delay. -/
namespace AssetHierarchy

namespace Double

/-! ### Values -/

/-- The value of a finite double without its sign. -/
def absValue (d : Double) : ℚ := d.scientific.1 * 2 ^ d.scientific.2

theorem scientific_fst_lt (d : Double) : d.scientific.1 < 2 * exponentBit := by
  have hf : d.magnitude % exponentBit < exponentBit := Nat.mod_lt _ (by decide)
  unfold scientific
  dsimp only
  split
  · omega
  · omega

theorem ratio_of_nonneg {d : Double} (h : 0 ≤ d.scientific.2) :
    d.ratio = (d.scientific.1 * 2 ^ d.scientific.2.toNat, 1) := by
  have hneg : (-d.scientific.2).toNat = 0 := by omega
  show (d.scientific.1 <<< d.scientific.2.toNat, 1 <<< (-d.scientific.2).toNat) = _
  rw [hneg, Nat.shiftLeft_eq, Nat.shiftLeft_zero]

theorem ratio_of_neg {d : Double} (h : d.scientific.2 < 0) :
    d.ratio = (d.scientific.1, 2 ^ (-d.scientific.2).toNat) := by
  have hpos : d.scientific.2.toNat = 0 := by omega
  show (d.scientific.1 <<< d.scientific.2.toNat, 1 <<< (-d.scientific.2).toNat) = _
  rw [hpos, Nat.one_shiftLeft, Nat.shiftLeft_zero]

theorem ratio_snd_pos (d : Double) : 0 < d.ratio.2 := by
  rcases lt_or_ge d.scientific.2 0 with h | h
  · rw [ratio_of_neg h]
    exact Nat.two_pow_pos _
  · rw [ratio_of_nonneg h]
    exact Nat.one_pos

theorem absValue_eq_ratio (d : Double) : d.absValue = d.ratio.1 / d.ratio.2 := by
  unfold absValue
  rcases lt_or_ge d.scientific.2 0 with h | h
  · have hexp : d.scientific.2 = -((-d.scientific.2).toNat : ℤ) := by omega
    rw [ratio_of_neg h]
    conv_lhs => rw [hexp, zpow_neg, zpow_natCast]
    push_cast
    rw [div_eq_mul_inv]
  · have hexp : d.scientific.2 = (d.scientific.2.toNat : ℤ) := by omega
    rw [ratio_of_nonneg h]
    conv_lhs => rw [hexp, zpow_natCast]
    push_cast
    rw [div_one]

/-! ### Rounding -/

theorem roundDiv_one (num : Nat) : roundDiv num 1 = num := by
  simp [roundDiv, Nat.mod_one]

theorem roundDiv_le_succ (num den : Nat) : roundDiv num den ≤ num + 1 := by
  have hdiv : num / den ≤ num := Nat.div_le_self num den
  unfold roundDiv
  dsimp only
  split <;> omega

/-- Twice the error is at most the divisor. -/
theorem roundDiv_bounds (num : Nat) {den : Nat} (h : 0 < den) :
    2 * (roundDiv num den * den) ≤ 2 * num + den ∧
      2 * num ≤ 2 * (roundDiv num den * den) + den := by
  have hsplit : num / den * den + num % den = num := Nat.div_add_mod' num den
  have hrest : num % den < den := Nat.mod_lt num h
  have hnext : (num / den + 1) * den = num / den * den + den := Nat.succ_mul _ _
  unfold roundDiv
  dsimp only
  split
  · next hup =>
    have hhalf : den ≤ 2 * (num % den) := by
      simp only [Bool.or_eq_true, Bool.and_eq_true, decide_eq_true_eq, beq_iff_eq] at hup
      omega
    rw [hnext]
    omega
  · next hdown =>
    have hhalf : 2 * (num % den) ≤ den := by
      simp only [Bool.or_eq_true, decide_eq_true_eq] at hdown
      omega
    omega

theorem abs_roundDiv_sub_le (num : Nat) {den : Nat} (h : 0 < den) :
    |(roundDiv num den : ℚ) - num / den| ≤ 1 / 2 := by
  obtain ⟨hle, hge⟩ := roundDiv_bounds num h
  have hden : (0 : ℚ) < den := by exact_mod_cast h
  have hnum : (num / den * den : ℚ) = num := div_mul_cancel₀ _ hden.ne'
  have hle' : (2 * (roundDiv num den * den) : ℚ) ≤ 2 * num + den := by exact_mod_cast hle
  have hge' : (2 * num : ℚ) ≤ 2 * (roundDiv num den * den) + den := by exact_mod_cast hge
  rw [abs_le]
  constructor
  · refine le_of_mul_le_mul_right ?_ hden
    linarith
  · refine le_of_mul_le_mul_right ?_ hden
    linarith

/-- A finite time that is not negative. -/
def IsTime (d : Double) : Prop := d.isFinite = true ∧ (d.isZero = true ∨ d.isNegative = false)

instance : DecidablePred IsTime := fun _ => inferInstanceAs (Decidable (_ ∧ _))

end Double

/-! ### Delays -/

namespace Delay

variable {d : Double} {asked : Option Double} {w : Delay}

theorem ofSeconds?_eq_none_iff : ofSeconds? d = none ↔ 2 ^ 64 ≤ d.absValue := by
  have hden : (0 : ℚ) < d.ratio.2 := by exact_mod_cast d.ratio_snd_pos
  have hlong : 2 ^ 64 ≤ d.absValue ↔ UInt64.size * d.ratio.2 ≤ d.ratio.1 := by
    rw [d.absValue_eq_ratio, le_div_iff₀ hden]
    norm_cast
  rw [hlong]
  unfold ofSeconds?
  dsimp only
  split <;> simp [*]

theorem ofSeconds?_eq_some (h : ofSeconds? d = some w) :
    d.ratio.1 < UInt64.size * d.ratio.2 ∧
      w.nanoseconds = Double.roundDiv (d.ratio.1 * 1000000000) d.ratio.2 := by
  unfold ofSeconds? at h
  dsimp only at h
  split at h
  · contradiction
  · next hshort => exact ⟨by omega, (congrArg nanoseconds (Option.some.inj h)).symm⟩

/-- The nearest whole number of nanoseconds. -/
theorem abs_nanoseconds_sub_le (h : ofSeconds? d = some w) :
    |(w.nanoseconds : ℚ) - d.absValue * 10 ^ 9| ≤ 1 / 2 := by
  have hvalue : d.absValue * 10 ^ 9 = ((d.ratio.1 * 1000000000 : ℕ) : ℚ) / d.ratio.2 := by
    rw [d.absValue_eq_ratio]
    push_cast
    ring
  rw [(ofSeconds?_eq_some h).2, hvalue]
  exact Double.abs_roundDiv_sub_le _ d.ratio_snd_pos

/-- Rounding does not reach the limit: a value with a fraction is far below it. -/
theorem nanoseconds_lt (h : ofSeconds? d = some w) :
    w.nanoseconds < UInt64.size * 1000000000 := by
  obtain ⟨hshort, hw⟩ := ofSeconds?_eq_some h
  rw [hw]
  rcases lt_or_ge d.scientific.2 0 with hneg | hnonneg
  · have hsmall : d.scientific.1 < 2 * 0x10000000000000 := d.scientific_fst_lt
    rw [Double.ratio_of_neg hneg]
    exact lt_of_le_of_lt (Double.roundDiv_le_succ _ _) (by simp only [UInt64.size]; omega)
  · rw [Double.ratio_of_nonneg hnonneg] at hshort ⊢
    rw [Double.roundDiv_one]
    exact Nat.mul_lt_mul_of_pos_right (by simpa using hshort) (by decide)

/-- How long the client waits when a reply asks for some time, or for none. -/
inductive Heeds (asked : Option Double) (w : Delay) : Prop
  | time (d : Double) (h : asked = some d) (htime : d.IsTime) (hshort : d.absValue < 2 ^ 64)
      (hnear : |(w.nanoseconds : ℚ) - d.absValue * 10 ^ 9| ≤ 1 / 2)
  | fixed (h : ∀ d, asked = some d → ¬d.IsTime) (hw : w = oneSecond)

theorem beforeRetry?_some (d : Double) :
    d.IsTime ∧ beforeRetry? (some d) = ofSeconds? d ∨
      ¬d.IsTime ∧ beforeRetry? (some d) = some oneSecond := by
  have htest : (d.isFinite && (d.isZero || !d.isNegative)) = true ↔ d.IsTime := by
    simp [Double.IsTime]
  by_cases h : d.IsTime
  · exact .inl ⟨h, if_pos (htest.mpr h)⟩
  · exact .inr ⟨h, if_neg (htest.not.mpr h)⟩

/-- The only times that no delay is found for are the long ones. -/
theorem beforeRetry?_eq_none_iff :
    beforeRetry? asked = none ↔ ∃ d, asked = some d ∧ d.IsTime ∧ 2 ^ 64 ≤ d.absValue := by
  cases asked with
  | none => exact ⟨nofun, fun ⟨_, hd, _⟩ => nomatch hd⟩
  | some d =>
    rcases beforeRetry?_some d with ⟨htime, hd⟩ | ⟨htime, hd⟩
    · simp [hd, ofSeconds?_eq_none_iff, htime]
    · simp [hd, htime]

theorem heeds_of_beforeRetry? (h : beforeRetry? asked = some w) :
    Heeds asked w ∧ w.nanoseconds < UInt64.size * 1000000000 := by
  cases asked with
  | none =>
    obtain rfl : oneSecond = w := Option.some.inj h
    exact ⟨.fixed nofun rfl, by decide⟩
  | some d =>
    rcases beforeRetry?_some d with ⟨htime, hd⟩ | ⟨htime, hd⟩
    · rw [hd] at h
      have hshort : d.absValue < 2 ^ 64 := by
        rw [← not_le, ← ofSeconds?_eq_none_iff, h]
        exact Option.some_ne_none w
      exact ⟨.time d rfl htime hshort (abs_nanoseconds_sub_le h), nanoseconds_lt h⟩
    · rw [hd] at h
      obtain rfl : oneSecond = w := Option.some.inj h
      refine ⟨.fixed (fun d' hd' => ?_) rfl, by decide⟩
      rwa [← Option.some.inj hd']

end Delay

end AssetHierarchy
