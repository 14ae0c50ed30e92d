import OperatorDispatch.Proofs.Numbers
import OperatorDispatch.Proofs.Powers

/-!
# Exponentiation

Integers under a natural exponent have an exact power, of any size.  Any other two
finite numbers have the power of the doubles that they are taken as, and
`Native.PowerOf` says when that is infinite: for a power beyond the largest double and
for an inverse of zero.  The bounds are those of the exact power, which is a real
number.

Two things are lost.  The infinity is positive, whatever the sign of the base is; and
where a number is too large to be taken as a double, the power is that infinity
without a look at anything else (`Power.oversized`), even if it is next to zero.
-/

namespace OperatorDispatch

namespace Native

/-! ## Powers of doubles -/

section Doubles

variable {x y : Double} {a b : ℚ} {s t : Bool} {m e : Magnitude}

theorem powDoubles_one (exponent : e.mantissa = 0) : powDoubles x (.finite t e) = .one := by
  simp [powDoubles, Double.pow, Double.isZero, exponent]

theorem powDoubles_zero (base : m.mantissa = 0) (exponent : e.mantissa ≠ 0) :
    powDoubles (.finite s m) (.finite t e) =
      if t then .infinity false
      else .finite (s && Double.isOddIntegral (.finite t e)) .zero := by
  cases t <;> simp [powDoubles, Double.pow, Double.isZero, base, exponent]

/-- The definition of a finite power.  It is compared as a function, because nothing may
compute the power of two magnitudes that are not known. -/
theorem powFinite_eq : Double.powFinite = fun s base t exponent =>
    match base.pow t exponent with
    | none => .overflow
    | some m =>
      if s && !exponent.isIntegral then .notReal
      else .value (.finite (s && Double.isOddIntegral (.finite t exponent)) m) := by
  delta Double.powFinite
  rfl

theorem powFinite_overflow (overflow : m.pow t e = none) :
    Double.powFinite s m t e = .overflow := by
  rw [powFinite_eq]
  beta_reduce
  rw [overflow]

theorem powFinite_value {r : Magnitude} (value : m.pow t e = some r) :
    Double.powFinite s m t e =
      if s && !e.isIntegral then .notReal
      else .value (.finite (s && Double.isOddIntegral (.finite t e)) r) := by
  rw [powFinite_eq]
  beta_reduce
  rw [value]

theorem pow_eq_powFinite (base : m.mantissa ≠ 0) (exponent : e.mantissa ≠ 0) :
    Double.pow (.finite s m) (.finite t e) = Double.powFinite s m t e := by
  have nonzero : (Double.finite t e).isZero = false := by simp [Double.isZero, exponent]
  unfold Double.pow
  rw [nonzero, if_neg Bool.false_ne_true]
  exact if_neg base

theorem powDoubles_overflow (base : m.mantissa ≠ 0) (exponent : e.mantissa ≠ 0)
    (overflow : m.pow t e = none) : powDoubles (.finite s m) (.finite t e) = .infinity false := by
  rw [powDoubles, pow_eq_powFinite base exponent, powFinite_overflow overflow]

theorem powDoubles_value (base : m.mantissa ≠ 0) (exponent : e.mantissa ≠ 0) {r : Magnitude}
    (value : m.pow t e = some r) :
    powDoubles (.finite s m) (.finite t e) =
      if s && !e.isIntegral then .nan
      else .finite (s && Double.isOddIntegral (.finite t e)) r := by
  rw [powDoubles, pow_eq_powFinite base exponent, powFinite_value value]
  cases s && !e.isIntegral <;> rfl

/-- The magnitude that is raised, under the sign of the exponent. -/
theorem turned_rpow_eq (ha : (Double.finite s m).toRat? = some a)
    (hb : (Double.finite t e).toRat? = some b) :
    turned t (m.toRat : ℝ) ^ (e.toRat : ℝ) = |(a : ℝ)| ^ (b : ℝ) := by
  have size : |(a : ℝ)| = (m.toRat : ℝ) := by
    rw [← Rat.cast_abs, Double.abs_toRat? ha]
  have nonneg : (0 : ℝ) ≤ m.toRat := by exact_mod_cast m.toRat_nonneg
  rw [size]
  cases hb
  cases t with
  | false => rfl
  | true => simp [turned, Real.inv_rpow nonneg, Real.rpow_neg nonneg]

/-- What the power of two finite doubles is, as far as infinities go.  The bounds are
on the exact power of the size of the base. -/
structure PowerOf (a b : ℚ) (z : Double) : Prop where
  infinite : ∀ s, z = .infinity s → s = false ∧
    (a = 0 ∧ b < 0 ∨ a ≠ 0 ∧ (Magnitude.largest.toRat : ℝ) < |(a : ℝ)| ^ (b : ℝ))
  pole : a = 0 → b < 0 → z = .infinity false
  beyond : a ≠ 0 → (Magnitude.ceiling : ℝ) ≤ |(a : ℝ)| ^ (b : ℝ) → z = .infinity false

theorem toRat?_eq_zero_iff_mantissa (ha : (Double.finite s m).toRat? = some a) :
    a = 0 ↔ m.mantissa = 0 := by
  rw [← abs_eq_zero, Double.abs_toRat? ha, Magnitude.toRat_eq_zero_iff]

theorem powDoubles_powerOf (ha : x.toRat? = some a) (hb : y.toRat? = some b) :
    PowerOf a b (powDoubles x y) := by
  obtain ⟨s, m, rfl⟩ := Double.exists_finite_of_toRat? ha
  obtain ⟨t, e, rfl⟩ := Double.exists_finite_of_toRat? hb
  have base := toRat?_eq_zero_iff_mantissa ha
  have exponent := toRat?_eq_zero_iff_mantissa hb
  by_cases he : e.mantissa = 0
  · have zero := exponent.mpr he
    subst zero
    rw [powDoubles_one he]
    refine ⟨nofun, nofun, fun _ large => ?_⟩
    rw [Rat.cast_zero, Real.rpow_zero] at large
    exact absurd large Magnitude.one_lt_ceiling.not_ge
  by_cases hm : m.mantissa = 0
  · have zero := base.mpr hm
    rw [powDoubles_zero hm he]
    cases t with
    | false =>
        have nonneg : 0 ≤ b := by
          cases hb
          exact e.toRat_nonneg
        exact ⟨nofun, fun _ neg => absurd neg nonneg.not_gt, fun nonzero => absurd zero nonzero⟩
    | true =>
        have neg : b < 0 := by
          refine lt_of_le_of_ne ?_ (mt exponent.mp he)
          cases hb
          exact neg_nonpos.mpr e.toRat_nonneg
        refine ⟨?_, fun _ _ => rfl, fun nonzero => absurd zero nonzero⟩
        rintro s' ⟨⟩
        exact ⟨rfl, .inl ⟨zero, neg⟩⟩
  · have nonzero := mt base.mp hm
    have power := turned_rpow_eq ha hb
    refine ⟨?_, fun zero => absurd zero nonzero, ?_⟩
    · intro s' infinite
      cases overflow : m.pow t e with
      | none =>
          rw [powDoubles_overflow hm he overflow] at infinite
          cases infinite
          refine ⟨rfl, .inr ⟨nonzero, ?_⟩⟩
          rw [← power]
          exact Magnitude.largest_lt_of_pow hm overflow
      | some r =>
          rw [powDoubles_value hm he overflow] at infinite
          split at infinite <;> cases infinite
    · intro _ large
      rw [← power] at large
      exact powDoubles_overflow hm he (Magnitude.pow_of_ceiling_le hm large)

/-- A large base under a negative whole exponent gives less than one. -/
theorem powDoubles_small (ha : x.toRat? = some a) (hb : y.toRat? = some b) (large : 5 / 3 ≤ |a|)
    (negative : b ≤ -(9 / 10)) (whole : ∃ n, y.toInt? = some n) :
    ∃ w, (powDoubles x y).toRat? = some w ∧ |w| < 1 := by
  obtain ⟨s, m, rfl⟩ := Double.exists_finite_of_toRat? ha
  obtain ⟨t, e, rfl⟩ := Double.exists_finite_of_toRat? hb
  have hm : m.mantissa ≠ 0 := by
    rw [ne_eq, ← toRat?_eq_zero_iff_mantissa ha, ← abs_eq_zero]
    linarith
  have he : e.mantissa ≠ 0 := by
    rw [ne_eq, ← toRat?_eq_zero_iff_mantissa hb]
    linarith
  have integral : e.isIntegral = true := by
    obtain ⟨n, hn⟩ := whole
    simp only [Double.toInt?, Option.ite_none_right_eq_some] at hn
    exact hn.1
  have exponent : t = true ∧ 9 / 10 ≤ e.toRat := by
    have size := e.toRat_nonneg
    cases t with
    | false =>
        cases hb
        simp only [Bool.false_eq_true, if_false] at negative
        linarith
    | true =>
        cases hb
        simp only [if_true] at negative
        exact ⟨rfl, by linarith⟩
  obtain ⟨rfl, high⟩ := exponent
  have base : turned true (m.toRat : ℝ) ≤ 3 / 5 := by
    rw [Double.abs_toRat? ha, ← Rat.cast_le (K := ℝ)] at large
    push_cast at large
    rw [turned, if_pos rfl, inv_le_comm₀ (by linarith) (by norm_num)]
    linarith
  have high' : (9 / 10 : ℝ) ≤ e.toRat := by
    rw [← Rat.cast_le (K := ℝ)] at high
    push_cast at high
    exact high
  obtain ⟨r, value, less⟩ := Magnitude.pow_lt_one hm base high'
  rw [powDoubles_value hm he value, integral, Bool.not_true, Bool.and_false,
    if_neg Bool.false_ne_true]
  exact ⟨_, rfl, (Double.abs_toRat? rfl).trans_lt less⟩

end Doubles

/-! ## Powers of numbers -/

theorem powInteger_eq (m : Int) (n : Nat) : powInteger m n = m ^ n := by
  induction n with
  | zero => rw [powInteger_zero, pow_zero]
  | succ n ih => rw [powInteger_succ, ih, pow_succ]

section Numerals

variable {x y : Numeral}

theorem power_natural (m : Int) {n : Int} (hn : 0 ≤ n) :
    power (.integer m) (.integer n) = .integer (m ^ n.toNat) := by
  lift n to Nat using hn
  exact congrArg Primitive.integer (powInteger_eq m n)

/-- Whatever is no natural power of an integer is a power of doubles. -/
theorem power_doubles (other : ¬ ∃ m n, x = .integer m ∧ y = .integer n ∧ 0 ≤ n) :
    power x y =
      match doubles? x y with
      | some (d, e) => .double (powDoubles d e)
      | none => .double (.infinity false) := by
  cases x with
  | double d => rfl
  | integer m =>
      cases y with
      | double e => rfl
      | integer n =>
          cases n with
          | ofNat n => exact absurd ⟨m, n, rfl, rfl, Int.natCast_nonneg n⟩ other
          | negSucc n => rfl

end Numerals

end Native

namespace Primitive

variable {p q : Primitive} {x y : Numeral}

theorem answers_power (hx : p.numeral? = some x) (hy : q.numeral? = some y) :
    Answers "**" p q (Native.power x y) := by
  refine answers_native .exponent ⟨_, rfl, rfl⟩ (by decide) ?_
  show Native.exponent p q = _
  simp only [Native.exponent, Native.numerals, hx, hy]
  rfl

/-- A power that stays among the integers. -/
def Natural (p q : Primitive) : Prop := ∃ m n, p.IsInteger m ∧ q.IsInteger n ∧ 0 ≤ n

/-- What the power of two numbers is. -/
structure Power (p q r : Primitive) : Prop where
  natural : ∀ m n, p.IsInteger m → q.IsInteger n → 0 ≤ n → r = .integer (m ^ n.toNat)
  /-- Any other power of finite numbers is that of the doubles that they are taken as. -/
  rounded : ∀ a b, p.HasValue a → q.HasValue b → ¬ p.Natural q → ¬ p.Oversized → ¬ q.Oversized →
    ∃ a' b' z, p.TakenAs a' ∧ Near a' a ∧ (p.IsDouble → a' = a) ∧
      q.TakenAs b' ∧ Near b' b ∧ (q.IsDouble → b' = b) ∧
      r = .double z ∧ Native.PowerOf a' b' z
  inverse : ∀ m n, p.IsInteger m → q.IsInteger n → 2 ≤ |m| → n < 0 →
    ¬ p.Oversized → ¬ q.Oversized → ∃ z w, r = .double z ∧ z.toRat? = some w ∧ |w| < 1
  /-- Where a number is not taken as a double, nothing is looked at. -/
  oversized : ¬ p.Natural q → p.Oversized ∨ q.Oversized → r = .double (.infinity false)

section

variable (hx : p.numeral? = some x) (hy : q.numeral? = some y)

include hx hy

theorem natural_iff : p.Natural q ↔ ∃ m n, x = .integer m ∧ y = .integer n ∧ 0 ≤ n := by
  simp only [Natural, isInteger_iff, hx, hy, Option.some_inj]

theorem power_taken {d e : Double} (other : ¬ p.Natural q) (hd : p.double? = some d)
    (he : q.double? = some e) : Native.power x y = .double (Native.powDoubles d e) := by
  rw [double?_of_numeral? hx] at hd
  rw [double?_of_numeral? hy] at he
  rw [Native.power_doubles (mt (natural_iff hx hy).mpr other)]
  simp only [Native.doubles?, hd, he]

theorem power_oversized (other : ¬ p.Natural q) (oversized : p.Oversized ∨ q.Oversized) :
    Native.power x y = .double (.infinity false) := by
  rw [Native.oversized_iff hx, Native.oversized_iff hy] at oversized
  rw [Native.power_doubles (mt (natural_iff hx hy).mpr other)]
  have none : Native.doubles? x y = none := by
    rcases oversized with hx' | hy'
    · simp only [Native.doubles?, hx']
    · cases hx' : x.toDouble? <;> simp only [Native.doubles?, hx', hy']
  rw [none]

theorem power_rounded {a b : ℚ} (ha : p.HasValue a) (hb : q.HasValue b) (other : ¬ p.Natural q)
    (small : ¬ p.Oversized) (small' : ¬ q.Oversized) :
    ∃ a' b' z, p.TakenAs a' ∧ Near a' a ∧ (p.IsDouble → a' = a) ∧
      q.TakenAs b' ∧ Near b' b ∧ (q.IsDouble → b' = b) ∧
      Native.power x y = .double z ∧ Native.PowerOf a' b' z := by
  obtain ⟨d, a', hd, value, near, exact⟩ := ha.exists_takenAs small
  obtain ⟨e, b', he, value', near', exact'⟩ := hb.exists_takenAs small'
  exact ⟨a', b', _, ⟨d, hd, value⟩, near, exact, ⟨e, he, value'⟩, near', exact',
    power_taken hx hy other hd he, Native.powDoubles_powerOf value value'⟩

theorem power_inverse {m n : Int} (hm : p.IsInteger m) (hn : q.IsInteger n) (large : 2 ≤ |m|)
    (negative : n < 0) (small : ¬ p.Oversized) (small' : ¬ q.Oversized) :
    ∃ z w, Native.power x y = .double z ∧ z.toRat? = some w ∧ |w| < 1 := by
  obtain ⟨d, a, hd, value, near, -⟩ := hm.hasValue.exists_takenAs small
  obtain ⟨e, b, he, value', near', -⟩ := hn.hasValue.exists_takenAs small'
  have other : ¬ p.Natural q := by
    rintro ⟨m', n', -, hn', nonneg⟩
    cases (isInteger_iff.mp hn).symm.trans (isInteger_iff.mp hn')
    exact negative.not_ge nonneg
  have base : 5 / 3 ≤ |a| := by
    have two : (2 : ℚ) ≤ |(m : ℚ)| := by exact_mod_cast large
    calc (5 / 3 : ℚ) ≤ (1 - 2 ^ (-53 : Int)) * 2 := by norm_num
      _ ≤ (1 - 2 ^ (-53 : Int)) * |(m : ℚ)| := by gcongr
      _ ≤ |a| := near.bounds.1
  have exponent : b ≤ -(9 / 10) := by
    have one : (n : ℚ) ≤ -1 := by exact_mod_cast Int.le_sub_one_of_lt negative
    have below := near'.neg_iff.mpr (by linarith : (n : ℚ) < 0)
    have size := near'.bounds.1
    rw [abs_of_neg below, abs_of_neg (by linarith : (n : ℚ) < 0)] at size
    have unit : (9 / 10 : ℚ) ≤ 1 - 2 ^ (-53 : Int) := by norm_num
    have scaled : 9 / 10 * 1 ≤ (1 - 2 ^ (-53 : Int)) * -(n : ℚ) :=
      mul_le_mul unit (by linarith) zero_le_one (by norm_num)
    linarith only [scaled.trans size]
  have whole : ∃ k, e.toInt? = some k := by
    rw [double?_of_numeral? (isInteger_iff.mp hn)] at he
    exact Double.exists_toInt?_of_ofInt? he
  obtain ⟨w, result, less⟩ := Native.powDoubles_small value value' base exponent whole
  exact ⟨_, w, power_taken hx hy other hd he, result, less⟩

end

/-- Exponentiation answers any two numbers, and the power is what the operands call
for. -/
theorem exponentiation_power (numeric : p.IsNumeric ∧ q.IsNumeric) :
    ∃ r, Answers "**" p q r ∧ p.Power q r := by
  obtain ⟨x, hx⟩ := Native.isNumeric_iff.mp numeric.1
  obtain ⟨y, hy⟩ := Native.isNumeric_iff.mp numeric.2
  refine ⟨_, answers_power hx hy, ?_⟩
  exact
    { natural := by
        intro m n hm hn nonneg
        cases hx.symm.trans (isInteger_iff.mp hm)
        cases hy.symm.trans (isInteger_iff.mp hn)
        exact Native.power_natural m nonneg
      rounded := fun _ _ => power_rounded hx hy
      inverse := fun _ _ => power_inverse hx hy
      oversized := power_oversized hx hy }

theorem exponentiation_power_three :
    ((Primitive.integer (-3)).IsNumeric ∧ (Primitive.integer 5).IsNumeric) ∧
      Answers "**" (.integer (-3)) (.integer 5) (.integer (-243)) := by
  have numeric : (Primitive.integer (-3)).IsNumeric ∧ (Primitive.integer 5).IsNumeric :=
    ⟨.inl rfl, .inl rfl⟩
  obtain ⟨r, answers, power⟩ := exponentiation_power numeric
  refine ⟨numeric, ?_⟩
  rwa [power.natural _ _ (.integer _) (.integer _) (by decide)] at answers

/-- The infinity of an overflow has no sign, and an integer too large for a double has
an infinite inverse. -/
theorem overflow_positive :
    Answers "**" (.double (.finite true ⟨0x14000000000000, -49, by decide⟩)) (.integer 309)
        (.double (.infinity false)) ∧
      (Primitive.double (.finite true ⟨0x14000000000000, -49, by decide⟩)).HasValue (-10) ∧
      ((-10) ^ 309 : ℚ) < 0 ∧
      Answers "**" (.integer Magnitude.ceiling) (.integer (-1)) (.double (.infinity false)) := by
  have inverse (n : Int) (oversized : (Primitive.integer n).Oversized) :
      Answers "**" (.integer n) (.integer (-1)) (.double (.infinity false)) := by
    have answers := answers_power rfl rfl (p := .integer n) (q := .integer (-1))
    have other : ¬ (Primitive.integer n).Natural (.integer (-1)) := by
      rintro ⟨m, k, -, hk, nonneg⟩
      cases hk
      exact absurd nonneg (by decide)
    rwa [power_oversized rfl rfl other (.inl oversized)] at answers
  refine ⟨?_, .double (by decide +kernel), ?_,
    inverse _ ⟨_, rfl, Magnitude.overflowBound_le_ceiling⟩⟩
  · have answers := answers_power rfl rfl
      (p := .double (.finite true ⟨0x14000000000000, -49, by decide⟩)) (q := .integer 309)
    have overflow : Native.power (.double (.finite true ⟨0x14000000000000, -49, by decide⟩))
        (.integer 309) = .double (.infinity false) := by decide +kernel
    rwa [overflow] at answers
  · exact Odd.pow_neg (by decide) (by norm_num)

end Primitive
end OperatorDispatch
