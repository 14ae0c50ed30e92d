import OperatorDispatch.Proofs.Numbers

/-!
# Quotients

Division answers two numbers with a double.  Two doubles have their exact quotient
rounded, and so have two integers of any size; a double and an integer have the
quotient of the doubles that they are taken as.  Rounding gives an infinity from half
a unit above the largest double on (`Double.RoundsTo`).  So an infinite quotient is a
large one, up to the rounding of one operand (`quotient_infinite`).

One pair is left: a double beside an integer that is taken as none
(`Primitive.Apart`).  There the division has no quotient to round and answers with an
infinity, whether the quotient is large, small or not-a-number (`quotient_apart`).
-/

namespace OperatorDispatch

/-! ## Rounding a value -/

namespace Double

variable {v : ℚ} {z : Double}

/-- A double is a value rounded: an infinity of its sign from half a unit above the
largest double on, and near it below. -/
structure RoundsTo (v : ℚ) (z : Double) : Prop where
  beyond : Magnitude.overflowBound ≤ |v| → z = .infinity (v < 0)
  within : |v| < Magnitude.overflowBound →
    ∃ w, z.toRat? = some w ∧ |w - v| ≤ max ((2 : ℚ) ^ (-53 : Int) * |v|) (2 ^ (-1075 : Int))

theorem RoundsTo.infinite_iff (h : RoundsTo v z) (s : Bool) :
    z = .infinity s ↔ (Magnitude.overflowBound : ℚ) ≤ |v| ∧ s = decide (v < 0) := by
  constructor
  · rintro rfl
    rcases le_or_gt (Magnitude.overflowBound : ℚ) |v| with beyond | within
    · exact ⟨beyond, infinity.inj (h.beyond beyond)⟩
    · obtain ⟨w, value, -⟩ := h.within within
      cases value
  · rintro ⟨beyond, rfl⟩
    exact h.beyond beyond

theorem roundsTo_ofMagnitude {n d : Nat} {s : Bool} (hd : 0 < d) (size : |v| = n / d)
    (sign : v ≠ 0 → s = decide (v < 0)) : RoundsTo v (ofMagnitude s (Magnitude.ofRatio? n d)) where
  beyond := by
    intro beyond
    have some : v ≠ 0 := by
      rintro rfl
      rw [abs_zero] at beyond
      have positive : (0 : ℚ) < Magnitude.overflowBound :=
        Nat.cast_pos.mpr (Nat.zero_lt_of_lt Magnitude.one_lt_overflowBound)
      exact absurd beyond positive.not_ge
    rw [size] at beyond
    rw [(Magnitude.ofRatio?_eq_none_iff hd).mpr beyond, sign some]
    rfl
  within := by
    intro within
    rw [size] at within
    obtain ⟨m, hm⟩ := Option.ne_none_iff_exists'.mp
      (mt (Magnitude.ofRatio?_eq_none_iff hd).mp within.not_ge)
    refine ⟨_, by rw [hm]; rfl, ?_⟩
    have off := Magnitude.abs_toRat_sub_le hd hm
    rw [← size] at off
    refine le_trans (le_of_eq ?_) off
    rcases lt_trichotomy v 0 with neg | rfl | pos
    · rw [sign neg.ne, decide_eq_true neg, if_pos rfl, abs_of_neg neg, ← abs_neg]
      congr 1
      ring
    · cases s <;> simp
    · rw [sign pos.ne', decide_eq_false pos.not_gt, if_neg Bool.false_ne_true, abs_of_pos pos]

end Double

/-! ## Signs -/

theorem decide_div_neg {a b : ℚ} (ha : a ≠ 0) (hb : b ≠ 0) :
    (decide (a < 0) != decide (b < 0)) = decide (a / b < 0) := by
  rw [Bool.eq_iff_iff, bne_iff_ne, decide_eq_true_iff, div_neg_iff]
  rcases ha.lt_or_gt with a_neg | a_pos <;> rcases hb.lt_or_gt with b_neg | b_pos <;>
    simp [*, not_lt_of_gt]

/-- A quotient of which one operand is rounded is large only if it is large itself. -/
theorem le_abs_div_of_near {a b a' b' size : ℚ} (pos : 0 ≤ size) (nonzero : b ≠ 0)
    (one : a' = a ∧ Near b' b ∨ Near a' a ∧ b' = b) (large : size ≤ |a' / b'|) :
    (1 - 2 ^ (-53 : Int)) * size ≤ |a / b| := by
  have unit : (0 : ℚ) ≤ 1 - 2 ^ (-53 : Int) := by norm_num
  have hb : 0 < |b| := abs_pos.mpr nonzero
  rw [abs_div, le_div_iff₀ hb]
  obtain ⟨rfl, near⟩ | ⟨near, rfl⟩ := one
  · have hb' : 0 < |b'| := abs_pos.mpr (mt near.eq_zero_iff.mp nonzero)
    rw [abs_div, le_div_iff₀ hb'] at large
    calc (1 - 2 ^ (-53 : Int)) * size * |b| = size * ((1 - 2 ^ (-53 : Int)) * |b|) := by ring
      _ ≤ size * |b'| := by gcongr; exact near.bounds.1
      _ ≤ |a'| := large
  · rw [abs_div, le_div_iff₀ hb] at large
    calc (1 - 2 ^ (-53 : Int)) * size * |b'| = (1 - 2 ^ (-53 : Int)) * (size * |b'|) := by ring
      _ ≤ (1 - 2 ^ (-53 : Int)) * |a'| := by gcongr
      _ ≤ (1 - 2 ^ (-53 : Int)) * ((1 + 2 ^ (-53 : Int)) * |a|) := by gcongr; exact near.bounds.2
      _ = (1 - (2 ^ (-53 : Int)) ^ 2) * |a| := by ring
      _ ≤ 1 * |a| := by gcongr; norm_num
      _ = |a| := one_mul _

theorem div_neg_of_near {a b a' b' : ℚ} (ha : Near a' a) (hb : Near b' b) :
    a' / b' < 0 ↔ a / b < 0 := by
  rw [div_neg_iff, div_neg_iff, ha.neg_iff, hb.neg_iff, ha.pos_iff, hb.pos_iff]

namespace Native

/-! ## Quotients of numbers -/

theorem divideIntegers_roundsTo {m n : Int} (hn : n ≠ 0) :
    Double.RoundsTo (m / n : ℚ) (divideIntegers m n) := by
  refine Double.roundsTo_ofMagnitude (Int.natAbs_pos.mpr hn) ?_ fun some => ?_
  · rw [abs_div, Nat.cast_natAbs, Nat.cast_natAbs, Int.cast_abs, Int.cast_abs]
  · have hm : (m : ℚ) ≠ 0 := (div_ne_zero_iff.mp some).1
    rw [← decide_div_neg hm (by exact_mod_cast hn)]
    simp

theorem ofRat_roundsTo {q v : ℚ} {s : Bool} (size : |v| = |q|)
    (sign : v ≠ 0 → s = decide (v < 0)) : Double.RoundsTo v (Double.ofRat s q) := by
  refine Double.roundsTo_ofMagnitude q.den_pos ?_ sign
  rw [size]
  conv_lhs => rw [← Rat.num_div_den q]
  rw [abs_div, Nat.abs_cast, Nat.cast_natAbs, Int.cast_abs]

theorem div_roundsTo {x y : Double} {a b : ℚ} (ha : x.toRat? = some a) (hb : y.toRat? = some b)
    (nonzero : b ≠ 0) : Double.RoundsTo (a / b) (x.div y) := by
  obtain ⟨s, m, rfl⟩ := Double.exists_finite_of_toRat? ha
  obtain ⟨t, n, rfl⟩ := Double.exists_finite_of_toRat? hb
  have divisor : n.mantissa ≠ 0 := by
    rw [ne_eq, ← Magnitude.toRat_eq_zero_iff]
    rintro zero
    cases hb
    simp [zero] at nonzero
  have quotient : Double.div (.finite s m) (.finite t n) = .ofRat (s != t) (m.toRat / n.toRat) := by
    simp only [Double.div, if_neg divisor]
  rw [quotient]
  refine ofRat_roundsTo ?_ fun some => ?_
  · rw [abs_div, abs_div, Double.abs_toRat? ha, Double.abs_toRat? hb,
      abs_of_nonneg m.toRat_nonneg, abs_of_nonneg n.toRat_nonneg]
  · obtain ⟨ha', -⟩ := div_ne_zero_iff.mp some
    rw [← decide_div_neg ha' nonzero, Double.sign_eq ha ha', Double.sign_eq hb nonzero]

/-- Beside a double, whatever is not zero divides as a double. -/
theorem quotient_doubles {x y : Numeral} (pair : (∃ d, x = .double d) ∨ ∃ d, y = .double d)
    (divisor : y.isZero = false) :
    quotient x y =
      match doubles? x y with
      | some (d, e) => d.div e
      | none => .infinity (x.isNegative != y.isNegative) := by
  unfold quotient
  rw [divisor, if_neg Bool.false_ne_true]
  rcases pair with ⟨d, rfl⟩ | ⟨d, rfl⟩
  · rfl
  · cases x <;> rfl

end Native

namespace Primitive

variable {p q : Primitive} {x y : Numeral} {a b : ℚ}

/-! ## Division -/

theorem answers_quotient (hx : p.numeral? = some x) (hy : q.numeral? = some y) :
    Answers "/" p q (.double (Native.quotient x y)) := by
  refine answers_native .divide ⟨_, rfl, rfl⟩ (by decide) ?_
  show Native.divide p q = _
  simp only [Native.divide, Native.numerals, hx, hy]
  rfl

/-- A double stands beside an integer that has none. -/
def Apart (p q : Primitive) : Prop := p.IsDouble ∧ q.Oversized ∨ p.Oversized ∧ q.IsDouble

theorem doubles?_eq_none_iff_apart (hx : p.numeral? = some x) (hy : q.numeral? = some y)
    (pair : (∃ d, x = .double d) ∨ ∃ d, y = .double d) :
    Native.doubles? x y = none ↔ p.Apart q := by
  rw [Apart, Native.oversized_iff hx, Native.oversized_iff hy, Native.isDouble_iff hx,
    Native.isDouble_iff hy, Native.doubles?]
  rcases pair with ⟨d, rfl⟩ | ⟨d, rfl⟩
  · cases hy' : y.toDouble? <;> simp [Numeral.toDouble?]
  · cases hx' : x.toDouble? <;> simp [Numeral.toDouble?]

/-- What the quotient of two numbers is. -/
structure Quotient (p q : Primitive) (z : Double) : Prop where
  /-- Two doubles have their exact quotient rounded, and so have two numbers that are
  no doubles, of any size. -/
  alike : ∀ a b, p.HasValue a → q.HasValue b → b ≠ 0 → (p.IsDouble ↔ q.IsDouble) →
    z.RoundsTo (a / b)
  /-- A double and another number have the quotient of two doubles rounded. -/
  mixed : ∀ a b, p.HasValue a → q.HasValue b → b ≠ 0 → ¬ (p.IsDouble ↔ q.IsDouble) →
    ¬ p.Apart q → ∃ a' b', p.TakenAs a' ∧ q.TakenAs b' ∧
      (a' = a ∧ Near b' b ∨ Near a' a ∧ b' = b) ∧ z.RoundsTo (a' / b')
  /-- So only a quotient beyond the largest double is infinite, up to the rounding of
  one operand, and it has its sign. -/
  infinite : ∀ a b s, p.HasValue a → q.HasValue b → b ≠ 0 → ¬ p.Apart q → z = .infinity s →
    (1 - 2 ^ (-53 : Int)) * Magnitude.overflowBound ≤ |a / b| ∧ s = decide (a / b < 0)
  nan : p.IsNaN ∨ q.IsNaN → ¬ p.Apart q → z = .nan
  /-- Where a number is not taken as a double, nothing but the signs is looked at. -/
  apart : p.Apart q → ¬ q.IsZero → z = .infinity (p.negative != q.negative)

section

variable (hx : p.numeral? = some x) (hy : q.numeral? = some y)

include hx hy

theorem quotient_apart (apart : p.Apart q) (nonzero : ¬ q.IsZero) :
    Native.quotient x y = .infinity (p.negative != q.negative) := by
  rw [Native.isZero_iff hy, Bool.not_eq_true] at nonzero
  have pair : (∃ d, x = .double d) ∨ ∃ d, y = .double d := by
    rw [← Native.isDouble_iff hx, ← Native.isDouble_iff hy]
    exact apart.imp And.left And.right
  rw [Native.quotient_doubles pair nonzero,
    (doubles?_eq_none_iff_apart hx hy pair).mpr apart, negative, negative, hx, hy]
  rfl

theorem quotient_taken (pair : p.IsDouble ∨ q.IsDouble) (together : ¬ p.Apart q)
    (nonzero : ¬ q.IsZero) : ∃ d e, p.double? = some d ∧ q.double? = some e ∧
      Native.quotient x y = d.div e := by
  rw [Native.isZero_iff hy, Bool.not_eq_true] at nonzero
  rw [Native.isDouble_iff hx, Native.isDouble_iff hy] at pair
  have taken := mt (doubles?_eq_none_iff_apart hx hy pair).mp together
  rw [Native.quotient_doubles pair nonzero, double?_of_numeral? hx, double?_of_numeral? hy]
  unfold Native.doubles? at taken ⊢
  cases hd : x.toDouble? with
  | none => simp [hd] at taken
  | some d =>
      cases he : y.toDouble? with
      | none => simp [hd, he] at taken
      | some e => exact ⟨d, e, rfl, rfl, rfl⟩

theorem quotient_alike (ha : p.HasValue a) (hb : q.HasValue b) (nonzero : b ≠ 0)
    (alike : p.IsDouble ↔ q.IsDouble) : (Native.quotient x y).RoundsTo (a / b) := by
  have divisor : y.isZero = false := by
    rwa [← Bool.not_eq_true, ← Native.isZero_iff hy, hb.isZero_iff]
  have dividend := ha.toRat? hx
  have divisor' := hb.toRat? hy
  rw [Native.isDouble_iff hx, Native.isDouble_iff hy] at alike
  cases x with
  | integer m =>
      cases y with
      | double e => simp at alike
      | integer n =>
          cases dividend
          cases divisor'
          unfold Native.quotient
          rw [divisor, if_neg Bool.false_ne_true]
          exact Native.divideIntegers_roundsTo (by exact_mod_cast nonzero)
  | double d =>
      cases y with
      | integer n => simp at alike
      | double e =>
          rw [Native.quotient_doubles (.inl ⟨d, rfl⟩) divisor]
          exact Native.div_roundsTo dividend divisor' nonzero

theorem quotient_nan (nan : p.IsNaN ∨ q.IsNaN) (together : ¬ p.Apart q) :
    Native.quotient x y = .nan := by
  by_cases zero : q.IsZero
  · rw [Native.isZero_iff hy] at zero
    rw [Native.isNaN_iff hx, Native.isNaN_iff hy] at nan
    unfold Native.quotient
    rw [if_pos zero]
    obtain rfl | rfl := nan
    · simp [Native.divideByZero, Numeral.isNaN, Double.isNaN]
    · cases zero
  · have pair : p.IsDouble ∨ q.IsDouble := nan.imp (fun h => ⟨_, h⟩) fun h => ⟨_, h⟩
    obtain ⟨d, e, hd, he, divided⟩ := quotient_taken hx hy pair together zero
    rw [divided]
    obtain rfl | rfl := nan
    · cases hd
      rfl
    · cases he
      cases d <;> rfl

theorem quotient_mixed (ha : p.HasValue a) (hb : q.HasValue b) (nonzero : b ≠ 0)
    (mixed : ¬ (p.IsDouble ↔ q.IsDouble)) (together : ¬ p.Apart q) :
    ∃ a' b', p.TakenAs a' ∧ q.TakenAs b' ∧ (a' = a ∧ Near b' b ∨ Near a' a ∧ b' = b) ∧
      (Native.quotient x y).RoundsTo (a' / b') := by
  have pair : p.IsDouble ∨ q.IsDouble := by tauto
  obtain ⟨d, e, hd, he, divided⟩ :=
    quotient_taken hx hy pair together (mt hb.isZero_iff.mp nonzero)
  obtain ⟨a', value, near, exact⟩ := ha.near hd
  obtain ⟨b', value', near', exact'⟩ := hb.near he
  have nonzero' : b' ≠ 0 := mt near'.eq_zero_iff.mp nonzero
  refine ⟨a', b', ⟨d, hd, value⟩, ⟨e, he, value'⟩, ?_, ?_⟩
  · exact pair.imp (fun h => ⟨exact h, near'⟩) fun h => ⟨near, exact' h⟩
  · rw [divided]
    exact Native.div_roundsTo value value' nonzero'

theorem quotient_infinite (ha : p.HasValue a) (hb : q.HasValue b) (nonzero : b ≠ 0)
    (together : ¬ p.Apart q) {s : Bool} (infinite : Native.quotient x y = .infinity s) :
    (1 - 2 ^ (-53 : Int)) * Magnitude.overflowBound ≤ |a / b| ∧ s = decide (a / b < 0) := by
  by_cases alike : p.IsDouble ↔ q.IsDouble
  · obtain ⟨beyond, sign⟩ :=
      ((quotient_alike hx hy ha hb nonzero alike).infinite_iff s).mp infinite
    refine ⟨le_trans (mul_le_of_le_one_left ?_ ?_) beyond, sign⟩
    · exact Nat.cast_nonneg _
    · norm_num
  · obtain ⟨a', b', -, -, one, rounds⟩ := quotient_mixed hx hy ha hb nonzero alike together
    obtain ⟨beyond, sign⟩ := (rounds.infinite_iff s).mp infinite
    refine ⟨le_abs_div_of_near (Nat.cast_nonneg _) nonzero one beyond, ?_⟩
    rw [sign, decide_eq_decide]
    obtain ⟨rfl, near⟩ | ⟨near, rfl⟩ := one
    · exact div_neg_of_near (.refl _) near
    · exact div_neg_of_near near (.refl _)

end

/-- Division answers any two numbers with a double, and the quotient is what the
operands call for. -/
theorem division_quotient (numeric : p.IsNumeric ∧ q.IsNumeric) :
    ∃ z, Answers "/" p q (.double z) ∧ p.Quotient q z := by
  obtain ⟨x, hx⟩ := Native.isNumeric_iff.mp numeric.1
  obtain ⟨y, hy⟩ := Native.isNumeric_iff.mp numeric.2
  exact ⟨_, answers_quotient hx hy,
    { alike := fun _ _ => quotient_alike hx hy
      mixed := fun _ _ => quotient_mixed hx hy
      infinite := fun _ _ _ ha hb nonzero together => quotient_infinite hx hy ha hb nonzero together
      nan := quotient_nan hx hy
      apart := quotient_apart hx hy }⟩

theorem division_quotient_ceiling :
    ((Primitive.integer Magnitude.ceiling).IsNumeric ∧ (Primitive.integer (-1)).IsNumeric) ∧
      Answers "/" (.integer Magnitude.ceiling) (.integer (-1)) (.double (.infinity true)) := by
  have numeric (n : Int) : (Primitive.integer n).IsNumeric := .inl rfl
  refine ⟨⟨numeric _, numeric _⟩, ?_⟩
  obtain ⟨z, answers, quotient⟩ :=
    division_quotient (p := .integer Magnitude.ceiling) (q := .integer (-1)) ⟨numeric _, numeric _⟩
  have other (n : Int) : ¬ (Primitive.integer n).IsDouble := by rintro ⟨_, ⟨⟩⟩
  have rounds := quotient.alike _ _ (.integer _) (.integer _) (by norm_num)
    (iff_of_false (other _) (other _))
  have value : ((Magnitude.ceiling : Int) : ℚ) / ((-1 : Int) : ℚ) = -(Magnitude.ceiling : ℚ) := by
    push_cast
    rw [div_neg, div_one]
  have positive : (0 : ℚ) < Magnitude.ceiling := by exact_mod_cast Magnitude.ceiling_pos
  have infinite := rounds.beyond (by
    rw [value, abs_neg, abs_of_pos positive]
    exact_mod_cast Magnitude.overflowBound_le_ceiling)
  rwa [infinite, value, decide_eq_true (neg_lt_zero.mpr positive)] at answers

/-- Neither not-a-number nor a small quotient is told from a large one where the
divisor is not taken as a double. -/
theorem small_quotient_infinite :
    Answers "/" (.double .nan) (.integer Magnitude.ceiling) (.double (.infinity false)) ∧
      Answers "/" (.double .one) (.integer Magnitude.ceiling) (.double (.infinity false)) ∧
      (Primitive.double .one).HasValue 1 ∧
      |(1 / Magnitude.ceiling : ℚ)| < Magnitude.overflowBound := by
  have oversized : (Primitive.integer Magnitude.ceiling).Oversized :=
    ⟨_, rfl, Magnitude.overflowBound_le_ceiling⟩
  have one : (1 : ℚ) ≤ Magnitude.ceiling := by exact_mod_cast Magnitude.ceiling_pos
  have nonzero : ¬ (Primitive.integer Magnitude.ceiling).IsZero := by
    rw [(HasValue.integer _).isZero_iff]
    exact_mod_cast Magnitude.ceiling_pos.ne'
  have unsigned : (Primitive.integer Magnitude.ceiling).negative = false := by
    rw [(HasValue.integer _).negative_eq, decide_eq_false_iff_not, not_lt]
    exact_mod_cast Nat.cast_nonneg _
  have infinite (x : Double) (positive : (Primitive.double x).negative = false) :
      Answers "/" (.double x) (.integer Magnitude.ceiling) (.double (.infinity false)) := by
    have answers := answers_quotient (p := .double x) (q := .integer Magnitude.ceiling) rfl rfl
    rwa [quotient_apart rfl rfl (.inl ⟨⟨x, rfl⟩, oversized⟩) nonzero, positive, unsigned] at answers
  refine ⟨infinite _ rfl, infinite _ rfl, .double (by decide +kernel), ?_⟩
  calc |(1 / Magnitude.ceiling : ℚ)| ≤ 1 := by
        rw [abs_of_pos (by positivity), div_le_one (by positivity)]
        exact one
    _ < Magnitude.overflowBound := by exact_mod_cast Magnitude.one_lt_overflowBound

end Primitive
end OperatorDispatch
