import OperatorDispatch.Number.Power
import OperatorDispatch.Proofs.Enclosures

/-!
# Powers of magnitudes

The power of two magnitudes is an end of its enclosure, moved by a margin and rounded
(`pow_eq_round`).  What it says about an overflow is told here; which of the two ends
is taken, and so the estimate in doubles that decides it, does not matter for that.

* An overflow means that the power is beyond the largest magnitude
  (`largest_lt_of_pow`), and a power from the next power of two on overflows
  (`pow_of_ceiling_le`).
* A base well below one has powers below one (`pow_lt_one`).

All roundings together are far smaller than the margin, unless the exponent is huge.
Then the base decides, which is one or a unit of its last place apart from it: the
power decays or grows much faster than the roundings do (`outweighed_huge`).
-/

namespace OperatorDispatch

/-- A number, or its inverse. -/
noncomputable def turned (inverse : Bool) (v : ℝ) : ℝ := if inverse then v⁻¹ else v

theorem turned_pos (inverse : Bool) {v : ℝ} (h : 0 < v) : 0 < turned inverse v := by
  unfold turned
  split
  · exact inv_pos.mpr h
  · exact h

theorem Magnitude.cast_ceiling : (Magnitude.ceiling : ℝ) = 2 ^ 1024 := by
  rw [Magnitude.ceiling, Nat.cast_pow, Nat.cast_ofNat]

namespace Scaled

variable {x : Scaled} {inverse : Bool}

/-! ## Rounding an end -/

/-- The exponent of the leading binary place, of a number or of its inverse. -/
def top (inverse : Bool) (x : Scaled) : Int :=
  if inverse then -((x.mantissa.log2 : Int) + x.exponent) - 1 else x.mantissa.log2 + x.exponent

theorem top_bounds (inverse : Bool) (some : x.mantissa ≠ 0) :
    (2 : ℝ) ^ x.top inverse ≤ turned inverse x.value ∧
      turned inverse x.value ≤ 2 ^ (x.top inverse + 1) := by
  have two : (2 : ℝ) ≠ 0 := two_ne_zero
  have unit : (0 : ℝ) < 2 ^ x.exponent := by positivity
  have low : (2 : ℝ) ^ ((x.mantissa.log2 : Int) + x.exponent) ≤ x.value := by
    rw [zpow_add₀ two, zpow_natCast, value]
    gcongr
    exact_mod_cast Nat.log2_self_le some
  have high : x.value ≤ 2 ^ ((x.mantissa.log2 : Int) + x.exponent + 1) := by
    rw [add_right_comm, zpow_add₀ two, ← Nat.cast_succ, zpow_natCast, value]
    gcongr
    exact_mod_cast Nat.lt_log2_self.le
  cases inverse with
  | false => exact ⟨low, high⟩
  | true =>
      have pos := value_pos_iff.mpr some
      simp only [top, turned, if_true]
      constructor
      · rw [← neg_add', zpow_neg]
        exact inv_anti₀ pos high
      · rw [sub_add_cancel, zpow_neg]
        exact inv_anti₀ (by positivity) low

/-- The number as the quotient that is rounded. -/
theorem scaleDown_value {n d : Nat} (hs : Magnitude.scaleDown x.mantissa 1 (-x.exponent) = (n, d)) :
    (n / d : ℝ) = x.value ∧ 0 < d := by
  have scaled := Magnitude.scaleDown_eq x.mantissa 1 (-x.exponent)
  have pos := Magnitude.scaleDown_pos x.mantissa Nat.one_pos (-x.exponent)
  rw [hs] at scaled pos
  refine ⟨?_, pos⟩
  have cast := congrArg (Rat.cast (K := ℝ)) scaled
  push_cast at cast
  rw [cast, div_one, zpow_neg, div_inv_eq_mul, value]

theorem round_eq (some : x.mantissa ≠ 0) :
    x.round inverse =
      if x.top inverse < -1080 then .some .zero
      else if 1030 < x.top inverse then none
      else
        let (n, d) := Magnitude.scaleDown x.mantissa 1 (-x.exponent)
        if inverse then Magnitude.ofRatio? d n else Magnitude.ofRatio? n d := by
  unfold round top
  simp only [some, false_or]

/-- The quotient that is rounded, where the leading place is not beyond all doubles. -/
theorem round_eq_ofRatio? (some : x.mantissa ≠ 0) (low : ¬ x.top inverse < -1080)
    (high : ¬ 1030 < x.top inverse) :
    ∃ n d : Nat, 0 < d ∧ (n / d : ℝ) = turned inverse x.value ∧
      x.round inverse = Magnitude.ofRatio? n d := by
  obtain ⟨n, d, hs⟩ : ∃ n d, Magnitude.scaleDown x.mantissa 1 (-x.exponent) = (n, d) :=
    ⟨_, _, rfl⟩
  obtain ⟨quotient, pos⟩ := scaleDown_value hs
  rw [round_eq some, if_neg low, if_neg high, hs]
  cases inverse with
  | false => exact ⟨n, d, pos, quotient, rfl⟩
  | true =>
      have value_pos := value_pos_iff.mpr some
      refine ⟨d, n, ?_, ?_, rfl⟩
      · rw [← quotient] at value_pos
        by_contra zero
        simp [Nat.eq_zero_of_not_pos zero] at value_pos
      · rw [turned, if_pos rfl, ← quotient, inv_div]

theorem round_low (some : x.mantissa ≠ 0) (low : x.top inverse < -1080) :
    x.round inverse = Option.some .zero := by
  rw [round_eq some, if_pos low]

theorem round_high (some : x.mantissa ≠ 0) (high : 1030 < x.top inverse) :
    x.round inverse = none := by
  rw [round_eq some, if_neg (by omega), if_pos high]

theorem round_eq_none_iff (pos : 0 < x.value) :
    x.round inverse = none ↔ (Magnitude.overflowBound : ℝ) ≤ turned inverse x.value := by
  have some := value_pos_iff.mp pos
  obtain ⟨least, most⟩ := top_bounds inverse some
  by_cases low : x.top inverse < -1080
  · rw [round_low some low]
    refine iff_of_false nofun (not_le.mpr ?_)
    calc turned inverse x.value ≤ 2 ^ (x.top inverse + 1) := most
      _ ≤ 2 ^ (0 : Int) := zpow_le_zpow_right₀ one_le_two (by omega)
      _ = 1 := zpow_zero _
      _ < Magnitude.overflowBound := by exact_mod_cast Magnitude.one_lt_overflowBound
  by_cases high : 1030 < x.top inverse
  · rw [round_high some high]
    refine iff_of_true rfl ?_
    calc (Magnitude.overflowBound : ℝ) ≤ Magnitude.ceiling := by
          exact_mod_cast Magnitude.overflowBound_le_ceiling
      _ = 2 ^ (1024 : Int) := by rw [Magnitude.cast_ceiling, ← zpow_natCast, Nat.cast_ofNat]
      _ ≤ 2 ^ x.top inverse := zpow_le_zpow_right₀ one_le_two (by omega)
      _ ≤ turned inverse x.value := least
  obtain ⟨n, d, pos, quotient, rounded⟩ := round_eq_ofRatio? some low high
  rw [rounded, Magnitude.ofRatio?_eq_none_iff pos, ← quotient, ← Rat.cast_le (K := ℝ)]
  push_cast
  rfl

theorem round_le (pos : 0 < x.value) {m : Magnitude} (h : x.round inverse = some m) :
    (m.toRat : ℝ) ≤ (1 + 2 ^ (-53 : Int)) * turned inverse x.value + 2 ^ (-53 : Int) := by
  have some := value_pos_iff.mp pos
  have turned_pos := turned_pos inverse pos
  by_cases low : x.top inverse < -1080
  · rw [round_low some low] at h
    cases h
    have zero : Magnitude.zero.toRat = 0 := Magnitude.toRat_eq_zero_iff.mpr rfl
    rw [zero, Rat.cast_zero]
    positivity
  by_cases high : 1030 < x.top inverse
  · rw [round_high some high] at h
    cases h
  obtain ⟨n, d, hd, quotient, rounded⟩ := round_eq_ofRatio? some low high
  have off := (abs_le.mp (Magnitude.abs_toRat_sub_le hd (rounded.symm.trans h))).2
  have tiny : (2 : ℚ) ^ (-1075 : Int) ≤ 2 ^ (-53 : Int) :=
    zpow_le_zpow_right₀ one_le_two (by decide)
  have off' : m.toRat - n / d ≤ 2 ^ (-53 : Int) * (n / d) + 2 ^ (-53 : Int) :=
    (off.trans (max_le_max_left _ tiny)).trans
      (max_le_add_of_nonneg (by positivity) (by positivity))
  rw [← Rat.cast_le (K := ℝ)] at off'
  push_cast at off'
  rw [quotient] at off'
  linarith

/-- One part in `2 ^ 55`, the margin that is added to both ends. -/
noncomputable def margin : ℝ := ((2 ^ 55 : Nat) : ℝ)⁻¹

theorem margin_eq : margin = 2 ^ (-55 : Int) := by
  norm_num [margin]

theorem margin_pos : 0 < margin := by
  rw [margin_eq]
  positivity

theorem margin_lt_one : margin < 1 := by
  rw [margin_eq]
  norm_num

theorem value_shrink (x : Scaled) : x.shrink.value = x.value * (1 - margin) := by
  rw [value, value, shrink, margin_eq]
  dsimp only
  rw [sub_eq_add_neg, zpow_add₀ two_ne_zero]
  push_cast
  have unit : (36028797018963967 : ℝ) * 2 ^ (-55 : Int) = 1 - 2 ^ (-55 : Int) := by norm_num
  rw [← unit]
  ring

theorem value_grow (x : Scaled) : x.grow.value = x.value * (1 + margin) := by
  rw [value, value, grow, margin_eq]
  dsimp only
  rw [sub_eq_add_neg, zpow_add₀ two_ne_zero]
  push_cast
  have unit : (36028797018963969 : ℝ) * 2 ^ (-55 : Int) = 1 + 2 ^ (-55 : Int) := by norm_num
  rw [← unit]
  ring

end Scaled

namespace Magnitude

open Scaled

/-! ## The end that is rounded -/

/-- Two numbers are close up to a factor and the margin. -/
structure Close (r a b : ℝ) : Prop where
  left : (1 - margin) * a ≤ r * b
  right : (1 - margin) * b ≤ r * a

theorem Close.turned {r a b : ℝ} (h : Close r a b) (ha : 0 < a) (hb : 0 < b) (inverse : Bool) :
    Close r (turned inverse a) (turned inverse b) := by
  cases inverse with
  | false => exact h
  | true =>
      have flip {u v : ℝ} (hu : 0 < u) (hv : 0 < v) (less : (1 - margin) * u ≤ r * v) :
          (1 - margin) * v⁻¹ ≤ r * u⁻¹ := by
        rw [← div_eq_mul_inv, ← div_eq_mul_inv, div_le_div_iff₀ hv hu]
        exact less
      exact ⟨flip hb ha h.right, flip ha hb h.left⟩

variable {base exponent : Magnitude} {p : ℝ} {k : Nat} {e : Enclosure}

theorem close_shrink (h : e.Holds 127 p k) : Close (slack 127 ^ k) p e.lower.shrink.value := by
  have margin_pos := margin_pos
  have margin_lt_one := margin_lt_one
  have lower_pos := h.lower_pos
  have one_le : 1 ≤ slack 127 ^ k := one_le_pow₀ one_le_slack
  rw [value_shrink]
  constructor
  · calc (1 - margin) * p ≤ (1 - margin) * (e.lower.value * slack 127 ^ k) := by
          gcongr
          exact h.lower.le_mul
      _ = slack 127 ^ k * (e.lower.value * (1 - margin)) := by ring
  · calc (1 - margin) * (e.lower.value * (1 - margin)) ≤ 1 * (e.lower.value * 1) := by
          gcongr <;> linarith
      _ ≤ slack 127 ^ k * p := by
          rw [mul_one]
          exact mul_le_mul one_le h.lower.le lower_pos.le (zero_le_one.trans one_le)

theorem close_grow (h : e.Holds 127 p k) : Close (slack 127 ^ k) p e.upper.grow.value := by
  have margin_pos := margin_pos
  have upper_pos := h.upper_pos
  have one_le : 1 ≤ slack 127 ^ k := one_le_pow₀ one_le_slack
  rw [value_grow]
  constructor
  · calc (1 - margin) * p ≤ 1 * (e.upper.value * 1) := by
          rw [mul_one]
          exact mul_le_mul (by linarith) h.upper.le h.pos.le zero_le_one
      _ ≤ slack 127 ^ k * (e.upper.value * (1 + margin)) := by
          gcongr
          linarith
  · calc (1 - margin) * (e.upper.value * (1 + margin)) = (1 - margin ^ 2) * e.upper.value := by
          ring
      _ ≤ 1 * e.upper.value := by
          gcongr
          exact sub_le_self 1 (sq_nonneg margin)
      _ ≤ slack 127 ^ k * p := by
          rw [one_mul, mul_comm]
          exact h.upper.le_mul

/-- A power is rounded from a number close to it. -/
theorem pow_eq_round (h : (Enclosure.power 128 base exponent).Holds 127 p k) (inverse : Bool) :
    ∃ c : Scaled, base.pow inverse exponent = c.round inverse ∧ 0 < c.value ∧
      Close (slack 127 ^ k) p c.value := by
  obtain ⟨e, he⟩ : ∃ e, e = Enclosure.power 128 base exponent := ⟨_, rfl⟩
  rw [← he] at h
  have answer : base.pow inverse exponent = e.lower.shrink.round inverse ∨
      base.pow inverse exponent = e.upper.grow.round inverse := by
    unfold Magnitude.pow
    rw [← he]
    dsimp only
    split_ifs <;> simp
  rcases answer with answer | answer
  · refine ⟨_, answer, ?_, close_shrink h⟩
    rw [value_shrink]
    exact mul_pos h.lower_pos (sub_pos.mpr margin_lt_one)
  · refine ⟨_, answer, ?_, close_grow h⟩
    rw [value_grow]
    exact mul_pos h.upper_pos (add_pos one_pos margin_pos)

/-! ## Exponents that are not huge -/

/-- The largest magnitude. -/
def largest : Magnitude := ⟨0x1fffffffffffff, 971, by decide⟩

theorem slack_pow_mul_le (k : Nat) : slack 127 ^ k * (1 - k * (2 ^ 127)⁻¹) ≤ 1 := by
  have bernoulli := one_add_mul_le_pow (a := -(2 ^ 127 : ℝ)⁻¹) (by norm_num) k
  calc slack 127 ^ k * (1 - k * (2 ^ 127)⁻¹) ≤ slack 127 ^ k * (1 + -(2 ^ 127 : ℝ)⁻¹) ^ k := by
        refine mul_le_mul_of_nonneg_left ?_ (pow_nonneg slack_nonneg k)
        linarith
    _ = (slack 127 * (1 + -(2 ^ 127 : ℝ)⁻¹)) ^ k := (mul_pow _ _ _).symm
    _ ≤ 1 := by
        refine pow_le_one₀ ?_ ?_ <;> norm_num [slack]

/-- So many roundings are still far from the margin. -/
theorem slack_pow_mul_le_one (hk : k ≤ 2 ^ 67) : slack 127 ^ k * (1 - 2 ^ (-60 : Int)) ≤ 1 := by
  have few : (k : ℝ) ≤ 2 ^ 67 := by exact_mod_cast hk
  refine le_trans ?_ (slack_pow_mul_le k)
  refine mul_le_mul_of_nonneg_left ?_ (pow_nonneg slack_nonneg k)
  calc (1 - 2 ^ (-60 : Int) : ℝ) = 1 - 2 ^ 67 * (2 ^ 127)⁻¹ := by norm_num
    _ ≤ 1 - k * (2 ^ 127)⁻¹ := by gcongr

/-- What is beyond the bound of rounding is beyond the largest magnitude, with the
margin and all roundings taken off. -/
theorem largest_lt_overflowBound :
    (largest.toRat : ℝ) < (1 - 2 ^ (-60 : Int)) * ((1 - margin) * overflowBound) := by
  have exactly :
      largest.toRat < (1 - 2 ^ (-60 : Int)) * ((1 - 2 ^ (-55 : Int)) * overflowBound) := by
    have parts : (largest.mantissa : ℚ) = 2 ^ 53 - 1 := by norm_num [largest]
    have unit : (0 : ℚ) < 2 ^ largest.exponent := by positivity
    rw [overflowBound_eq, toRat_eq, parts, ← mul_assoc, ← mul_assoc]
    refine mul_lt_mul_of_pos_right ?_ unit
    norm_num
  rw [← Rat.cast_lt (K := ℝ)] at exactly
  push_cast at exactly
  rw [margin_eq]
  exact exactly

/-! ## The base as a step from one -/

/-- A magnitude other than one is apart from it by a unit of its last place. -/
theorem apart_from_one (m : Magnitude) :
    m.toRat ≤ 1 - 2 ^ (-53 : Int) ∨ m = one ∨ 1 + 2 ^ (-52 : Int) ≤ m.toRat := by
  obtain ⟨short, -, -, full⟩ := m.canonical
  rw [toRat_eq]
  rcases lt_or_ge m.exponent (-52) with low | high
  · left
    have mantissa : (m.mantissa : ℚ) ≤ 2 ^ 53 - 1 := by
      have : m.mantissa + 1 ≤ 2 ^ 53 := short
      have cast : ((m.mantissa + 1 : Nat) : ℚ) ≤ ((2 ^ 53 : Nat) : ℚ) := by exact_mod_cast this
      push_cast at cast
      linarith
    calc (m.mantissa : ℚ) * 2 ^ m.exponent ≤ (2 ^ 53 - 1) * 2 ^ (-53 : Int) := by
          gcongr
          · exact one_le_two
          · omega
      _ = 1 - 2 ^ (-53 : Int) := by norm_num
  · right
    have long : 2 ^ 52 ≤ m.mantissa := full.resolve_left (by omega)
    rcases Nat.eq_or_lt_of_le long with exact | more
    · rcases eq_or_lt_of_le high with lowest | higher
      · left
        obtain ⟨mantissa, exponent, canonical⟩ := m
        cases exact
        cases lowest
        rfl
      · right
        calc (1 + 2 ^ (-52 : Int) : ℚ) ≤ (2 ^ 52 : Nat) * 2 ^ (-51 : Int) := by norm_num
          _ ≤ m.mantissa * 2 ^ m.exponent := by
              rw [exact]
              gcongr
              · exact one_le_two
              · omega
    · right
      have more' : (2 ^ 52 + 1 : ℚ) ≤ m.mantissa := by exact_mod_cast more
      calc (1 + 2 ^ (-52 : Int) : ℚ) = (2 ^ 52 + 1) * 2 ^ (-52 : Int) := by norm_num
        _ ≤ m.mantissa * 2 ^ m.exponent := by
            gcongr
            exact one_le_two

/-! ## Powers -/

section Power

variable {inverse : Bool} {t y : ℝ}

theorem toRat_pos (hb : base.mantissa ≠ 0) : (0 : ℝ) < base.toRat := by
  rw [← Enclosure.value_exact]
  exact value_pos_iff.mpr hb

theorem turned_rpow (ht : 0 ≤ t) : turned inverse (t ^ y) = turned inverse t ^ y := by
  unfold turned
  split
  · exact (Real.inv_rpow ht y).symm
  · rfl

/-- A huge exponent has no binary places. -/
theorem exponent_nonneg_of_huge (huge : 2 ^ 53 ≤ exponent.truncate) : 0 ≤ exponent.exponent := by
  by_contra low
  have short := exponent.canonical.1
  rw [truncate, if_neg low, Nat.shiftRight_eq_div_pow] at huge
  have := huge.trans (Nat.div_le_self _ _)
  omega

theorem toRat_one : one.toRat = 1 := by
  rw [toRat_eq]
  norm_num [one]

/-- A base that is turned is as far from one. -/
theorem turned_apart_from_one (hb : base.mantissa ≠ 0) (other : base ≠ one) :
    turned inverse (base.toRat : ℝ) ≤ 1 - 2 ^ (-53 : Int) ∨
      1 + 2 ^ (-53 : Int) ≤ turned inverse (base.toRat : ℝ) := by
  have pos := toRat_pos hb
  have step : (2 : ℝ) ^ (-53 : Int) ≤ 2 ^ (-52 : Int) := zpow_le_zpow_right₀ one_le_two (by decide)
  obtain low | same | high := base.apart_from_one
  · rw [← Rat.cast_le (K := ℝ)] at low
    push_cast at low
    cases inverse with
    | false => exact .inl low
    | true =>
        refine .inr ?_
        rw [turned, if_pos rfl, le_inv_comm₀ (by positivity) pos]
        refine low.trans ?_
        norm_num
  · exact absurd same other
  · rw [← Rat.cast_le (K := ℝ)] at high
    push_cast at high
    cases inverse with
    | false => exact .inr ((by linarith : (1 + 2 ^ (-53 : Int) : ℝ) ≤ _).trans high)
    | true =>
        refine .inl ?_
        rw [turned, if_pos rfl, inv_le_comm₀ pos (by norm_num)]
        refine le_trans ?_ high
        norm_num

theorem two_pow_le_pow {places k n : Nat} (hn : 2 ^ places * k ≤ n) :
    (2 : ℝ) ^ k ≤ (1 + (2 ^ places)⁻¹) ^ n := by
  have unit : (0 : ℝ) < 2 ^ places := by positivity
  have bernoulli : (2 : ℝ) ≤ (1 + (2 ^ places)⁻¹) ^ (2 ^ places) := by
    have steps := one_add_mul_le_pow (a := (2 ^ places : ℝ)⁻¹)
      (by linarith [inv_pos.mpr unit]) (2 ^ places)
    push_cast at steps
    rw [mul_inv_cancel₀ unit.ne'] at steps
    linarith
  calc (2 : ℝ) ^ k ≤ ((1 + (2 ^ places)⁻¹) ^ (2 ^ places)) ^ k := by gcongr
    _ = (1 + (2 ^ places)⁻¹) ^ (2 ^ places * k) := (pow_mul _ _ _).symm
    _ ≤ (1 + (2 ^ places)⁻¹) ^ n := by
        refine pow_le_pow_right₀ ?_ hn
        linarith [inv_pos.mpr unit]

/-- How far the number that is rounded may be off a power `p` with the base `t`: not
noticeably, or by a factor that the power outweighs. -/
inductive Outweighed (t p r : ℝ) : Prop
  | close (few : r * (1 - 2 ^ (-60 : Int)) ≤ 1)
  | small (below : slack 127 ^ 8 * t ≤ 1) (decays : r * p ≤ slack 127 ^ 8 * t)
  | large (above : 1 < t) (grows : r * ceiling ≤ p)

theorem outweighed_huge {n : Nat} (ht : 0 < t) (huge : 2 ^ 64 ≤ n)
    (apart : t ≤ 1 - 2 ^ (-53 : Int) ∨ 1 + 2 ^ (-53 : Int) ≤ t) {r : ℝ}
    (hr : r ≤ (slack 127 ^ 8) ^ n) : Outweighed t (t ^ n) r := by
  have slack_pos : (0 : ℝ) < slack 127 ^ 8 := pow_pos (zero_lt_one.trans_le one_le_slack) 8
  obtain low | high := apart
  · have below : slack 127 ^ 8 * t ≤ 1 := by
      calc slack 127 ^ 8 * t ≤ slack 127 ^ 8 * (1 - 2 ^ (-53 : Int)) := by gcongr
        _ ≤ 1 := by norm_num [slack]
    refine .small below ?_
    calc r * t ^ n ≤ (slack 127 ^ 8) ^ n * t ^ n := by gcongr
      _ = (slack 127 ^ 8 * t) ^ n := (mul_pow _ _ _).symm
      _ ≤ slack 127 ^ 8 * t := pow_le_of_le_one (by positivity) below (by omega)
  · refine .large (lt_of_lt_of_le (by norm_num) high) ?_
    rw [cast_ceiling]
    calc r * 2 ^ 1024 ≤ (slack 127 ^ 8) ^ n * (1 + (2 ^ 54)⁻¹) ^ n := by
          gcongr
          exact two_pow_le_pow (le_trans (by decide) huge)
      _ = (slack 127 ^ 8 * (1 + (2 ^ 54)⁻¹)) ^ n := (mul_pow _ _ _).symm
      _ ≤ t ^ n := by
          gcongr
          refine le_trans ?_ high
          norm_num [slack]

/-- A power is rounded from a number that is close to it as far as it matters. -/
theorem pow_eq_round_outweighed (hb : base.mantissa ≠ 0) (inverse : Bool) (exponent : Magnitude) :
    ∃ (c : Scaled) (r : ℝ), base.pow inverse exponent = c.round inverse ∧ 0 < c.value ∧ 1 ≤ r ∧
      Close r (turned inverse base.toRat ^ (exponent.toRat : ℝ)) (turned inverse c.value) ∧
      Outweighed (turned inverse base.toRat)
        (turned inverse base.toRat ^ (exponent.toRat : ℝ)) r := by
  have base_pos := toRat_pos hb
  have rounded {k : Nat} (h : (Enclosure.power 128 base exponent).Holds 127
      ((base.toRat : ℝ) ^ (exponent.toRat : ℝ)) k) :
      ∃ c : Scaled, base.pow inverse exponent = c.round inverse ∧ 0 < c.value ∧
        Close (slack 127 ^ k) (turned inverse base.toRat ^ (exponent.toRat : ℝ))
          (turned inverse c.value) := by
    obtain ⟨c, answer, pos, close⟩ := pow_eq_round h inverse
    have close' := close.turned h.pos pos inverse
    rw [turned_rpow base_pos.le] at close'
    exact ⟨c, answer, pos, close'⟩
  rcases Nat.lt_or_ge exponent.truncate (2 ^ 64) with few | huge
  · obtain ⟨c, answer, pos, close⟩ := rounded (Enclosure.holds_power hb)
    exact ⟨c, _, answer, pos, one_le_pow₀ one_le_slack, close,
      .close (slack_pow_mul_le_one (by omega))⟩
  have nonneg : 0 ≤ exponent.exponent := exponent_nonneg_of_huge (le_trans (by decide) huge)
  have whole : exponent.toRat = exponent.truncate :=
    toRat_of_isIntegral (isIntegral_of_nonneg nonneg)
  by_cases other : base = one
  · subst other
    have held := Enclosure.holds_power_one 127 nonneg
    rw [← Real.one_rpow (exponent.toRat : ℝ), ← Rat.cast_one, ← toRat_one] at held
    obtain ⟨c, answer, pos, close⟩ := rounded held
    exact ⟨c, _, answer, pos, one_le_pow₀ one_le_slack, close,
      .close (slack_pow_mul_le_one (Nat.zero_le _))⟩
  · obtain ⟨c, answer, pos, close⟩ := rounded (Enclosure.holds_power hb)
    refine ⟨c, _, answer, pos, one_le_pow₀ one_le_slack, close, ?_⟩
    rw [whole, Rat.cast_natCast, Real.rpow_natCast]
    refine outweighed_huge (turned_pos inverse base_pos) huge (turned_apart_from_one hb other) ?_
    rw [← pow_mul]
    exact pow_le_pow_right₀ one_le_slack (by omega)

theorem one_lt_bound : (1 : ℝ) < (1 - margin) * overflowBound := by
  have two : (2 : ℝ) ≤ overflowBound := by exact_mod_cast one_lt_overflowBound
  have half : (1 / 2 : ℝ) < 1 - margin := by norm_num [margin_eq]
  nlinarith

theorem largest_lt_ceiling : (largest.toRat : ℝ) < ceiling := by
  have bound : (overflowBound : ℝ) ≤ ceiling := by exact_mod_cast overflowBound_le_ceiling
  have nonneg : (0 : ℝ) ≤ overflowBound := Nat.cast_nonneg _
  have low : 1 - margin ≤ 1 := sub_le_self 1 margin_pos.le
  have unit : (1 - 2 ^ (-60 : Int) : ℝ) ≤ 1 := by norm_num
  calc (largest.toRat : ℝ) < (1 - 2 ^ (-60 : Int)) * ((1 - margin) * overflowBound) :=
        largest_lt_overflowBound
    _ ≤ (1 - margin) * overflowBound :=
        mul_le_of_le_one_left (mul_nonneg (sub_nonneg.mpr margin_lt_one.le) nonneg) unit
    _ ≤ overflowBound := mul_le_of_le_one_left nonneg low
    _ ≤ ceiling := bound

theorem one_lt_ceiling : (1 : ℝ) < ceiling := by
  exact_mod_cast one_lt_overflowBound.trans_le overflowBound_le_ceiling

/-- Overflow means that the power is beyond the largest magnitude. -/
theorem largest_lt_of_pow (hb : base.mantissa ≠ 0)
    (overflow : base.pow inverse exponent = none) :
    (largest.toRat : ℝ) < turned inverse base.toRat ^ (exponent.toRat : ℝ) := by
  obtain ⟨c, r, answer, pos, one_le, close, outweighed⟩ :=
    pow_eq_round_outweighed hb inverse exponent
  rw [answer, round_eq_none_iff pos] at overflow
  have margin_lt_one := margin_lt_one
  have power_pos := Real.rpow_pos_of_pos (turned_pos inverse (toRat_pos hb))
    (exponent.toRat : ℝ)
  generalize turned inverse base.toRat ^ (exponent.toRat : ℝ) = p at *
  have reached : (1 - margin) * overflowBound ≤ r * p := by
    refine le_trans ?_ close.right
    gcongr
  cases outweighed with
  | close few =>
      have unit : (0 : ℝ) < 1 - 2 ^ (-60 : Int) := by norm_num
      calc (largest.toRat : ℝ) < (1 - 2 ^ (-60 : Int)) * ((1 - margin) * overflowBound) :=
            largest_lt_overflowBound
        _ ≤ (1 - 2 ^ (-60 : Int)) * (r * p) := mul_le_mul_of_nonneg_left reached unit.le
        _ = r * (1 - 2 ^ (-60 : Int)) * p := by ring
        _ ≤ 1 * p := by gcongr
        _ = p := one_mul p
  | small below decays => exact absurd (reached.trans (decays.trans below)) one_lt_bound.not_ge
  | large above grows =>
      calc (largest.toRat : ℝ) < ceiling := largest_lt_ceiling
        _ ≤ r * ceiling := le_mul_of_one_le_left (Nat.cast_nonneg _) one_le
        _ ≤ p := grows

/-- The bound of rounding is well below the next power of two. -/
theorem overflowBound_le_mul_ceiling :
    (overflowBound : ℝ) ≤ (1 - 2 ^ (-60 : Int)) * ((1 - margin) * ceiling) := by
  have exactly : (overflowBound : ℚ) ≤
      (1 - 2 ^ (-60 : Int)) * ((1 - 2 ^ (-55 : Int)) * (2 ^ 53 * 2 ^ (971 : Int))) := by
    have unit : (0 : ℚ) < 2 ^ (971 : Int) := by positivity
    rw [overflowBound_eq, ← mul_assoc, ← mul_assoc]
    refine mul_le_mul_of_nonneg_right ?_ unit.le
    norm_num
  have top : (2 ^ 53 * 2 ^ (971 : Int) : ℚ) = ceiling := by
    rw [ceiling, ← zpow_natCast, ← zpow_add₀ two_ne_zero, Nat.cast_pow, ← zpow_natCast]
    rfl
  rw [top, ← Rat.cast_le (K := ℝ)] at exactly
  push_cast at exactly
  rw [margin_eq]
  exact exactly

/-- A power from the next power of two on overflows. -/
theorem pow_of_ceiling_le (hb : base.mantissa ≠ 0)
    (large : (ceiling : ℝ) ≤ turned inverse base.toRat ^ (exponent.toRat : ℝ)) :
    base.pow inverse exponent = none := by
  obtain ⟨c, r, answer, pos, one_le, close, outweighed⟩ :=
    pow_eq_round_outweighed hb inverse exponent
  rw [answer, round_eq_none_iff pos]
  have margin_lt_one := margin_lt_one
  have unit : (0 : ℝ) < 1 - 2 ^ (-60 : Int) := by norm_num
  have rounded_pos := turned_pos inverse pos
  generalize turned inverse base.toRat ^ (exponent.toRat : ℝ) = p at *
  generalize turned inverse c.value = q at *
  have bound := overflowBound_le_mul_ceiling
  have reached := close.left
  cases outweighed with
  | close few =>
      calc (overflowBound : ℝ) ≤ (1 - 2 ^ (-60 : Int)) * ((1 - margin) * ceiling) := bound
        _ ≤ (1 - 2 ^ (-60 : Int)) * ((1 - margin) * p) :=
            mul_le_mul_of_nonneg_left
              (mul_le_mul_of_nonneg_left large (sub_nonneg.mpr margin_lt_one.le)) unit.le
        _ ≤ (1 - 2 ^ (-60 : Int)) * (r * q) := mul_le_mul_of_nonneg_left reached unit.le
        _ = r * (1 - 2 ^ (-60 : Int)) * q := by ring
        _ ≤ 1 * q := by gcongr
        _ = q := one_mul q
  | small below decays =>
      have one_lt := one_lt_ceiling
      have p_pos : 0 ≤ p := (zero_le_one.trans one_lt.le).trans large
      have decayed : p ≤ 1 := (le_mul_of_one_le_left p_pos one_le).trans (decays.trans below)
      exact absurd (large.trans decayed) one_lt.not_ge
  | large above grows =>
      have r_pos : 0 < r := zero_lt_one.trans_le one_le
      have step : r * ((1 - margin) * ceiling) ≤ r * q := by
        calc r * ((1 - margin) * ceiling) = (1 - margin) * (r * ceiling) := by ring
          _ ≤ (1 - margin) * p := by gcongr
          _ ≤ r * q := reached
      refine bound.trans ((mul_le_of_le_one_left ?_ ?_).trans (le_of_mul_le_mul_left step r_pos))
      · exact mul_nonneg (sub_nonneg.mpr margin_lt_one.le) (Nat.cast_nonneg _)
      · norm_num

theorem rpow_le_of_small (ht : 0 < t) (small : t ≤ 3 / 5) (hy : 9 / 10 ≤ y) : t ^ y ≤ 4 / 5 := by
  calc t ^ y ≤ t ^ (1 / 2 : ℝ) := Real.rpow_le_rpow_of_exponent_ge ht (by linarith) (by linarith)
    _ ≤ (3 / 5) ^ (1 / 2 : ℝ) := Real.rpow_le_rpow ht.le small (by norm_num)
    _ = √(3 / 5) := (Real.sqrt_eq_rpow _).symm
    _ ≤ 4 / 5 := Real.sqrt_le_iff.mpr (by norm_num)

theorem Outweighed.mul_le {r : ℝ} (h : Outweighed t p r) (small : t ≤ 3 / 5) (hp : 0 ≤ p)
    (less : p ≤ 4 / 5) : r * p ≤ 5 / 6 := by
  cases h with
  | close few =>
      have unit : (24 / 25 : ℝ) ≤ 1 - 2 ^ (-60 : Int) := by norm_num
      rcases le_or_gt (r * p) 0 with neg | pos
      · exact neg.trans (by norm_num)
      have scaled : 24 / 25 * (r * p) ≤ 4 / 5 := by
        calc 24 / 25 * (r * p) ≤ (1 - 2 ^ (-60 : Int)) * (r * p) := by gcongr
          _ = r * (1 - 2 ^ (-60 : Int)) * p := by ring
          _ ≤ 1 * p := by gcongr
          _ ≤ 4 / 5 := by rwa [one_mul]
      linarith
  | small below decays =>
      refine decays.trans ?_
      calc slack 127 ^ 8 * t ≤ slack 127 ^ 8 * (3 / 5) :=
            mul_le_mul_of_nonneg_left small (pow_nonneg slack_nonneg 8)
        _ ≤ 5 / 6 := by norm_num [slack]
  | large above => linarith

/-- A base well below one is raised to a magnitude below one. -/
theorem pow_lt_one (hb : base.mantissa ≠ 0) (small : turned inverse (base.toRat : ℝ) ≤ 3 / 5)
    (positive : (9 / 10 : ℝ) ≤ exponent.toRat) :
    ∃ m, base.pow inverse exponent = some m ∧ m.toRat < 1 := by
  obtain ⟨c, r, answer, pos, one_le, close, outweighed⟩ :=
    pow_eq_round_outweighed hb inverse exponent
  have base_pos := turned_pos inverse (toRat_pos hb)
  have power_pos := Real.rpow_pos_of_pos base_pos (exponent.toRat : ℝ)
  have off := outweighed.mul_le small power_pos.le (rpow_le_of_small base_pos small positive)
  have reached : turned inverse c.value ≤ 9 / 10 := by
    have width : (25 / 27 : ℝ) ≤ 1 - margin := by norm_num [margin_eq]
    have scaled : 25 / 27 * turned inverse c.value ≤ 5 / 6 :=
      (mul_le_mul_of_nonneg_right width (turned_pos inverse pos).le).trans (close.right.trans off)
    linarith
  cases rounded : c.round inverse with
  | none =>
      rw [round_eq_none_iff pos] at rounded
      have one_lt : (1 : ℝ) < overflowBound := by exact_mod_cast one_lt_overflowBound
      linarith
  | some m =>
      refine ⟨m, answer.trans rounded, ?_⟩
      have most : (m.toRat : ℝ) < 1 := by
        calc (m.toRat : ℝ)
            ≤ (1 + 2 ^ (-53 : Int)) * turned inverse c.value + 2 ^ (-53 : Int) :=
              round_le pos rounded
          _ ≤ (1 + 2 ^ (-53 : Int)) * (9 / 10) + 2 ^ (-53 : Int) := by gcongr
          _ < 1 := by norm_num
      exact_mod_cast most

end Power

end Magnitude
end OperatorDispatch
