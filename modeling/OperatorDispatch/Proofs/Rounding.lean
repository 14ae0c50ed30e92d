import Mathlib.Algebra.Order.Field.Power
import Mathlib.Data.Nat.Cast.Field
import Mathlib.Tactic.Linarith
import Mathlib.Tactic.NormNum
import Mathlib.Tactic.Positivity
import OperatorDispatch.Proofs.Tally

/-!
# What rounding to doubles does

A quotient is scaled by a power of two until its whole part has the bits of a
mantissa, and is then rounded once.  The scaling is exact (`scaleDown_eq`) and
the power is the one of the leading binary place (`binade_bounds`), so the
mantissa has 53 bits, or fewer at the least exponent (`mantissa_bounds`).

Two things are read off that.  A quotient has no double exactly from half a unit
above the largest one on (`ofRatio?_eq_none_iff`): the mantissa of the largest
double is odd, so the half itself is rounded up.  And a quotient of at least one
is not rounded to zero (`mantissa_ne_zero`).

Whether a double is whole is told from its mantissa and its exponent; it is
whether its value is an integer (`toInt?_eq_some_iff`).
-/

namespace OperatorDispatch

namespace Magnitude

/-! ## Quotients under a power of two -/

theorem scaleDown_pos {d : Nat} (n : Nat) (hd : 0 < d) (e : Int) : 0 < (scaleDown n d e).2 := by
  unfold scaleDown
  split
  · simp only [Nat.shiftLeft_eq]
    positivity
  · exact hd

theorem scaleDown_eq (n d : Nat) (e : Int) :
    ((scaleDown n d e).1 : ℚ) / (scaleDown n d e).2 = n / d / 2 ^ e := by
  unfold scaleDown
  split
  · rename_i he
    lift e to Nat using he
    simp only [Int.toNat_natCast, Nat.shiftLeft_eq, zpow_natCast]
    push_cast
    rw [div_div]
  · rename_i he
    obtain ⟨k, rfl⟩ : ∃ k : Nat, e = -k := ⟨(-e).toNat, by omega⟩
    simp only [neg_neg, Int.toNat_natCast, Nat.shiftLeft_eq, zpow_neg, zpow_natCast, div_inv_eq_mul]
    push_cast
    ring

/-- The value of a magnitude, in one formula. -/
theorem toRat_eq (m : Magnitude) : m.toRat = m.mantissa * 2 ^ m.exponent := by
  obtain ⟨mantissa, exponent, canonical⟩ := m
  unfold toRat
  dsimp only
  split
  · rename_i he
    lift exponent to Nat using he
    simp [Nat.shiftLeft_eq]
  · rename_i he
    obtain ⟨k, rfl⟩ : ∃ k : Nat, exponent = -k := ⟨(-exponent).toNat, by omega⟩
    simp only [neg_neg, Int.toNat_natCast, Nat.one_shiftLeft, Rat.mkRat_eq_div, zpow_neg,
      zpow_natCast]
    push_cast
    ring

/-! ## The leading binary place -/

section Binade

variable {n d : Nat}

theorem log2_bounds (hn : n ≠ 0) :
    (2 : ℚ) ^ (n.log2 : Int) ≤ n ∧ (n : ℚ) < 2 ^ (n.log2 + 1 : Int) := by
  constructor
  · rw [zpow_natCast]
    exact_mod_cast Nat.log2_self_le hn
  · have := Nat.lt_log2_self (n := n)
    rw [← Nat.cast_succ, zpow_natCast]
    exact_mod_cast this

theorem binade_bounds (hn : n ≠ 0) (hd : d ≠ 0) :
    (2 : ℚ) ^ binade n d ≤ n / d ∧ (n / d : ℚ) < 2 ^ (binade n d + 1) := by
  obtain ⟨hn₁, hn₂⟩ := log2_bounds hn
  obtain ⟨hd₁, hd₂⟩ := log2_bounds hd
  have hdpos : (0 : ℚ) < d := by exact_mod_cast Nat.pos_of_ne_zero hd
  have two : (2 : ℚ) ≠ 0 := by norm_num
  obtain ⟨k, hk⟩ : ∃ k : Int, k = (n.log2 : Int) - d.log2 := ⟨_, rfl⟩
  have lower : (2 : ℚ) ^ (k - 1) ≤ n / d := by
    rw [le_div_iff₀ hdpos]
    calc (2 : ℚ) ^ (k - 1) * d ≤ 2 ^ (k - 1) * 2 ^ (d.log2 + 1 : Int) := by gcongr
      _ = 2 ^ (n.log2 : Int) := by rw [← zpow_add₀ two]; congr 1; omega
      _ ≤ n := hn₁
  have upper : (n / d : ℚ) < 2 ^ (k + 1) := by
    rw [div_lt_iff₀ hdpos]
    calc (n : ℚ) < 2 ^ (n.log2 + 1 : Int) := hn₂
      _ = 2 ^ (k + 1) * 2 ^ (d.log2 : Int) := by rw [← zpow_add₀ two]; congr 1; omega
      _ ≤ 2 ^ (k + 1) * d := by gcongr
  have scaled := scaleDown_eq n d k
  have hpos : (0 : ℚ) < (scaleDown n d k).2 := by
    exact_mod_cast scaleDown_pos n (Nat.pos_of_ne_zero hd) k
  have hpow : (0 : ℚ) < 2 ^ k := by positivity
  have decided : (scaleDown n d k).2 ≤ (scaleDown n d k).1 ↔ (2 : ℚ) ^ k ≤ n / d := by
    rw [← one_le_div₀ hpow, ← scaled, one_le_div₀ hpos, Nat.cast_le]
  have hbinade : binade n d = if (scaleDown n d k).2 ≤ (scaleDown n d k).1 then k else k - 1 := by
    rw [hk]
    rfl
  rw [hbinade]
  split
  · rename_i h
    exact ⟨decided.mp h, upper⟩
  · rename_i h
    rw [decided, not_le] at h
    exact ⟨lower, by rwa [sub_add_cancel]⟩

end Binade

/-! ## Rounding -/

section Rounding

variable {n d c : Nat}

theorem le_roundHalfEven (hd : 0 < d) (h : c * d ≤ n) : c ≤ roundHalfEven n d := by
  have hq : c ≤ n / d := (Nat.le_div_iff_mul_le hd).mpr h
  unfold roundHalfEven
  dsimp only
  split_ifs <;> omega

theorem roundHalfEven_le (hd : 0 < d) (h : n ≤ c * d) : roundHalfEven n d ≤ c := by
  have hq : n / d ≤ c := Nat.div_le_of_le_mul (by rwa [Nat.mul_comm])
  have split := Nat.div_add_mod n d
  unfold roundHalfEven
  dsimp only
  rcases Nat.lt_or_eq_of_le hq with hlt | heq
  · split_ifs <;> omega
  · have hr : n % d = 0 := by
      rw [heq, Nat.mul_comm] at split
      omega
    rw [hr, if_pos (by omega)]
    exact hq

/-- A half below an even number is rounded up to it. -/
theorem even_le_roundHalfEven_iff (hd : 0 < d) (hc : c % 2 = 0) :
    c ≤ roundHalfEven n d ↔ 2 * (c * d) ≤ 2 * n + d := by
  have split := Nat.div_add_mod n d
  have hr := Nat.mod_lt n hd
  have near : n / d ≤ roundHalfEven n d ∧ roundHalfEven n d ≤ n / d + 1 := by
    unfold roundHalfEven
    dsimp only
    split_ifs <;> omega
  rw [Nat.mul_comm d] at split
  rcases Nat.lt_trichotomy c (n / d + 1) with hlt | heq | hgt
  · have := Nat.mul_le_mul_right d (Nat.le_of_lt_succ hlt)
    omega
  · have hcd : c * d = n / d * d + d := by rw [heq, Nat.succ_mul]
    unfold roundHalfEven
    dsimp only
    split_ifs <;> omega
  · have := Nat.mul_le_mul_right d hgt
    rw [Nat.succ_mul, Nat.succ_mul] at this
    omega

/-! ## What is too large -/

/-- The least value that is rounded beyond the largest double: half a unit of
the last place above that double. -/
def overflowBound : Nat := (2 ^ 54 - 1) * 2 ^ 970

theorem one_lt_overflowBound : 1 < overflowBound := by
  calc 1 < 2 ^ 54 - 1 := by decide
    _ ≤ overflowBound := Nat.le_mul_of_pos_right _ (by positivity)

theorem ofParts?_eq_none_iff {m : Nat} {e : Int} :
    ofParts? m e = none ↔ ¬ (m < 0x20000000000000 ∧ -1074 ≤ e ∧ e ≤ 971 ∧
      (e = -1074 ∨ 0x10000000000000 ≤ m)) := by
  unfold ofParts?
  split <;> simp_all

/-- The mantissa before it is put into canonical form, at the exponent that it
is taken at: it has 53 bits, or the exponent is the least one. -/
theorem mantissa_bounds (hn : n ≠ 0) (hd : 0 < d) {e : Int}
    (he : e = max (binade n d - 52) (-1074)) {n' d' : Nat} (hs : scaleDown n d e = (n', d')) :
    roundHalfEven n' d' ≤ 0x20000000000000 ∧
      (e = -1074 ∨ 0x10000000000000 ≤ roundHalfEven n' d') := by
  obtain ⟨lower, upper⟩ := binade_bounds hn hd.ne'
  have scaled := scaleDown_eq n d e
  have hd' := scaleDown_pos n hd e
  rw [hs] at scaled hd'
  dsimp only at scaled hd'
  have hpos : (0 : ℚ) < d' := by exact_mod_cast hd'
  have two : (2 : ℚ) ≠ 0 := by norm_num
  constructor
  · refine roundHalfEven_le hd' ?_
    have : (n' / d' : ℚ) ≤ 2 ^ (53 : Int) := by
      rw [scaled, div_le_iff₀ (by positivity), ← zpow_add₀ two]
      refine upper.le.trans (zpow_le_zpow_right₀ one_le_two ?_)
      omega
    rw [div_le_iff₀ hpos] at this
    exact_mod_cast this
  · rcases Int.lt_or_le (binade n d - 52) (-1074) with hlow | hhigh
    · exact .inl (by omega)
    · refine .inr (le_roundHalfEven hd' ?_)
      have : (2 : ℚ) ^ (52 : Int) ≤ n' / d' := by
        rw [scaled, le_div_iff₀ (by positivity), ← zpow_add₀ two]
        refine (zpow_le_zpow_right₀ one_le_two ?_).trans lower
        omega
      rw [le_div_iff₀ hpos] at this
      exact_mod_cast this

theorem overflowBound_eq : (overflowBound : ℚ) = (2 ^ 53 - 1 / 2) * 2 ^ (971 : Int) := by
  have half : (2 : ℚ) ^ (971 : Int) = 2 * 2 ^ 970 := by
    rw [← zpow_natCast, ← zpow_one_add₀ (by norm_num)]
    rfl
  have odd : ((2 ^ 54 - 1 : Nat) : ℚ) = 2 * 2 ^ 53 - 1 := by norm_num
  rw [overflowBound, Nat.cast_mul, Nat.cast_pow, Nat.cast_ofNat, odd, half]
  generalize (2 : ℚ) ^ 970 = unit
  ring

/-- The rounding of a quotient, with its exponent and its scaled parts named. -/
theorem ofRatio?_eq (hn : n ≠ 0) {e : Int} (he : e = max (binade n d - 52) (-1074)) {n' d' : Nat}
    (hs : scaleDown n d e = (n', d')) :
    ofRatio? n d =
      if roundHalfEven n' d' = 0x20000000000000 then ofParts? 0x10000000000000 (e + 1)
      else ofParts? (roundHalfEven n' d') e := by
  simp only [ofRatio?, if_neg hn, ← he, hs]

theorem ofRatio?_eq_none_iff (hd : 0 < d) :
    ofRatio? n d = none ↔ (overflowBound : ℚ) ≤ n / d := by
  have two : (2 : ℚ) ≠ 0 := by norm_num
  rw [overflowBound_eq]
  by_cases hn : n = 0
  · subst hn
    have : (0 : ℚ) < (2 ^ 53 - 1 / 2) * 2 ^ (971 : Int) := by positivity
    simpa [ofRatio?] using this
  obtain ⟨lower, upper⟩ := binade_bounds hn hd.ne'
  obtain ⟨e, he⟩ : ∃ e, e = max (binade n d - 52) (-1074) := ⟨_, rfl⟩
  obtain ⟨n', d', hs⟩ : ∃ n' d', scaleDown n d e = (n', d') := ⟨_, _, rfl⟩
  obtain ⟨most, least⟩ := mantissa_bounds hn hd he hs
  have parts : ofRatio? n d = none ↔
      971 < e ∨ e = 971 ∧ 0x20000000000000 ≤ roundHalfEven n' d' := by
    rw [ofRatio?_eq hn he hs]
    split <;> rw [ofParts?_eq_none_iff] <;> omega
  rw [parts]
  rcases Int.lt_trichotomy e 971 with hlt | rfl | hgt
  · have below : (n / d : ℚ) < (2 ^ 53 - 1 / 2) * 2 ^ (971 : Int) := by
      calc (n / d : ℚ) < 2 ^ (binade n d + 1) := upper
        _ ≤ 2 ^ (52 + 971 : Int) := zpow_le_zpow_right₀ one_le_two (by omega)
        _ = 2 ^ 52 * 2 ^ (971 : Int) := by rw [zpow_add₀ two]; rfl
        _ ≤ _ := by gcongr; norm_num
    exact iff_of_false (by omega) below.not_ge
  · have scaled := scaleDown_eq n d 971
    have hd' := scaleDown_pos n hd 971
    rw [hs] at scaled hd'
    dsimp only at scaled hd'
    have hpos : (0 : ℚ) < d' := by exact_mod_cast hd'
    have rounded : 0x20000000000000 ≤ roundHalfEven n' d' ↔ (2 ^ 53 - 1 / 2 : ℚ) ≤ n' / d' := by
      rw [even_le_roundHalfEven_iff hd' (by decide), le_div_iff₀ hpos, ← Nat.cast_le (α := ℚ)]
      push_cast
      constructor <;> intro h <;> linarith
    rw [← le_div_iff₀ (by positivity), ← scaled, ← rounded]
    omega
  · have above : (2 ^ 53 - 1 / 2) * 2 ^ (971 : Int) ≤ (n / d : ℚ) := by
      calc (2 ^ 53 - 1 / 2) * 2 ^ (971 : Int) ≤ (2 : ℚ) ^ (53 : Int) * 2 ^ (971 : Int) := by
            gcongr
            norm_num
        _ = 2 ^ (53 + 971 : Int) := (zpow_add₀ two _ _).symm
        _ ≤ 2 ^ binade n d := zpow_le_zpow_right₀ one_le_two (by omega)
        _ ≤ n / d := lower
    exact iff_of_true (.inl hgt) above

theorem mantissa_of_ofParts? {m : Nat} {e : Int} {p : Magnitude} (h : ofParts? m e = some p) :
    p.mantissa = m := by
  unfold ofParts? at h
  split at h <;> cases h
  rfl

theorem exponent_of_ofParts? {m : Nat} {e : Int} {p : Magnitude} (h : ofParts? m e = some p) :
    p.exponent = e := by
  unfold ofParts? at h
  split at h <;> cases h
  rfl

theorem toRat_of_ofParts? {m : Nat} {e : Int} {p : Magnitude} (h : ofParts? m e = some p) :
    p.toRat = m * 2 ^ e := by
  unfold ofParts? at h
  split at h <;> cases h
  exact toRat_eq _

/-! ## How far off rounding is -/

theorem abs_roundHalfEven_sub_le (hd : 0 < d) : |(roundHalfEven n d - n / d : ℚ)| ≤ 1 / 2 := by
  have split := Nat.div_add_mod n d
  have hr := Nat.mod_lt n hd
  have near : 2 * n ≤ 2 * (d * roundHalfEven n d) + d ∧
      2 * (d * roundHalfEven n d) ≤ 2 * n + d := by
    unfold roundHalfEven
    dsimp only
    split_ifs
    all_goals
      try rw [Nat.mul_add, Nat.mul_one]
      omega
  have hpos : (0 : ℚ) < d := by exact_mod_cast hd
  have low : (2 * n : ℚ) ≤ 2 * (d * roundHalfEven n d) + d := by exact_mod_cast near.1
  have high : (2 * (d * roundHalfEven n d) : ℚ) ≤ 2 * n + d := by exact_mod_cast near.2
  have whole : (roundHalfEven n d - n / d : ℚ) = (d * roundHalfEven n d - n) / d := by
    field_simp
  rw [whole, abs_le, le_div_iff₀ hpos, div_le_iff₀ hpos]
  constructor <;> linarith

/-- A rounded quotient is off by half a unit of its last place at most. -/
theorem abs_toRat_sub_le (hd : 0 < d) {m : Magnitude} (h : ofRatio? n d = some m) :
    |m.toRat - n / d| ≤ max ((2 : ℚ) ^ (-53 : Int) * (n / d)) (2 ^ (-1075 : Int)) := by
  have two : (2 : ℚ) ≠ 0 := by norm_num
  by_cases hn : n = 0
  · subst hn
    cases h
    simp [toRat_eq, zero]
  obtain ⟨lower, -⟩ := binade_bounds hn hd.ne'
  obtain ⟨e, he⟩ : ∃ e, e = max (binade n d - 52) (-1074) := ⟨_, rfl⟩
  obtain ⟨n', d', hs⟩ : ∃ n' d', scaleDown n d e = (n', d') := ⟨_, _, rfl⟩
  have scaled := scaleDown_eq n d e
  have hd' := scaleDown_pos n hd e
  rw [hs] at scaled hd'
  dsimp only at scaled hd'
  have value : m.toRat = roundHalfEven n' d' * 2 ^ e := by
    rw [ofRatio?_eq hn he hs] at h
    split at h
    · rename_i carry
      rw [toRat_of_ofParts? h, carry, zpow_add_one₀ two]
      push_cast
      ring
    · exact toRat_of_ofParts? h
  have unit : (0 : ℚ) < 2 ^ e := by positivity
  calc |m.toRat - n / d| = |(roundHalfEven n' d' - n' / d' : ℚ)| * 2 ^ e := by
        rw [value, ← div_mul_cancel₀ (n / d : ℚ) unit.ne', ← scaled, ← sub_mul, abs_mul,
          abs_of_pos unit]
    _ ≤ 1 / 2 * 2 ^ e := by
        gcongr
        exact abs_roundHalfEven_sub_le hd'
    _ = 2 ^ (e - 1) := by rw [zpow_sub_one₀ two]; ring
    _ ≤ _ := by
        rcases le_total (-1074) (binade n d - 52) with normal | subnormal
        · refine le_max_of_le_left ?_
          calc (2 : ℚ) ^ (e - 1) = 2 ^ (-53 : Int) * 2 ^ binade n d := by
                rw [← zpow_add₀ two]
                congr 1
                omega
            _ ≤ 2 ^ (-53 : Int) * (n / d) := by gcongr
        · refine le_max_of_le_right ?_
          rw [he, max_eq_right subnormal]
          norm_num

/-- What is at least one is not rounded to zero. -/
theorem mantissa_ne_zero (hd : 0 < d) (hle : d ≤ n) {m : Magnitude} (h : ofRatio? n d = some m) :
    m.mantissa ≠ 0 := by
  have hn : n ≠ 0 := by omega
  obtain ⟨e, he⟩ : ∃ e, e = max (binade n d - 52) (-1074) := ⟨_, rfl⟩
  obtain ⟨n', d', hs⟩ : ∃ n' d', scaleDown n d e = (n', d') := ⟨_, _, rfl⟩
  obtain ⟨-, least⟩ := mantissa_bounds hn hd he hs
  have high : 0 < binade n d + 1 := by
    obtain ⟨-, upper⟩ := binade_bounds hn hd.ne'
    have hdpos : (0 : ℚ) < d := by exact_mod_cast hd
    have one : (2 : ℚ) ^ (0 : Int) ≤ n / d := by
      rw [zpow_zero, one_le_div₀ hdpos]
      exact_mod_cast hle
    exact (zpow_lt_zpow_iff_right₀ one_lt_two).mp (one.trans_lt upper)
  rw [ofRatio?_eq hn he hs] at h
  split at h
  · rw [mantissa_of_ofParts? h]
    decide
  · rw [mantissa_of_ofParts? h]
    omega

end Rounding

/-! ## Whole values -/

section Whole

variable {m : Magnitude}

theorem toRat_nonneg (m : Magnitude) : 0 ≤ m.toRat := by
  rw [toRat_eq]
  positivity

theorem toRat_eq_zero_iff : m.toRat = 0 ↔ m.mantissa = 0 := by
  rw [toRat_eq, mul_eq_zero_iff_right (by positivity), Nat.cast_eq_zero]

/-- The power of two above the largest magnitude. -/
def ceiling : Nat := 2 ^ 1024

theorem ceiling_pos : 0 < ceiling := by
  unfold ceiling
  positivity

theorem overflowBound_le_ceiling : overflowBound ≤ ceiling := by
  calc (2 ^ 54 - 1) * 2 ^ 970 ≤ 2 ^ 54 * 2 ^ 970 := by gcongr; decide
    _ = ceiling := by rw [ceiling, ← pow_add]

theorem truncate_lt (m : Magnitude) : m.truncate < ceiling := by
  obtain ⟨mantissa, exponent, canonical⟩ := m
  unfold truncate
  dsimp only
  split
  · rw [Nat.shiftLeft_eq]
    calc mantissa * 2 ^ exponent.toNat < 2 ^ 53 * 2 ^ exponent.toNat := by
          gcongr
          exact canonical.1
      _ ≤ 2 ^ 53 * 2 ^ 971 := by
          gcongr
          · exact one_le_two
          · omega
      _ = ceiling := by rw [ceiling, ← pow_add]
  · calc mantissa >>> (-exponent).toNat ≤ mantissa := by
          rw [Nat.shiftRight_eq_div_pow]
          exact Nat.div_le_self _ _
      _ < 2 ^ 53 := canonical.1
      _ ≤ ceiling := by
          unfold ceiling
          gcongr
          · exact one_le_two
          · decide

theorem toRat_of_isIntegral (h : m.isIntegral = true) : m.toRat = m.truncate := by
  unfold isIntegral at h
  unfold toRat truncate
  split
  · rfl
  · rename_i he
    simp only [he, decide_false, Bool.false_or, beq_iff_eq, Nat.one_shiftLeft] at h
    rw [Rat.mkRat_eq_div, Nat.one_shiftLeft, Nat.shiftRight_eq_div_pow,
      Nat.cast_div (Nat.dvd_of_mod_eq_zero h) (by positivity)]
    rfl

theorem isIntegral_of_toRat {k : Nat} (h : m.toRat = k) : m.isIntegral = true := by
  unfold toRat at h
  unfold isIntegral
  split at h
  · rename_i he
    simp [he]
  · rename_i he
    simp only [he, decide_false, Bool.false_or, beq_iff_eq, Nat.one_shiftLeft]
    rw [Rat.mkRat_eq_div, Nat.one_shiftLeft, div_eq_iff (by positivity)] at h
    have : m.mantissa = k * 2 ^ (-m.exponent).toNat := by exact_mod_cast h
    rw [this, Nat.mul_mod_left]

theorem isIntegral_of_nonneg (h : 0 ≤ m.exponent) : m.isIntegral = true := by
  simp [isIntegral, h]

/-- A whole number is rounded to a whole magnitude. -/
theorem isIntegral_of_ofRatio? {n : Nat} (h : ofRatio? n 1 = some m) : m.isIntegral = true := by
  rcases Nat.eq_zero_or_pos n with rfl | pos
  · cases h
    decide
  rcases Nat.le_total n (2 ^ 53) with short | long
  · obtain ⟨m', hm', value⟩ := toRat_ofRatio? pos.ne' short
    cases hm'.symm.trans h
    exact isIntegral_of_toRat value
  · obtain ⟨e, he⟩ : ∃ e, e = max (binade n 1 - 52) (-1074) := ⟨_, rfl⟩
    obtain ⟨n', d', hs⟩ : ∃ n' d', scaleDown n 1 e = (n', d') := ⟨_, _, rfl⟩
    have high : 53 < binade n 1 + 1 := by
      obtain ⟨-, upper⟩ := binade_bounds pos.ne' one_ne_zero
      rw [Nat.cast_one, div_one] at upper
      have low : (2 : ℚ) ^ (53 : Int) ≤ n := by exact_mod_cast long
      exact (zpow_lt_zpow_iff_right₀ one_lt_two).mp (low.trans_lt upper)
    rw [ofRatio?_eq pos.ne' he hs] at h
    split at h
    · exact isIntegral_of_nonneg (by rw [exponent_of_ofParts? h]; omega)
    · exact isIntegral_of_nonneg (by rw [exponent_of_ofParts? h]; omega)

end Whole

end Magnitude

namespace Double

variable {x : Double} {n : Int}

/-- A double is whole where its value is. -/
theorem toInt?_eq_some_iff : x.toInt? = some n ↔ x.toRat? = some (n : ℚ) := by
  cases x with
  | nan | infinity => simp [toInt?, toRat?]
  | finite s m =>
      simp only [toInt?, toRat?, Option.some.injEq, Option.ite_none_right_eq_some]
      constructor
      · rintro ⟨whole, rfl⟩
        rw [Magnitude.toRat_of_isIntegral whole]
        cases s <;> simp
      · intro value
        have size : m.toRat = n.natAbs := by
          rw [Nat.cast_natAbs, Int.cast_abs, ← value]
          cases s <;> simp [abs_of_nonneg m.toRat_nonneg]
        have whole := Magnitude.isIntegral_of_toRat size
        refine ⟨whole, ?_⟩
        rw [Magnitude.toRat_of_isIntegral whole] at value
        cases s <;> exact_mod_cast value

theorem toRat?_eq_zero_iff : x.toRat? = some 0 ↔ x.isZero = true := by
  cases x with
  | nan | infinity => simp [toRat?, isZero]
  | finite s m => cases s <;> simp [toRat?, isZero, Magnitude.toRat_eq_zero_iff]

theorem natAbs_lt_of_toInt? (h : x.toInt? = some n) : n.natAbs < Magnitude.ceiling := by
  cases x with
  | nan | infinity => cases h
  | finite s m =>
      simp only [toInt?, Option.ite_none_right_eq_some, Option.some.injEq] at h
      obtain ⟨-, rfl⟩ := h
      have size := m.truncate_lt
      cases s <;> simpa using size

theorem ofInt?_eq_none_iff : ofInt? n = none ↔ Magnitude.overflowBound ≤ n.natAbs := by
  rw [ofInt?, Option.map_eq_none_iff, Magnitude.ofRatio?_eq_none_iff Nat.one_pos, Nat.cast_one,
    div_one, Nat.cast_le]

/-- An integer is rounded to a whole double. -/
theorem exists_toInt?_of_ofInt? (h : ofInt? n = some x) : ∃ k, x.toInt? = some k := by
  obtain ⟨m, hm, rfl⟩ := Option.map_eq_some_iff.mp h
  exact ⟨_, if_pos (Magnitude.isIntegral_of_ofRatio? hm)⟩

/-- An integer is rounded to a finite double, and to zero only if it is zero. -/
theorem exists_of_ofInt? (h : ofInt? n = some x) :
    ∃ m, x = .finite (n < 0) m ∧ (n ≠ 0 → m.mantissa ≠ 0) := by
  obtain ⟨m, hm, rfl⟩ := Option.map_eq_some_iff.mp h
  exact ⟨m, rfl, fun hn => Magnitude.mantissa_ne_zero Nat.one_pos (Int.natAbs_pos.mpr hn) hm⟩

end Double

end OperatorDispatch
