import Mathlib.Analysis.SpecialFunctions.Pow.Real
import OperatorDispatch.Number.Enclosure
import OperatorDispatch.Proofs.Rounding

/-!
# Enclosures of powers

An enclosure keeps two bounds of a positive number, each rounded away from it to a
width.  Every rounding is off by a factor of at most `Scaled.slack`, so what counts is
how many there have been: `Enclosure.Holds` says that the bounds lie on both sides of
the number and are apart from it by the slack of so many roundings.  A product adds
the roundings of its factors and one more, a root adds two to those of its radicand.

For a power that comes to `holds_power`: twice as many for each place of the whole
part of the exponent, which is four for each unit of it, and not many for the places
behind the point.  Under a huge exponent that says little, except that a power of one
is enclosed by one and one (`holds_power_one`).
-/

namespace OperatorDispatch

/-! ## Closeness -/

/-- One number is at most another, and less by the factor at most. -/
structure Within (r a b : ℝ) : Prop where
  le : a ≤ b
  le_mul : b ≤ a * r

namespace Within

variable {r s a b c d : ℝ}

theorem refl (hr : 1 ≤ r) (ha : 0 ≤ a) : Within r a a :=
  ⟨le_rfl, le_mul_of_one_le_right ha hr⟩

theorem left_pos (h : Within r a b) (hr : 0 ≤ r) (hb : 0 < b) : 0 < a :=
  pos_of_mul_pos_left (hb.trans_le h.le_mul) hr

theorem trans (hs : 0 ≤ s) (h : Within r a b) (h' : Within s b c) : Within (r * s) a c where
  le := h.le.trans h'.le
  le_mul := by
    calc c ≤ b * s := h'.le_mul
      _ ≤ a * r * s := by gcongr; exact h.le_mul
      _ = a * (r * s) := mul_assoc _ _ _

theorem mul (ha : 0 ≤ a) (hc : 0 ≤ c) (h : Within r a b) (h' : Within s c d) :
    Within (r * s) (a * c) (b * d) where
  le := mul_le_mul h.le h'.le hc (ha.trans h.le)
  le_mul := by
    calc b * d ≤ (a * r) * (c * s) :=
          mul_le_mul h.le_mul h'.le_mul (hc.trans h'.le) ((ha.trans h.le).trans h.le_mul)
      _ = a * c * (r * s) := by ring

theorem sqrt (h : Within r a b) (ha : 0 ≤ a) : Within (√r) (√a) (√b) where
  le := Real.sqrt_le_sqrt h.le
  le_mul := by
    rw [← Real.sqrt_mul ha]
    exact Real.sqrt_le_sqrt h.le_mul

theorem mono (hrs : r ≤ s) (ha : 0 ≤ a) (h : Within r a b) : Within s a b where
  le := h.le
  le_mul := h.le_mul.trans (by gcongr)

theorem mul_right (hc : 0 ≤ c) (h : Within r a b) : Within r (a * c) (b * c) where
  le := mul_le_mul_of_nonneg_right h.le hc
  le_mul := (mul_le_mul_of_nonneg_right h.le_mul hc).trans_eq (mul_right_comm _ _ _)

end Within

namespace Scaled

variable {width : Nat} {x y : Scaled}

/-- The number that is meant. -/
noncomputable def value (x : Scaled) : ℝ := x.mantissa * 2 ^ x.exponent

theorem value_nonneg (x : Scaled) : 0 ≤ x.value := by
  unfold value
  positivity

theorem value_pos_iff : 0 < x.value ↔ x.mantissa ≠ 0 := by
  rw [x.value_nonneg.lt_iff_ne', value, mul_ne_zero_iff, Nat.cast_ne_zero]
  exact and_iff_left (by positivity)

theorem value_one : one.value = 1 := by
  simp [value, one]

theorem value_mul : (x.mul y).value = x.value * y.value := by
  simp only [value, mul, Nat.cast_mul, zpow_add₀ (two_ne_zero (α := ℝ))]
  ring

/-! ## Rounding to a width -/

section Width

variable {bits m n : Nat}

/-- What a number of `bits + 1` binary places may be off. -/
noncomputable def slack (bits : Nat) : ℝ := 1 + (2 ^ bits)⁻¹

theorem one_le_slack : 1 ≤ slack bits := by
  rw [slack, le_add_iff_nonneg_right]
  positivity

theorem slack_nonneg : 0 ≤ slack bits :=
  zero_le_one.trans one_le_slack

theorem succ_le_mul_slack (hn : 2 ^ bits ≤ n) : (n + 1 : ℝ) ≤ n * slack bits := by
  have unit : (1 : ℝ) ≤ n * (2 ^ bits)⁻¹ := by
    rw [← div_eq_mul_inv, one_le_div₀ (by positivity)]
    exact_mod_cast hn
  rw [slack, mul_add, mul_one]
  linarith

/-- The places of a number beyond the width. -/
abbrev excess (bits m : Nat) : Nat := m.log2 + 1 - (bits + 1)

theorem kept_bounds (m places : Nat) :
    (m >>> places) * 2 ^ places ≤ m ∧ m < (m >>> places + 1) * 2 ^ places := by
  rw [Nat.shiftRight_eq_div_pow, Nat.succ_mul]
  exact ⟨Nat.div_mul_le_self _ _, Nat.lt_div_mul_add (Nat.two_pow_pos _)⟩

theorem le_kept (hm : m ≠ 0) (some : excess bits m ≠ 0) : 2 ^ bits ≤ m >>> excess bits m := by
  rw [Nat.shiftRight_eq_div_pow, Nat.le_div_iff_mul_le (Nat.two_pow_pos _), ← pow_add]
  calc 2 ^ (bits + excess bits m) = 2 ^ m.log2 := by unfold excess at *; congr 1; omega
    _ ≤ m := Nat.log2_self_le hm

theorem within_kept (bits : Nat) (hm : m ≠ 0) :
    Within (slack bits) (((m >>> excess bits m : Nat) : ℝ) * 2 ^ excess bits m) m := by
  obtain ⟨low, high⟩ := kept_bounds m (excess bits m)
  refine ⟨by exact_mod_cast low, ?_⟩
  by_cases none : excess bits m = 0
  · rw [none, Nat.shiftRight_zero, pow_zero, mul_one]
    exact le_mul_of_one_le_right (Nat.cast_nonneg _) one_le_slack
  · calc (m : ℝ) ≤ ((m >>> excess bits m : Nat) + 1) * 2 ^ excess bits m := by
          exact_mod_cast high.le
      _ ≤ (m >>> excess bits m : Nat) * slack bits * 2 ^ excess bits m := by
          gcongr
          exact succ_le_mul_slack (le_kept hm none)
      _ = _ := mul_right_comm _ _ _

theorem within_raised (hm : m ≠ 0) (inexact : (m >>> excess bits m) <<< excess bits m ≠ m) :
    Within (slack bits) m (((m >>> excess bits m : Nat) + 1 : ℝ) * 2 ^ excess bits m) := by
  obtain ⟨low, high⟩ := kept_bounds m (excess bits m)
  have some : excess bits m ≠ 0 := by
    intro none
    rw [none] at inexact
    exact inexact rfl
  refine ⟨by exact_mod_cast high.le, ?_⟩
  calc ((m >>> excess bits m : Nat) + 1 : ℝ) * 2 ^ excess bits m
      ≤ (m >>> excess bits m : Nat) * slack bits * 2 ^ excess bits m := by
        gcongr
        exact succ_le_mul_slack (le_kept hm some)
    _ = (m >>> excess bits m : Nat) * 2 ^ excess bits m * slack bits := mul_right_comm _ _ _
    _ ≤ m * slack bits := by
        gcongr
        · exact slack_nonneg
        · exact_mod_cast low

theorem within_floorTo (bits : Nat) (pos : 0 < x.value) :
    Within (slack bits) (x.floorTo (bits + 1)).value x.value := by
  have close := (within_kept bits (value_pos_iff.mp pos)).mul_right
    (zpow_nonneg (zero_le_two (α := ℝ)) x.exponent)
  rw [mul_assoc, ← zpow_natCast, ← zpow_add₀ two_ne_zero, add_comm _ x.exponent] at close
  exact close

/-- Nothing is rounded where no bits are dropped. -/
theorem ceilTo_of_exact
    (exact : (x.mantissa >>> excess bits x.mantissa) <<< excess bits x.mantissa = x.mantissa) :
    x.ceilTo (bits + 1) = x.floorTo (bits + 1) := by
  simp only [ceilTo, floorTo, if_pos exact]

theorem value_floorTo_of_exact
    (exact : (x.mantissa >>> excess bits x.mantissa) <<< excess bits x.mantissa = x.mantissa) :
    (x.floorTo (bits + 1)).value = x.value := by
  rw [Nat.shiftLeft_eq] at exact
  rw [floorTo, value, value, add_comm x.exponent, zpow_add₀ two_ne_zero, zpow_natCast, ← mul_assoc]
  congr 1
  exact_mod_cast exact

theorem within_ceilTo (bits : Nat) (pos : 0 < x.value) :
    Within (slack bits) x.value (x.ceilTo (bits + 1)).value := by
  have unit := zpow_nonneg (zero_le_two (α := ℝ)) x.exponent
  by_cases exact : (x.mantissa >>> excess bits x.mantissa) <<< excess bits x.mantissa = x.mantissa
  · rw [ceilTo_of_exact exact, value_floorTo_of_exact exact]
    exact .refl one_le_slack x.value_nonneg
  · have close := (within_raised (value_pos_iff.mp pos) exact).mul_right unit
    rw [mul_assoc, ← zpow_natCast, ← zpow_add₀ two_ne_zero, add_comm _ x.exponent] at close
    simp only [ceilTo, if_neg exact, value]
    exact_mod_cast close

/-- One, written with so many binary places. -/
def unit (places : Nat) : Scaled := ⟨2 ^ places, -places⟩

theorem value_unit (places : Nat) : (unit places).value = 1 := by
  rw [value, unit]
  push_cast
  rw [zpow_neg, zpow_natCast]
  exact mul_inv_cancel₀ (by positivity)

theorem unit_mul (i j : Nat) : (unit i).mul (unit j) = unit (i + j) := by
  simp only [unit, mul, ← pow_add, mk.injEq, true_and]
  omega

theorem excess_le (bits places : Nat) : excess bits (2 ^ places) ≤ places := by
  rw [excess, Nat.log2_two_pow]
  omega

theorem kept_unit (bits places : Nat) :
    2 ^ places >>> excess bits (2 ^ places) = 2 ^ (places - excess bits (2 ^ places)) := by
  rw [Nat.shiftRight_eq_div_pow, Nat.pow_div (excess_le bits places) (by decide)]

/-- One is kept by every width. -/
theorem floorTo_unit (bits places : Nat) :
    (unit places).floorTo (bits + 1) = unit (places - excess bits (2 ^ places)) := by
  have le := excess_le bits places
  have kept := kept_unit bits places
  show (⟨2 ^ places >>> excess bits (2 ^ places), -places + excess bits (2 ^ places)⟩ : Scaled) = _
  rw [kept, unit, mk.injEq]
  exact ⟨rfl, by omega⟩

theorem ceilTo_unit (bits places : Nat) :
    (unit places).ceilTo (bits + 1) = unit (places - excess bits (2 ^ places)) := by
  have exact : (2 ^ places >>> excess bits (2 ^ places)) <<< excess bits (2 ^ places) =
      2 ^ places := by
    rw [kept_unit, Nat.shiftLeft_eq, ← pow_add, Nat.sub_add_cancel (excess_le bits places)]
  exact (ceilTo_of_exact (x := unit places) exact).trans (floorTo_unit bits places)

end Width

/-! ## Roots -/

section Root

variable {bits digits n : Nat}

theorem integerRoot_eq_sqrt (hn : n < 4 ^ digits) : integerRoot digits n = n.sqrt := by
  rw [Nat.eq_sqrt]
  induction digits generalizing n with
  | zero =>
      rw [pow_zero, Nat.lt_one_iff] at hn
      subst hn
      decide
  | succ digits ih =>
      obtain ⟨low, high⟩ := ih (n := n / 4) (by rw [pow_succ] at hn; omega)
      unfold integerRoot
      dsimp only
      generalize integerRoot digits (n / 4) = r at low high
      have low' : 2 * r * (2 * r) ≤ n := by
        calc 2 * r * (2 * r) = 4 * (r * r) := by ring
          _ ≤ 4 * (n / 4) := by gcongr
          _ ≤ n := Nat.mul_div_le n 4
      have high' : n < (2 * r + 2) * (2 * r + 2) := by
        calc n < 4 * (n / 4 + 1) := by omega
          _ ≤ 4 * ((r + 1) * (r + 1)) := by gcongr; exact high
          _ = (2 * r + 2) * (2 * r + 2) := by ring
      split
      · rename_i more
        exact ⟨more, high'⟩
      · rename_i less
        exact ⟨low', not_le.mp less⟩

theorem lt_four_pow (n : Nat) : n < 4 ^ (n.log2 / 2 + 1) := by
  calc n < 2 ^ (n.log2 + 1) := Nat.lt_log2_self
    _ ≤ 2 ^ (2 * (n.log2 / 2 + 1)) := Nat.pow_le_pow_right (by decide) (by omega)
    _ = 4 ^ (n.log2 / 2 + 1) := pow_mul 2 2 _

/-- Spreading a number leaves it what it is. -/
theorem value_spreadForRoot (width : Nat) (x : Scaled) :
    (x.spreadForRoot width).value = x.value := by
  unfold spreadForRoot value
  extract_lets missing shift
  rw [Nat.shiftLeft_eq, Nat.cast_mul, Nat.cast_pow, Nat.cast_ofNat, mul_assoc, ← zpow_natCast,
    ← zpow_add₀ two_ne_zero, add_sub_cancel]

theorem even_spreadForRoot (width : Nat) (x : Scaled) :
    (x.spreadForRoot width).exponent = 2 * ((x.spreadForRoot width).exponent / 2) := by
  unfold spreadForRoot
  dsimp only
  split <;> push_cast <;> omega

theorem le_spreadForRoot (bits : Nat) (some : x.mantissa ≠ 0) :
    2 ^ bits * 2 ^ bits ≤ (x.spreadForRoot (bits + 1)).mantissa := by
  unfold spreadForRoot
  dsimp only
  rw [Nat.shiftLeft_eq, ← pow_add]
  calc 2 ^ (bits + bits)
      ≤ 2 ^ (x.mantissa.log2 + (2 * (bits + 1) - (x.mantissa.log2 + 1))) :=
        Nat.pow_le_pow_right (by decide) (by omega)
    _ = 2 ^ x.mantissa.log2 * 2 ^ (2 * (bits + 1) - (x.mantissa.log2 + 1)) := pow_add _ _ _
    _ ≤ _ := by
        gcongr
        · exact Nat.log2_self_le some
        · decide
        · split <;> omega

theorem sqrt_value (width : Nat) (x : Scaled) :
    √x.value = √(x.spreadForRoot width).mantissa * 2 ^ ((x.spreadForRoot width).exponent / 2) := by
  rw [← value_spreadForRoot width, value, Real.sqrt_mul (Nat.cast_nonneg _)]
  congr 1
  conv_lhs => rw [even_spreadForRoot, two_mul, zpow_add₀ two_ne_zero]
  exact Real.sqrt_mul_self (by positivity)

theorem within_natSqrt (hn : 2 ^ bits * 2 ^ bits ≤ n) : Within (slack bits) (n.sqrt : ℝ) √n where
  le := Real.nat_sqrt_le_real_sqrt
  le_mul := Real.real_sqrt_lt_nat_sqrt_succ.le.trans
    (succ_le_mul_slack (Nat.le_sqrt.mpr hn))

theorem within_natSqrt_succ (hn : 2 ^ bits * 2 ^ bits ≤ n) :
    Within (slack bits) √n (n.sqrt + 1 : ℝ) where
  le := Real.real_sqrt_lt_nat_sqrt_succ.le
  le_mul := (succ_le_mul_slack (Nat.le_sqrt.mpr hn)).trans
    (mul_le_mul_of_nonneg_right Real.nat_sqrt_le_real_sqrt slack_nonneg)

theorem within_rootFloor (bits : Nat) (pos : 0 < x.value) :
    Within (slack bits) (x.rootFloor (bits + 1)).value √x.value := by
  have long := le_spreadForRoot bits (value_pos_iff.mp pos)
  rw [sqrt_value (bits + 1), rootFloor, value]
  dsimp only
  rw [integerRoot_eq_sqrt (lt_four_pow _)]
  exact (within_natSqrt long).mul_right (by positivity)

theorem within_rootCeil (bits : Nat) (pos : 0 < x.value) :
    Within (slack bits) √x.value (x.rootCeil (bits + 1)).value := by
  have long := le_spreadForRoot bits (value_pos_iff.mp pos)
  rw [sqrt_value (bits + 1), rootCeil, value]
  dsimp only
  rw [integerRoot_eq_sqrt (lt_four_pow _)]
  refine Within.mul_right (by positivity) ?_
  generalize (x.spreadForRoot (bits + 1)).mantissa = n at long ⊢
  split
  · rename_i square
    have root : √(n : ℝ) = n.sqrt := by
      conv_lhs => rw [← square, Nat.cast_mul]
      exact Real.sqrt_mul_self (Nat.cast_nonneg _)
    rw [root]
    exact .refl one_le_slack (Nat.cast_nonneg _)
  · exact_mod_cast within_natSqrt_succ long

end Root

end Scaled

/-! ## Enclosures -/

namespace Enclosure

variable {bits n k l : Nat} {e f : Enclosure} {p q : ℝ}

open Scaled

/-- The bounds of a positive number are apart from it by so many roundings. -/
structure Holds (bits : Nat) (e : Enclosure) (p : ℝ) (k : Nat) : Prop where
  pos : 0 < p
  lower : Within (slack bits ^ k) e.lower.value p
  upper : Within (slack bits ^ k) p e.upper.value

theorem slack_pow_nonneg (bits k : Nat) : 0 ≤ slack bits ^ k :=
  pow_nonneg slack_nonneg k

theorem Holds.lower_pos (h : e.Holds bits p k) : 0 < e.lower.value :=
  h.lower.left_pos (slack_pow_nonneg bits k) h.pos

theorem Holds.upper_pos (h : e.Holds bits p k) : 0 < e.upper.value :=
  h.pos.trans_le h.upper.le

theorem holds_exact (bits : Nat) {x : Scaled} (pos : 0 < x.value) :
    (exact x).Holds bits x.value 0 where
  pos := pos
  lower := .refl (pow_zero _).ge pos.le
  upper := .refl (pow_zero _).ge pos.le

theorem Holds.mono (h : e.Holds bits p k) (hkl : k ≤ l) : e.Holds bits p l where
  pos := h.pos
  lower := h.lower.mono (pow_le_pow_right₀ one_le_slack hkl) h.lower_pos.le
  upper := h.upper.mono (pow_le_pow_right₀ one_le_slack hkl) h.pos.le

theorem Holds.mul (h : e.Holds bits p k) (h' : f.Holds bits q l) :
    (e.mul (bits + 1) f).Holds bits (p * q) (k + l + 1) where
  pos := mul_pos h.pos h'.pos
  lower := by
    have product := h.lower.mul h.lower_pos.le h'.lower_pos.le h'.lower
    rw [← value_mul] at product
    have rounded := within_floorTo bits (x := e.lower.mul f.lower)
      (by rw [value_mul]; exact mul_pos h.lower_pos h'.lower_pos)
    have close := rounded.trans
      (mul_nonneg (slack_pow_nonneg bits k) (slack_pow_nonneg bits l)) product
    rwa [← pow_add, ← pow_succ'] at close
  upper := by
    have product := h.upper.mul h.pos.le h'.pos.le h'.upper
    rw [← value_mul] at product
    have rounded := within_ceilTo bits (x := e.upper.mul f.upper)
      (by rw [value_mul]; exact mul_pos h.upper_pos h'.upper_pos)
    have close := product.trans slack_nonneg rounded
    rwa [← pow_add, ← pow_succ] at close

theorem sqrt_slack_pow_le (bits k : Nat) : √(slack bits ^ k) ≤ slack bits ^ k :=
  Real.sqrt_le_iff.mpr
    ⟨slack_pow_nonneg bits k, le_self_pow₀ (one_le_pow₀ one_le_slack) two_ne_zero⟩

theorem Holds.root (h : e.Holds bits p k) : (e.root (bits + 1)).Holds bits √p (k + 2) where
  pos := Real.sqrt_pos.mpr h.pos
  lower := by
    have root := (h.lower.sqrt h.lower_pos.le).mono (sqrt_slack_pow_le bits k) (Real.sqrt_nonneg _)
    have below := within_rootFloor bits h.lower_pos
    have rounded := within_floorTo bits
      (below.left_pos slack_nonneg (Real.sqrt_pos.mpr h.lower_pos))
    have close := (rounded.trans slack_nonneg below).trans (slack_pow_nonneg bits k) root
    rwa [← pow_two, ← pow_add, add_comm] at close
  upper := by
    have root := (h.upper.sqrt h.pos.le).mono (sqrt_slack_pow_le bits k) (Real.sqrt_nonneg _)
    have above := within_rootCeil bits h.upper_pos
    have rounded := within_ceilTo bits
      ((Real.sqrt_pos.mpr h.upper_pos).trans_le above.le)
    have close := root.trans (mul_nonneg slack_nonneg slack_nonneg)
      (above.trans slack_nonneg rounded)
    rwa [← pow_two, ← pow_add] at close

/-! ## Powers -/

/-- Each place of the exponent squares the power so far, which doubles what it is off. -/
theorem Holds.powNat {bits : Nat} (h : e.Holds bits p 0) {places : Nat} (hn : n < 2 ^ places) :
    (e.powNat (bits + 1) places n).Holds bits (p ^ n) (2 ^ (places + 1) - 2) := by
  induction places generalizing n with
  | zero =>
      rw [pow_zero, Nat.lt_one_iff] at hn
      subst hn
      rw [pow_zero, ← value_one]
      exact holds_exact bits (by rw [value_one]; exact one_pos)
  | succ places ih =>
      have half := ih (n := n / 2) (by rw [pow_succ] at hn; omega)
      have square := half.mul half
      have two : 2 ≤ 2 ^ (places + 1) := Nat.le_self_pow (Nat.succ_ne_zero places) 2
      unfold Enclosure.powNat
      dsimp only
      split
      · rename_i odd
        have power := square.mul h
        have exponent : p ^ n = p ^ (n / 2) * p ^ (n / 2) * p := by
          rw [← pow_add, ← pow_succ]
          congr 1
          omega
        rw [exponent]
        exact power.mono (by rw [pow_succ 2 (places + 1)]; omega)
      · have exponent : p ^ n = p ^ (n / 2) * p ^ (n / 2) := by
          rw [← pow_add]
          congr 1
          omega
        rw [exponent]
        exact square.mono (by rw [pow_succ 2 (places + 1)]; omega)

/-- The exponent of a fraction, told by its first binary place. -/
theorem rpow_fraction {b : ℝ} (hb : 0 < b) (places n : Nat) :
    b ^ ((n % 2 ^ (places + 1) : Nat) / 2 ^ (places + 1) : ℝ) =
      (if n >>> places % 2 = 1 then √b else 1) *
        √b ^ ((n % 2 ^ places : Nat) / 2 ^ places : ℝ) := by
  have rest : √b ^ ((n % 2 ^ places : Nat) / 2 ^ places : ℝ) =
      b ^ ((n % 2 ^ places : Nat) / 2 ^ (places + 1) : ℝ) := by
    rw [Real.sqrt_eq_rpow, ← Real.rpow_mul hb.le]
    congr 1
    rw [pow_succ]
    field_simp
  rw [rest, Nat.shiftRight_eq_div_pow, pow_succ 2 places, Nat.mod_mul]
  rcases Nat.mod_two_eq_zero_or_one (n / 2 ^ places) with zero | one
  · simp [zero, pow_succ]
  · rw [one, if_pos rfl, Real.sqrt_eq_rpow, ← Real.rpow_add hb]
    congr 1
    push_cast
    rw [pow_succ]
    field_simp
    ring

/-- Each place of the fraction takes a root, and adds what that root is off. -/
theorem Holds.powFraction (he : e.Holds bits p k) (hf : f.Holds bits q l) (places n : Nat) :
    (Enclosure.powFraction (bits + 1) e f places n).Holds bits
      (p * q ^ ((n % 2 ^ places : Nat) / 2 ^ places : ℝ)) (k + places * (l + 2 * places + 1)) := by
  induction places generalizing e f p q k l with
  | zero => simpa [Enclosure.powFraction, Nat.mod_one] using he
  | succ places ih =>
      have root := hf.root
      rw [rpow_fraction hf.pos, ← mul_assoc]
      unfold Enclosure.powFraction
      dsimp only
      split
      · refine (ih (he.mul root) root).mono ?_
        ring_nf
        omega
      · rw [mul_one]
        refine (ih he root).mono ?_
        ring_nf
        omega

section Power

variable {base exponent : Magnitude}

theorem value_exact (m : Magnitude) : Scaled.value ⟨m.mantissa, m.exponent⟩ = (m.toRat : ℝ) := by
  rw [value, Magnitude.toRat_eq]
  push_cast
  rfl

theorem digits_le (n : Nat) : 2 ^ (n.log2 + 1 + 1) - 2 ≤ 4 * n + 2 := by
  rcases Nat.eq_zero_or_pos n with rfl | pos
  · decide
  · have low := Nat.log2_self_le pos.ne'
    rw [pow_succ, pow_succ]
    omega

/-- The whole part and the binary places of an exponent. -/
theorem toRat_eq_truncate_add {m : Magnitude} (he : m.exponent < 0) :
    (m.toRat : ℝ) = m.truncate +
      (m.mantissa % 2 ^ (-m.exponent).toNat : Nat) / 2 ^ (-m.exponent).toNat := by
  rw [Magnitude.toRat, Magnitude.truncate, if_neg he.not_ge, if_neg he.not_ge, Rat.mkRat_eq_div,
    Nat.one_shiftLeft, Nat.shiftRight_eq_div_pow]
  generalize (-m.exponent).toNat = places
  have whole := Nat.div_add_mod m.mantissa (2 ^ places)
  push_cast
  rw [div_eq_iff (by positivity), add_mul, div_mul_cancel₀ _ (by positivity),
    mul_comm _ (2 ^ places : ℝ)]
  exact_mod_cast whole.symm

/-- The power is enclosed, and closely unless the exponent is huge. -/
theorem holds_power (hb : base.mantissa ≠ 0) :
    (power (bits + 1) base exponent).Holds bits ((base.toRat : ℝ) ^ (exponent.toRat : ℝ))
      (4 * exponent.truncate + 2 ^ 22) := by
  have pos : 0 < Scaled.value ⟨base.mantissa, base.exponent⟩ := value_pos_iff.mpr hb
  have held := holds_exact bits pos
  have whole := (held.powNat (Nat.lt_log2_self (n := exponent.truncate))).mono (digits_le _)
  rw [value_exact] at pos held whole
  unfold power
  dsimp only
  split
  · rename_i he
    have value : exponent.toRat = exponent.truncate :=
      Magnitude.toRat_of_isIntegral (Magnitude.isIntegral_of_nonneg he)
    rw [value, Rat.cast_natCast, Real.rpow_natCast]
    exact whole.mono (by omega)
  · rename_i he
    rw [not_le] at he
    obtain ⟨places, hp⟩ : ∃ places, places = (-exponent.exponent).toNat := ⟨_, rfl⟩
    have few : places ≤ 1074 := by
      have := exponent.canonical.2.1
      omega
    rw [toRat_eq_truncate_add he, Real.rpow_add pos, Real.rpow_natCast, ← hp]
    rw [Nat.one_shiftLeft]
    have most : places * (0 + 2 * places + 1) ≤ 1074 * (0 + 2 * 1074 + 1) := by gcongr
    have power := whole.powFraction held places (exponent.mantissa % 2 ^ places)
    rw [Nat.mod_mod] at power
    exact power.mono (by omega)

end Power

/-! ## Powers of one -/

theorem mul_unit (bits i j k l : Nat) : ∃ i' j',
    Enclosure.mul (bits + 1) ⟨unit i, unit j⟩ ⟨unit k, unit l⟩ = ⟨unit i', unit j'⟩ := by
  rw [Enclosure.mul, unit_mul, unit_mul, floorTo_unit, ceilTo_unit]
  exact ⟨_, _, rfl⟩

/-- The bounds of a natural power of one are one, whatever the exponent. -/
theorem powNat_unit (bits a b places n : Nat) : ∃ i j,
    Enclosure.powNat (bits + 1) ⟨unit a, unit b⟩ places n = ⟨unit i, unit j⟩ := by
  induction places generalizing n with
  | zero => exact ⟨0, 0, rfl⟩
  | succ places ih =>
      obtain ⟨i, j, half⟩ := ih (n / 2)
      obtain ⟨i', j', square⟩ := mul_unit bits i j i j
      unfold Enclosure.powNat
      dsimp only
      rw [half, square]
      split
      · exact mul_unit bits i' j' a b
      · exact ⟨i', j', rfl⟩

theorem holds_unit (bits i j : Nat) : (⟨unit i, unit j⟩ : Enclosure).Holds bits 1 0 where
  pos := one_pos
  lower := by
    rw [value_unit]
    exact .refl (pow_zero _).ge zero_le_one
  upper := by
    rw [value_unit]
    exact .refl (pow_zero _).ge zero_le_one

theorem holds_power_one (bits : Nat) {exponent : Magnitude} (whole : 0 ≤ exponent.exponent) :
    (power (bits + 1) .one exponent).Holds bits 1 0 := by
  obtain ⟨i, j, one⟩ := powNat_unit bits 52 52 (exponent.truncate.log2 + 1)
    exponent.truncate
  have power_eq : power (bits + 1) .one exponent = ⟨unit i, unit j⟩ := by
    rw [← one, power, if_pos whole]
    rfl
  rw [power_eq]
  exact holds_unit bits i j

end Enclosure
end OperatorDispatch
