import OperatorDispatch.Proofs.Verdicts

/-!
# Numbers and what tokens answer for them

A finite number has a value (`Primitive.HasValue`), and beside a double it is taken
as a double (`Primitive.double?`), which is off that value by half a unit of the last
of 53 bits (`HasValue.near`).  An integer too large for a double is the only number
that is not taken as one.

What a token answers two primitives depends on nothing else: not on the state, not on
the settings (`Primitive.Answers`).
-/

namespace OperatorDispatch

namespace Double

variable {x : Double} {v : ℚ}

theorem exists_finite_of_toRat? (h : x.toRat? = some v) : ∃ s m, x = .finite s m := by
  cases x with
  | nan | infinity => cases h
  | finite s m => exact ⟨s, m, rfl⟩

theorem abs_toRat? {s : Bool} {m : Magnitude} (h : (finite s m).toRat? = some v) :
    |v| = m.toRat := by
  cases h
  cases s <;> simp [abs_of_nonneg m.toRat_nonneg]

theorem sign_eq {s : Bool} {m : Magnitude} (h : (finite s m).toRat? = some v) (some : v ≠ 0) :
    s = decide (v < 0) := by
  have size := m.toRat_nonneg
  cases h
  cases s with
  | false => simp [size]
  | true => simpa using lt_of_le_of_ne size (by simpa [eq_comm] using some)

end Double

namespace Numeral

/-- The value of a finite number. -/
def toRat? : Numeral → Option ℚ
  | .integer n => some n
  | .double x => x.toRat?

theorem isNegative_double {d : Double} {a : ℚ} (h : d.toRat? = some a) :
    (Numeral.double d).isNegative = decide (a < 0) := by
  cases d with
  | nan | infinity => cases h
  | finite s m =>
      have size := m.toRat_nonneg
      have zero := Magnitude.toRat_eq_zero_iff (m := m)
      cases s with
      | false =>
          cases h
          simp [isNegative, signBit, Double.negative, size]
      | true =>
          cases h
          rw [Bool.eq_iff_iff, decide_eq_true_iff, if_pos rfl, neg_lt_zero, size.lt_iff_ne']
          simp [isNegative, signBit, isZero, Double.negative, Double.isZero, zero]

end Numeral

/-! ## Nearness -/

section Near

variable {a' a : ℚ}

/-- One value is off another by half a unit of the last of 53 bits at most. -/
def Near (a' a : ℚ) : Prop := |a' - a| ≤ 2 ^ (-53 : Int) * |a|

theorem Near.refl (a : ℚ) : Near a a := by
  rw [Near, sub_self, abs_zero]
  positivity

theorem Near.bounds (h : Near a' a) :
    (1 - 2 ^ (-53 : Int)) * |a| ≤ |a'| ∧ |a'| ≤ (1 + 2 ^ (-53 : Int)) * |a| := by
  have low := abs_sub_abs_le_abs_sub a a'
  have high := abs_sub_abs_le_abs_sub a' a
  rw [abs_sub_comm a a'] at low
  rw [Near] at h
  constructor <;> linarith

/-- What is near a value has its sign. -/
theorem Near.neg_iff (h : Near a' a) : a' < 0 ↔ a < 0 := by
  have small : (2 : ℚ) ^ (-53 : Int) < 1 := by norm_num
  rw [Near, abs_le] at h
  obtain ⟨low, high⟩ := h
  constructor
  · intro neg
    by_contra pos
    rw [not_lt] at pos
    rw [abs_of_nonneg pos] at low
    nlinarith
  · intro neg
    rw [abs_of_neg neg] at high
    nlinarith

theorem Near.eq_zero_iff (h : Near a' a) : a' = 0 ↔ a = 0 := by
  obtain ⟨low, high⟩ := h.bounds
  have small : (0 : ℚ) < 1 - 2 ^ (-53 : Int) := by norm_num
  rw [← abs_eq_zero, ← abs_eq_zero (a := a)]
  constructor
  · intro zero
    rw [zero] at low
    exact le_antisymm (nonpos_of_mul_nonpos_right low small) (abs_nonneg a)
  · intro zero
    rw [zero, mul_zero] at high
    exact le_antisymm high (abs_nonneg a')

theorem Near.pos_iff (h : Near a' a) : 0 < a' ↔ 0 < a := by
  rw [← not_le, ← not_le (a := a), le_iff_lt_or_eq, le_iff_lt_or_eq, h.neg_iff, h.eq_zero_iff]

end Near

theorem near_of_ofInt? {n : Int} {d : Double} (h : Double.ofInt? n = some d) :
    ∃ a', d.toRat? = some a' ∧ Near a' n := by
  obtain ⟨m, hm, rfl⟩ := Option.map_eq_some_iff.mp h
  refine ⟨_, rfl, ?_⟩
  have off := Magnitude.abs_toRat_sub_le Nat.one_pos hm
  rw [Nat.cast_one, div_one, Nat.cast_natAbs, Int.cast_abs] at off
  by_cases hn : n = 0
  · subst hn
    cases hm
    simp [Near, Magnitude.toRat_eq, Magnitude.zero]
  have one : (1 : ℚ) ≤ |(n : ℚ)| := by exact_mod_cast Int.one_le_abs hn
  have relative : (2 : ℚ) ^ (-1075 : Int) ≤ 2 ^ (-53 : Int) * |(n : ℚ)| := by
    calc (2 : ℚ) ^ (-1075 : Int) ≤ 2 ^ (-53 : Int) * 1 := by
          rw [mul_one]
          exact zpow_le_zpow_right₀ one_le_two (by decide)
      _ ≤ _ := by gcongr
  rw [max_eq_left relative] at off
  rw [Near]
  refine le_trans (le_of_eq ?_) off
  rcases lt_or_ge n 0 with neg | pos
  · have cast : (n : ℚ) < 0 := by exact_mod_cast neg
    rw [decide_eq_true neg, if_pos rfl, abs_of_neg cast, ← abs_neg, neg_sub, sub_neg_eq_add,
      add_comm, sub_neg_eq_add]
  · have cast : (0 : ℚ) ≤ n := by exact_mod_cast pos
    rw [decide_eq_false pos.not_gt, if_neg Bool.false_ne_true, abs_of_nonneg cast]

namespace Primitive

variable {p q r : Primitive} {a b : ℚ} {x : Numeral}

/-! ## Values -/

/-- The value of a finite number. -/
inductive HasValue : Primitive → ℚ → Prop
  | boolean (b : Bool) : HasValue (.boolean b) (if b then 1 else 0)
  | integer (n : Int) : HasValue (.integer n) n
  | double {x : Double} {a : ℚ} (value : x.toRat? = some a) : HasValue (.double x) a

theorem HasValue.toRat? (h : p.HasValue a) (hx : p.numeral? = some x) : x.toRat? = some a := by
  cases h with
  | boolean b =>
      cases hx
      cases b <;> simp [Numeral.toRat?]
  | integer n =>
      cases hx
      rfl
  | double value =>
      cases hx
      exact value

theorem HasValue.exists_numeral (h : p.HasValue a) : ∃ x, p.numeral? = some x := by
  cases h <;> exact ⟨_, rfl⟩

theorem HasValue.isNumeric (h : p.HasValue a) : p.IsNumeric :=
  Native.isNumeric_iff.mpr h.exists_numeral

/-- An integer, or a boolean counted as one. -/
inductive IsInteger : Primitive → Int → Prop
  | boolean (b : Bool) : IsInteger (.boolean b) (if b then 1 else 0)
  | integer (n : Int) : IsInteger (.integer n) n

theorem isInteger_iff {n : Int} : p.IsInteger n ↔ p.numeral? = some (.integer n) := by
  constructor
  · rintro (_ | _) <;> rfl
  · intro h
    cases p with
    | null | text | double => cases h
    | boolean b =>
        cases h
        exact .boolean b
    | integer n =>
        cases h
        exact .integer n

theorem IsInteger.hasValue {n : Int} (h : p.IsInteger n) : p.HasValue n := by
  cases h with
  | boolean b =>
      have value := HasValue.boolean b
      cases b <;> simpa using value
  | integer n => exact .integer n

theorem HasValue.isZero_iff (h : p.HasValue a) : p.IsZero ↔ a = 0 := by
  obtain ⟨x, hx⟩ := h.exists_numeral
  have value := h.toRat? hx
  rw [Native.isZero_iff hx]
  cases x with
  | integer n =>
      cases value
      simp [Numeral.isZero]
  | double d =>
      rw [Numeral.isZero, ← Double.toRat?_eq_zero_iff]
      rw [Numeral.toRat?] at value
      rw [value, Option.some_inj]

/-- The double that a number is taken as beside a double. -/
def double? (p : Primitive) : Option Double := p.numeral?.bind Numeral.toDouble?

theorem double?_of_numeral? (hx : p.numeral? = some x) : p.double? = x.toDouble? := by
  rw [double?, hx, Option.bind_some]

theorem double?_eq_none_iff (numeric : p.IsNumeric) : p.double? = none ↔ p.Oversized := by
  obtain ⟨x, hx⟩ := Native.isNumeric_iff.mp numeric
  rw [double?_of_numeral? hx, Native.oversized_iff hx]

/-- A number is near the double that it is taken as, and a double is taken as it is. -/
theorem HasValue.near (h : p.HasValue a) {d : Double} (hd : p.double? = some d) :
    ∃ a', d.toRat? = some a' ∧ Near a' a ∧ (p.IsDouble → a' = a) := by
  cases h with
  | double exact =>
      cases hd
      exact ⟨a, exact, .refl a, fun _ => rfl⟩
  | boolean b =>
      obtain ⟨a', value, near⟩ := near_of_ofInt? (n := if b then 1 else 0) hd
      exact ⟨a', value, by cases b <;> simpa using near, by rintro ⟨_, ⟨⟩⟩⟩
  | integer n =>
      obtain ⟨a', value, near⟩ := near_of_ofInt? hd
      exact ⟨a', value, near, by rintro ⟨_, ⟨⟩⟩⟩

/-- The value of the double that a number is taken as. -/
def TakenAs (p : Primitive) (a : ℚ) : Prop := ∃ d, p.double? = some d ∧ d.toRat? = some a

theorem HasValue.exists_takenAs (h : p.HasValue a) (small : ¬ p.Oversized) :
    ∃ d a', p.double? = some d ∧ d.toRat? = some a' ∧ Near a' a ∧ (p.IsDouble → a' = a) := by
  obtain ⟨d, hd⟩ := Option.ne_none_iff_exists'.mp (mt (double?_eq_none_iff h.isNumeric).mp small)
  obtain ⟨a', near⟩ := h.near hd
  exact ⟨d, a', hd, near⟩

/-- Less than zero, as the comparisons tell it. -/
def negative (p : Primitive) : Bool := p.numeral?.any Numeral.isNegative

theorem HasValue.negative_eq (h : p.HasValue a) : p.negative = decide (a < 0) := by
  obtain ⟨x, hx⟩ := h.exists_numeral
  have value := h.toRat? hx
  rw [negative, hx, Option.any_some]
  cases x with
  | integer n =>
      cases value
      simp [Numeral.isNegative, Numeral.signBit, Numeral.isZero]
      omega
  | double d => exact Numeral.isNegative_double value

/-! ## Answers -/

/-- A token answers two primitives with a third, natively, in every reachable state
and under any settings. -/
def Answers (literal : String) (p q r : Primitive) : Prop :=
  ∀ s : State, Reachable s → ∀ settings : Settings,
    s.EndsAtOnce settings (.binary literal (.primitive p) (.primitive q))
      (.ok (.primitive r, .native))

/-- A token does not give two answers. -/
theorem answers_unique {literal : String} {r' : Primitive} (h : Answers literal p q r)
    (h' : Answers literal p q r') : r = r' := by
  have free := State.unopposed_of_quiet .initial Collector.admitsDispatches_standard .standard
  obtain ⟨t, served⟩ := (h _ .initial .standard).serve_eq free fun _ _ => throw .exhausted
  obtain ⟨t', served'⟩ := (h' _ .initial .standard).serve_eq free fun _ _ => throw .exhausted
  cases served.symm.trans served'
  rfl

/-- A token of the language answers what its native operation gives. -/
theorem answers_native (sel : Selector) {literal : String}
    (found : ∃ o, OperatorTables.standard.find? .binary literal = some o ∧ o.selector = sel)
    (category : sel.category ≠ .equality)
    (given : Native.binary sel p q = .ok r) : Answers literal p q r := by
  obtain ⟨o, found, rfl⟩ := found
  intro s hs settings
  have ends := Action.endsAtOnce_native (hs.find?_operators found) category settings p q
  rwa [given] at ends

end Primitive
end OperatorDispatch
