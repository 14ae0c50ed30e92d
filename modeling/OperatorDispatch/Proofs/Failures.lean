import OperatorDispatch.Proofs.Words

/-!
# When an operation on two primitives fails

The operands alone tell how a native operation ends.  They are of kinds that it
does not take (`Selector.Mismatched`), or it fails on operands of the right kinds
(`Native.Fails`), or there is a value; and no two of these are the case.

What is said of the operands here does not look at how the operations go about
it: a number is too large for a double from half a unit above the largest one on,
and a remainder fails in the one case that no rounding and no check before it
takes care of.  `judged` goes through the operations once and shows that their
faults are the ones described.
-/

namespace OperatorDispatch

/-! ## Operands -/

namespace Primitive

/-- A boolean counts as a number. -/
def IsNumeric (p : Primitive) : Prop := p.kind = .number ∨ p.kind = .boolean

def IsText (p : Primitive) : Prop := p.kind = .string

def IsDouble (p : Primitive) : Prop := ∃ x, p = .double x

/-- An integer, a boolean or a whole double. -/
def IsWhole (p : Primitive) : Prop := ∃ n, p.StandsFor n

/-- An integer that is rounded beyond the largest double. -/
def Oversized (p : Primitive) : Prop := ∃ n, p = .integer n ∧ Magnitude.overflowBound ≤ n.natAbs

/-- An integer with more digits than a text may hold. -/
def Overlong (p : Primitive) : Prop := ∃ n, p = .integer n ∧ 10 ^ digitLimit ≤ n.natAbs

def IsInfinite (p : Primitive) : Prop := ∃ negative, p = .double (.infinity negative)

def IsNaN (p : Primitive) : Prop := p = .double .nan

/-- Zero as an integer, a boolean or a double of either sign. -/
def IsZero (p : Primitive) : Prop := p.StandsFor 0

variable {p : Primitive}

theorem IsDouble.isNumeric (h : p.IsDouble) : p.IsNumeric := by
  obtain ⟨x, rfl⟩ := h
  exact .inl rfl

theorem Oversized.isNumeric (h : p.Oversized) : p.IsNumeric := by
  obtain ⟨n, rfl, -⟩ := h
  exact .inl rfl

theorem Overlong.isNumeric (h : p.Overlong) : p.IsNumeric := by
  obtain ⟨n, rfl, -⟩ := h
  exact .inl rfl

theorem IsNumeric.not_isText (h : p.IsNumeric) : ¬ p.IsText := by
  intro text
  rw [IsText] at text
  rw [IsNumeric, text] at h
  rcases h with h | h <;> cases h

theorem isNumeric_of_pair {q : Primitive}
    (pair : p.IsDouble ∧ q.Oversized ∨ p.Oversized ∧ q.IsDouble) :
    p.IsNumeric ∧ q.IsNumeric := by
  rcases pair with ⟨left, right⟩ | ⟨left, right⟩
  · exact ⟨left.isNumeric, right.isNumeric⟩
  · exact ⟨left.isNumeric, right.isNumeric⟩

end Primitive

/-- The operands are of kinds that the operation does not take. -/
def Selector.Mismatched (sel : Selector) (p q : Primitive) : Prop :=
  match sel.category with
  | .relational => ¬ (p.IsNumeric ∧ q.IsNumeric) ∧ ¬ (p.IsText ∧ q.IsText)
  | .arithmeticBinary =>
    ¬ (p.IsNumeric ∧ q.IsNumeric) ∧ ¬ (sel = .add ∧ (p.IsText ∨ q.IsText))
  | .bitwiseBinary | .shift => ¬ (p.IsWhole ∧ q.IsWhole)
  | .equality | .unaryArithmetic | .bitwiseUnary => False

/-- The operations that are exact on integers and need a double of each operand
otherwise. -/
def Native.sums : List Selector := [.add, .subtract, .multiply]

/-- How a native operation fails on operands of the right kinds. -/
inductive Native.Fails (sel : Selector) (p q : Primitive) : NativeFault → Prop
  /-- A double meets an integer that has no double. -/
  | tooLarge (sum : sel ∈ sums)
      (pair : p.IsDouble ∧ q.Oversized ∨ p.Oversized ∧ q.IsDouble) : Fails sel p q .integerTooLarge
  /-- An infinite dividend has no remainder.  The divisors for which this is not
  found out are answered before. -/
  | infinite (remainder : sel = .modulus) (dividend : p.IsInfinite) (divisor : q.IsNumeric)
      (nonzero : ¬ q.IsZero) (number : ¬ q.IsNaN) (small : ¬ q.Oversized) :
      Fails sel p q .infiniteDividend
  /-- A text is joined to an integer that cannot be written. -/
  | tooLong (sum : sel = .add) (pair : p.IsText ∧ q.Overlong ∨ p.Overlong ∧ q.IsText) :
      Fails sel p q .tooManyDigits
  /-- The selector is for one operand. -/
  | arity (unary : sel.isUnary = true) : Fails sel p q (.noOperation sel)

namespace Native

variable {sel : Selector} {p q : Primitive} {x y : Numeral} {fault : NativeFault}

/-! ## Operands as numbers -/

theorem isNumeric_iff : p.IsNumeric ↔ ∃ x, p.numeral? = some x := by
  cases p <;> simp [Primitive.IsNumeric, Primitive.kind, Primitive.numeral?]

theorem not_isText_of_numeral? (h : p.numeral? = some x) : ¬ p.IsText :=
  (isNumeric_iff.mpr ⟨x, h⟩).not_isText

theorem isDouble_iff (h : p.numeral? = some x) : p.IsDouble ↔ ∃ d, x = .double d := by
  cases p <;> simp_all [Primitive.IsDouble, Primitive.numeral?] <;> simp [← h]

theorem isInfinite_iff (h : p.numeral? = some x) :
    p.IsInfinite ↔ ∃ negative, x = .double (.infinity negative) := by
  cases p <;> simp_all [Primitive.IsInfinite, Primitive.numeral?] <;> simp [← h]

theorem isNaN_iff (h : p.numeral? = some x) : p.IsNaN ↔ x = .double .nan := by
  cases p <;> simp_all [Primitive.IsNaN, Primitive.numeral?] <;> simp [← h]

theorem oversized_iff (h : p.numeral? = some x) : p.Oversized ↔ x.toDouble? = none := by
  cases p with
  | null | text => cases h
  | boolean b =>
      cases h
      cases b <;> simp [Primitive.Oversized, Numeral.toDouble?] <;> decide
  | integer n =>
      cases h
      simp [Primitive.Oversized, Numeral.toDouble?, Double.ofInt?_eq_none_iff]
  | double d =>
      cases h
      simp [Primitive.Oversized, Numeral.toDouble?]

theorem isZero_iff (h : p.numeral? = some x) : p.IsZero ↔ x.isZero = true := by
  cases p with
  | null | text => cases h
  | boolean b =>
      cases h
      cases b <;> simp [Primitive.IsZero, ← whole_eq_ok_iff, whole, Primitive.numeral?,
        Numeral.isZero]
  | integer n =>
      cases h
      simp [Primitive.IsZero, ← whole_eq_ok_iff, whole, Primitive.numeral?, Numeral.isZero]
  | double d =>
      cases h
      rw [Numeral.isZero, ← Double.toRat?_eq_zero_iff]
      constructor
      · rintro ⟨⟩
        assumption
      · intro value
        exact .double value

/-! ## What each operation refuses -/

theorem compute_eq_error_iff {onIntegers : Int → Int → Int}
    {onDoubles : Double → Double → Double} :
    compute onIntegers onDoubles x y = .error fault ↔
      fault = .integerTooLarge ∧
        ((∃ d, x = .double d) ∧ y.toDouble? = none ∨ x.toDouble? = none ∧ ∃ d, y = .double d) := by
  cases x with
  | integer m =>
      cases y with
      | integer n => simp [compute]
      | double e =>
          cases h : Double.ofInt? m <;>
            simp [compute, doubles?, Numeral.toDouble?, h, eq_comm]
  | double d =>
      cases y with
      | integer n =>
          cases h : Double.ofInt? n <;>
            simp [compute, doubles?, Numeral.toDouble?, h, eq_comm]
      | double e => simp [compute, doubles?, Numeral.toDouble?]

/-- The double of a number is zero, infinite or not-a-number where the number
is. -/
theorem alike_toDouble? {d : Double} (h : x.toDouble? = some d) :
    d.isZero = x.isZero ∧ (∀ negative, d = .infinity negative ↔ x = .double (.infinity negative)) ∧
      (d = .nan ↔ x = .double .nan) := by
  cases x with
  | integer n =>
      obtain ⟨m, rfl, nonzero⟩ := Double.exists_of_ofInt? h
      refine ⟨?_, by simp, by simp⟩
      by_cases hn : n = 0
      · subst hn
        cases h
        rfl
      · simp [Double.isZero, Numeral.isZero, hn, nonzero hn]
  | double e =>
      cases h
      simp [Numeral.isZero]

theorem remainder?_eq_none_iff {d e : Double} (he : e.isZero = false) :
    d.remainder? e = none ↔ (∃ negative, d = .infinity negative) ∧ e ≠ .nan := by
  cases d <;> cases e <;> simp_all [Double.remainder?, Double.isZero]

/-- The remainder of two numbers of which one is a double. -/
theorem remainder_doubles (h : (∃ d, x = .double d) ∨ ∃ d, y = .double d) :
    remainder x y =
      if y.isZero then .ok (.double .nan)
      else match doubles? x y with
        | none => .ok (.double .nan)
        | some (d, e) =>
          match d.remainder? e with
          | some r => .ok (.double r)
          | none => .error .infiniteDividend := by
  rcases h with ⟨d, rfl⟩ | ⟨d, rfl⟩
  · rfl
  · cases x <;> rfl

theorem remainder_doubles_eq_error_iff (h : (∃ d, x = .double d) ∨ ∃ d, y = .double d) :
    remainder x y = .error fault ↔ fault = .infiniteDividend ∧ y.isZero = false ∧
      ∃ d e, x.toDouble? = some d ∧ y.toDouble? = some e ∧ d.remainder? e = none := by
  rw [remainder_doubles h]
  cases y.isZero with
  | true => simp
  | false =>
      cases hx : x.toDouble? with
      | none => simp [doubles?, hx]
      | some d =>
          cases hy : y.toDouble? with
          | none => simp [doubles?, hy]
          | some e => cases hr : d.remainder? e <;> simp [doubles?, hx, hy, hr, eq_comm]

theorem remainder_eq_error_iff :
    remainder x y = .error fault ↔
      fault = .infiniteDividend ∧ (∃ negative, x = .double (.infinity negative)) ∧
        y.isZero = false ∧ y ≠ .double .nan ∧ y.toDouble? ≠ none := by
  by_cases h : (∃ d, x = .double d) ∨ ∃ d, y = .double d
  · rw [remainder_doubles_eq_error_iff h]
    constructor
    · rintro ⟨rfl, zero, d, e, hx, hy, hr⟩
      obtain ⟨-, isInfinite, -⟩ := alike_toDouble? hx
      obtain ⟨isZero, -, isNaN⟩ := alike_toDouble? hy
      obtain ⟨⟨negative, infinite⟩, number⟩ :=
        (remainder?_eq_none_iff (isZero.trans zero)).mp hr
      exact ⟨rfl, ⟨negative, (isInfinite negative).mp infinite⟩, zero, mt isNaN.mpr number,
        by simp [hy]⟩
    · rintro ⟨rfl, ⟨negative, rfl⟩, zero, number, small⟩
      obtain ⟨e, hy⟩ := Option.ne_none_iff_exists'.mp small
      obtain ⟨isZero, -, isNaN⟩ := alike_toDouble? hy
      exact ⟨rfl, zero, .infinity negative, e, rfl, hy,
        (remainder?_eq_none_iff (isZero.trans zero)).mpr
          ⟨⟨negative, rfl⟩, mt isNaN.mp number⟩⟩
  · cases x with
    | double d => exact absurd (.inl ⟨d, rfl⟩) h
    | integer m =>
        cases y with
        | double e => exact absurd (.inr ⟨e, rfl⟩) h
        | integer n =>
            unfold remainder
            split <;> simp

/-- Every whole double can be written. -/
theorem ceiling_le_digitLimit : Magnitude.ceiling ≤ 10 ^ digitLimit := by
  unfold Magnitude.ceiling digitLimit
  calc 2 ^ 1024 ≤ 10 ^ 1024 := by gcongr; decide
    _ ≤ 10 ^ 4300 := by gcongr <;> decide

theorem joinText?_eq_none_iff : p.joinText? = none ↔ p.Overlong := by
  have written (n : Int) : integerText? n = none ↔ 10 ^ digitLimit ≤ n.natAbs := by
    rw [integerText?, ite_eq_right_iff, Nat.pow_eq, ← Nat.not_lt]
    simp
  cases p with
  | null | boolean | text => simp [Primitive.joinText?, Primitive.Overlong]
  | integer n => simp [Primitive.joinText?, Primitive.Overlong, written]
  | double x =>
      simp only [Primitive.joinText?, Primitive.Overlong]
      split
      · rename_i n hn
        have short : n.natAbs < 10 ^ digitLimit :=
          (Double.natAbs_lt_of_toInt? hn).trans_le ceiling_le_digitLimit
        simp [written, short]
      · simp

/-! ## The verdict on an operation -/

theorem category_of_mem_sums : ∀ sel ∈ sums, sel.category = .arithmeticBinary := by
  decide

/-- There are not many selectors under which something fails. -/
theorem Fails.selector (h : Fails sel p q fault) :
    sel ∈ .modulus :: sums ∨ fault = .noOperation sel ∧ sel.isUnary = true := by
  cases h with
  | tooLarge sum => exact .inl (.tail _ sum)
  | infinite remainder => exact .inl (by simp [remainder])
  | tooLong sum => exact .inl (by simp [sum, sums])
  | arity unary => exact .inr ⟨rfl, unary⟩

theorem isUnary_of_mem : ∀ sel ∈ Selector.modulus :: sums, sel.isUnary = false := by
  decide

theorem Fails.not_mismatched (h : Fails sel p q fault) : ¬ sel.Mismatched p q := by
  cases h with
  | tooLarge sum pair =>
      have category := category_of_mem_sums sel sum
      have numeric := Primitive.isNumeric_of_pair pair
      simp [Selector.Mismatched, category, numeric]
  | infinite remainder dividend divisor =>
      obtain ⟨negative, rfl⟩ := dividend
      subst remainder
      exact fun h => h.1 ⟨.inl rfl, divisor⟩
  | tooLong sum pair =>
      subst sum
      exact fun h => h.2 ⟨rfl, pair.imp And.left And.right⟩
  | arity unary =>
      cases sel <;> first | exact id | cases unary

theorem Fails.ne_incompatible (h : Fails sel p q fault) (why : Incompatibility) :
    fault ≠ .incompatible why := by
  cases h <;> nofun

/-- What an operation comes to is what its operands call for. -/
structure Judged (sel : Selector) (p q : Primitive) (result : Except NativeFault Primitive) :
    Prop where
  mismatched : (∃ why, result = .error (.incompatible why)) ↔ sel.Mismatched p q
  fails : ∀ fault, (∀ why, fault ≠ .incompatible why) →
    (result = .error fault ↔ Fails sel p q fault)

theorem judged_mismatched (h : sel.Mismatched p q) (why : Incompatibility) :
    Judged sel p q (.error (.incompatible why)) where
  mismatched := iff_of_true ⟨why, rfl⟩ h
  fails fault other := by
    refine iff_of_false ?_ fun failed => failed.not_mismatched h
    rintro ⟨⟩
    exact other why rfl

theorem judged_matched {result : Except NativeFault Primitive} (h : ¬ sel.Mismatched p q)
    (hr : ∀ fault, result = .error fault ↔ Fails sel p q fault) : Judged sel p q result where
  mismatched := iff_of_false (fun ⟨_, failed⟩ => ((hr _).mp failed).ne_incompatible _ rfl) h
  fails fault _ := hr fault

/-- An operation on numbers is judged by what it makes of numbers. -/
theorem judged_numerals (operation : Numeral → Numeral → Except NativeFault Primitive)
    (category : sel.category = .arithmeticBinary)
    (plain : ¬ (sel = .add ∧ (p.IsText ∨ q.IsText)))
    (computed : ∀ x y, p.numeral? = some x → q.numeral? = some y →
      ∀ fault, operation x y = .error fault ↔ Fails sel p q fault) :
    Judged sel p q (numerals p q >>= fun z => operation z.1 z.2) := by
  by_cases numeric : p.IsNumeric ∧ q.IsNumeric
  · obtain ⟨x, hx⟩ := isNumeric_iff.mp numeric.1
    obtain ⟨y, hy⟩ := isNumeric_iff.mp numeric.2
    have both : numerals p q = .ok (x, y) := by rw [numerals, hx, hy]
    rw [both]
    exact judged_matched (by simp [Selector.Mismatched, category, numeric])
      (computed x y hx hy)
  · have neither : numerals p q = .error (.incompatible .operandsNotNumbers) := by
      rw [isNumeric_iff, isNumeric_iff] at numeric
      unfold numerals
      split
      · rename_i x y hx hy
        exact absurd ⟨⟨x, hx⟩, y, hy⟩ numeric
      · rfl
    rw [neither]
    refine judged_mismatched ?_ _
    simp only [Selector.Mismatched, category]
    exact ⟨numeric, plain⟩

theorem fails_sum_iff (sum : sel ∈ sums)
    (hx : p.numeral? = some x) (hy : q.numeral? = some y) :
    Fails sel p q fault ↔ fault = .integerTooLarge ∧
      ((∃ d, x = .double d) ∧ y.toDouble? = none ∨ x.toDouble? = none ∧ ∃ d, y = .double d) := by
  rw [← isDouble_iff hx, ← isDouble_iff hy, ← oversized_iff hx, ← oversized_iff hy]
  constructor
  · intro h
    cases h with
    | tooLarge sum pair => exact ⟨rfl, pair⟩
    | infinite remainder => simp [remainder, sums] at sum
    | tooLong _ pair =>
        exact absurd (pair.imp And.left And.right)
          (not_or_intro (not_isText_of_numeral? hx) (not_isText_of_numeral? hy))
    | arity unary =>
        rw [isUnary_of_mem sel (.tail _ sum)] at unary
        cases unary
  · rintro ⟨rfl, pair⟩
    exact .tooLarge sum pair

theorem judged_compute {onIntegers : Int → Int → Int} {onDoubles : Double → Double → Double}
    (sum : sel ∈ sums) (plain : ¬ (sel = .add ∧ (p.IsText ∨ q.IsText))) :
    Judged sel p q (numerals p q >>= fun z => compute onIntegers onDoubles z.1 z.2) := by
  refine judged_numerals _ (category_of_mem_sums sel sum) plain fun x y hx hy fault => ?_
  rw [compute_eq_error_iff, fails_sum_iff sum hx hy]

theorem add_of_text (h : p.IsText ∨ q.IsText) : add p q = join p q := by
  unfold add
  split
  · rfl
  · rfl
  · rename_i notLeft notRight
    rcases h with h | h
    · cases p <;> cases h
      exact absurd rfl (notLeft _)
    · cases q <;> cases h
      exact absurd rfl (notRight _)

theorem add_of_numbers (h : ¬ (p.IsText ∨ q.IsText)) :
    add p q = numerals p q >>= fun z => compute (· + ·) Double.add z.1 z.2 := by
  unfold add
  split
  · exact absurd (.inl rfl) h
  · exact absurd (.inr rfl) h
  · rfl

theorem join_eq_error_iff : join p q = .error fault ↔
    fault = .tooManyDigits ∧ (p.Overlong ∨ q.Overlong) := by
  rw [← joinText?_eq_none_iff, ← joinText?_eq_none_iff, join]
  cases p.joinText? <;> cases q.joinText? <;> simp [eq_comm]

theorem judged_add : Judged .add p q (add p q) := by
  by_cases text : p.IsText ∨ q.IsText
  · rw [add_of_text text]
    refine judged_matched (fun h => h.2 ⟨rfl, text⟩) fun fault => ?_
    rw [join_eq_error_iff]
    constructor
    · rintro ⟨rfl, long⟩
      refine .tooLong rfl ?_
      rcases text with text | text
      · exact .inl ⟨text, long.resolve_left fun long => long.isNumeric.not_isText text⟩
      · exact .inr ⟨long.resolve_right fun long => long.isNumeric.not_isText text, text⟩
    · intro failed
      cases failed with
      | tooLong _ pair => exact ⟨rfl, pair.elim (.inr ·.2) (.inl ·.1)⟩
      | tooLarge _ pair =>
          have numeric := Primitive.isNumeric_of_pair pair
          exact absurd text (not_or_intro numeric.1.not_isText numeric.2.not_isText)
      | infinite remainder => cases remainder
      | arity unary => cases unary
  · rw [add_of_numbers text]
    exact judged_compute (by decide) fun h => text h.2

theorem judged_modulus : Judged .modulus p q (modulus p q) := by
  refine judged_numerals remainder rfl (by simp) fun x y hx hy fault => ?_
  rw [remainder_eq_error_iff, ← isInfinite_iff hx]
  constructor
  · rintro ⟨rfl, infinite, nonzero, number, small⟩
    refine .infinite rfl infinite (isNumeric_iff.mpr ⟨y, hy⟩) ?_ ?_ ?_
    · rw [isZero_iff hy, nonzero]
      decide
    · rwa [isNaN_iff hy]
    · rwa [oversized_iff hy]
  · intro h
    cases h with
    | tooLarge sum => simp [sums] at sum
    | infinite remainder dividend divisor nonzero number small =>
        rw [isZero_iff hy, Bool.not_eq_true] at nonzero
        rw [isNaN_iff hy] at number
        rw [oversized_iff hy] at small
        exact ⟨rfl, dividend, nonzero, number, small⟩
    | tooLong sum => cases sum
    | arity unary => cases unary

/-- The selector stands for none of the failures. -/
abbrev Harmless (sel : Selector) : Prop :=
  sel ∉ .modulus :: sums ∧ sel.isUnary = false

theorem not_fails (h : Harmless sel) : ¬ Fails sel p q fault := by
  intro failed
  rcases failed.selector with mem | ⟨-, unary⟩
  · exact h.1 mem
  · rw [h.2] at unary
    cases unary

theorem judged_ok (h : Harmless sel) (matched : ¬ sel.Mismatched p q) (w : Primitive) :
    Judged sel p q (.ok w) :=
  judged_matched matched fun _ => iff_of_false nofun (not_fails h)

theorem judged_total (operation : Numeral → Numeral → Primitive)
    (h : sel ∈ [.divide, .exponent]) :
    Judged sel p q (numerals p q >>= fun z => .ok (operation z.1 z.2)) := by
  have kind : ∀ sel ∈ [.divide, .exponent], Selector.category sel = .arithmeticBinary ∧
      sel ≠ .add ∧ Harmless sel := by decide
  obtain ⟨category, other, harmless⟩ := kind sel h
  exact judged_numerals (fun x y => .ok (operation x y)) category
    (fun h => other h.1) fun _ _ _ _ _ => iff_of_false nofun (not_fails harmless)

/-- Relations take two numbers or two texts and never fail on them. -/
theorem judged_relate (h : sel.category = .relational) (holds : Ordering → Bool) :
    Judged sel p q (Primitive.relate holds p q) := by
  have harmless : Harmless sel := by
    cases sel <;> first | decide | cases h
  unfold Primitive.relate
  split
  · refine judged_ok harmless ?_ _
    simp only [Selector.Mismatched, h]
    exact fun mismatched => mismatched.2 ⟨rfl, rfl⟩
  · rename_i notTexts
    split
    · rename_i x y hx hy
      refine judged_ok harmless ?_ _
      simp only [Selector.Mismatched, h]
      exact fun mismatched =>
        mismatched.1 ⟨isNumeric_iff.mpr ⟨x, hx⟩, isNumeric_iff.mpr ⟨y, hy⟩⟩
    · rename_i notNumbers
      refine judged_mismatched ?_ _
      simp only [Selector.Mismatched, h, isNumeric_iff]
      refine ⟨fun ⟨⟨x, hx⟩, y, hy⟩ => notNumbers x y hx hy, fun ⟨hp, hq⟩ => ?_⟩
      cases p <;> cases hp
      cases q <;> cases hq
      exact notTexts _ _ rfl rfl

/-- Operations on words take two operands that stand for integers and never fail
on them. -/
theorem judged_whole {operation : Int → Int → Primitive}
    (h : sel.category ∈ [.bitwiseBinary, .shift]) :
    Judged sel p q (do let m ← whole p; let n ← whole q; return operation m n) := by
  have harmless : Harmless sel := by
    cases sel <;> first | decide | simp [Selector.category] at h
  have mismatched : sel.Mismatched p q ↔ ¬ (p.IsWhole ∧ q.IsWhole) := by
    simp only [List.mem_cons, List.not_mem_nil, or_false] at h
    rcases h with h | h <;> simp only [Selector.Mismatched, h]
  by_cases left : p.IsWhole
  · obtain ⟨m, hm⟩ := left
    rw [whole_eq_ok_iff.mpr hm]
    by_cases right : q.IsWhole
    · obtain ⟨n, hn⟩ := right
      rw [whole_eq_ok_iff.mpr hn]
      exact judged_ok harmless (fun h => mismatched.mp h ⟨⟨m, hm⟩, n, hn⟩) _
    · obtain ⟨why, refused⟩ := exists_incompatible_of_whole right
      rw [refused]
      exact judged_mismatched (mismatched.mpr fun h => right h.2) why
  · obtain ⟨why, refused⟩ := exists_incompatible_of_whole left
    rw [refused]
    exact judged_mismatched (mismatched.mpr fun h => left h.1) why

theorem judged_unary (unary : sel.isUnary = true) :
    Judged sel p q (.error (.noOperation sel)) := by
  refine judged_matched (Fails.arity unary).not_mismatched fun fault => ?_
  constructor
  · rintro ⟨⟩
    exact .arity unary
  · intro failed
    rcases failed.selector with mem | ⟨rfl, -⟩
    · rw [isUnary_of_mem sel mem] at unary
      cases unary
    · rfl

/-- Every operation comes to what its operands call for. -/
theorem judged (h : sel.category ≠ .equality) (p q : Primitive) :
    Judged sel p q (binary sel p q) := by
  cases sel with
  | equals | strictEquals => exact absurd rfl h
  | greaterThan => exact judged_relate rfl (· == .gt)
  | greaterThanEqual => exact judged_relate rfl (· != .lt)
  | lessThan => exact judged_relate rfl (· == .lt)
  | lessThanEqual => exact judged_relate rfl (· != .gt)
  | add => exact judged_add
  | subtract | multiply => exact judged_compute (by decide) (by simp)
  | divide => exact judged_total (fun x y => .double (quotient x y)) (by decide)
  | modulus => exact judged_modulus
  | exponent => exact judged_total power (by decide)
  | bitwiseAnd | bitwiseOr | bitwiseXor => exact judged_whole (by decide)
  | leftShift | rightShift => exact judged_whole (by decide)
  | unsignedRightShift => exact judged_whole (by decide)
  | unaryNegate | unaryAdd | unarySubtract | bitwiseComplement => exact judged_unary rfl

end Native

end OperatorDispatch
