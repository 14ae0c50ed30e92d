import Mathlib.Data.String.Basic
import Mathlib.Order.Compare
import Mathlib.Order.WithBot
import OperatorDispatch.Proofs.Numbers

/-!
# Relations on primitives

Five tokens compare numbers and texts, and two more tell primitives apart, each
through an operation of its own.  What they say fits together because all of it is
one comparison (`Primitive.Compares`): of two numbers by their exact places on the
line, with no rounding of either, and of two texts by code point.  A linear order
gives the rest (`totallyOrders_of_places`).

The equalities go beyond that to all primitives.  What a primitive denotes is null, a
text or a place; loose equality is having one denotation, strict equality is that
and having one kind, and not-a-number denotes nothing.

All of this is about the dispatcher: what a token says (`Primitive.Says`) it says in
every reachable state and under any settings.
-/

namespace OperatorDispatch

/-! ## Places on the line -/

namespace Place

/-- The line of rationals with its two ends. -/
def onLine : Place → WithBot (WithTop ℚ)
  | .bottom => ⊥
  | .at q => ((q : WithTop ℚ) : WithBot (WithTop ℚ))
  | .top => ((⊤ : WithTop ℚ) : WithBot (WithTop ℚ))

theorem compare_eq (a b : Place) : a.compare b = cmp a.onLine b.onLine := by
  have below (q : ℚ) : ((q : WithTop ℚ) : WithBot (WithTop ℚ)) < ((⊤ : WithTop ℚ) : WithBot _) :=
    WithBot.coe_lt_coe.mpr (WithTop.coe_lt_top q)
  have lowest (x : WithTop ℚ) : (⊥ : WithBot (WithTop ℚ)) < x := WithBot.bot_lt_coe x
  cases a with
  | bottom =>
      cases b with
      | bottom => exact ((cmp_eq_eq_iff _ _).mpr rfl).symm
      | «at» | top => exact ((cmp_eq_lt_iff _ _).mpr (lowest _)).symm
  | top =>
      cases b with
      | bottom => exact ((cmp_eq_gt_iff _ _).mpr (lowest _)).symm
      | «at» q => exact ((cmp_eq_gt_iff _ _).mpr (below q)).symm
      | top => exact ((cmp_eq_eq_iff _ _).mpr rfl).symm
  | «at» p =>
      cases b with
      | bottom => exact ((cmp_eq_gt_iff _ _).mpr (lowest _)).symm
      | top => exact ((cmp_eq_lt_iff _ _).mpr (below p)).symm
      | «at» q =>
          have lifted {u v : ℚ} (h : u < v) : (Place.at u).onLine < (Place.at v).onLine :=
            WithBot.coe_lt_coe.mpr (WithTop.coe_lt_coe.mpr h)
          have choice : (Place.at p).compare (.at q) =
              if p < q then .lt else if p = q then .eq else .gt := rfl
          rw [choice]
          rcases lt_trichotomy p q with h | rfl | h
          · rw [if_pos h, (cmp_eq_lt_iff _ _).mpr (lifted h)]
          · rw [if_neg (lt_irrefl p), if_pos rfl, (cmp_eq_eq_iff _ _).mpr rfl]
          · rw [if_neg h.not_gt, if_neg h.ne', (cmp_eq_gt_iff _ _).mpr (lifted h)]

theorem onLine_inj {a b : Place} : a.onLine = b.onLine ↔ a = b := by
  cases a <;> cases b <;> simp [onLine]

theorem compare_eq_eq_iff {a b : Place} : a.compare b = .eq ↔ a = b := by
  rw [compare_eq, cmp_eq_eq_iff, onLine_inj]

end Place

/-- Texts are compared by the order of code points. -/
theorem compareText_eq (s t : String) : compareText s t = cmp s t := by
  unfold compareText
  rcases lt_trichotomy s t with h | rfl | h
  · rw [if_pos h, (cmp_eq_lt_iff s t).mpr h]
  · rw [if_neg (lt_irrefl s), if_pos rfl, (cmp_eq_eq_iff s s).mpr rfl]
  · rw [if_neg h.not_gt, if_neg h.ne', (cmp_eq_gt_iff s t).mpr h]

namespace Primitive

/-- Where a number lies on the line: its exact value, or an end. -/
inductive LiesAt : Primitive → WithBot (WithTop ℚ) → Prop
  | finite {p : Primitive} {q : ℚ} (value : p.HasValue q) : LiesAt p ((q : WithTop ℚ) : WithBot _)
  | bottom : LiesAt (.double (.infinity true)) ⊥
  | top : LiesAt (.double (.infinity false)) ((⊤ : WithTop ℚ) : WithBot _)

variable {p q r : Primitive} {v w : WithBot (WithTop ℚ)}

theorem LiesAt.exists_place (h : p.LiesAt v) :
    ∃ x a, p.numeral? = some x ∧ x.place? = some a ∧ a.onLine = v := by
  cases h with
  | bottom => exact ⟨_, .bottom, rfl, rfl, rfl⟩
  | top => exact ⟨_, .top, rfl, rfl, rfl⟩
  | finite value =>
      cases value with
      | boolean b => cases b <;> exact ⟨_, _, rfl, rfl, by simp [Place.onLine]⟩
      | integer n => exact ⟨_, .at n, rfl, rfl, rfl⟩
      | @double x q value =>
          cases x with
          | nan | infinity => cases value
          | finite s m =>
              cases value
              exact ⟨_, _, rfl, rfl, rfl⟩

/-- Every number other than not-a-number lies somewhere. -/
theorem exists_liesAt (numeric : p.IsNumeric) (number : ¬ p.IsNaN) : ∃ v, p.LiesAt v := by
  cases p with
  | null | text => simp [IsNumeric, kind] at numeric
  | boolean b => exact ⟨_, .finite (.boolean b)⟩
  | integer n => exact ⟨_, .finite (.integer n)⟩
  | double x =>
      cases x with
      | nan => exact absurd rfl number
      | infinity s =>
          cases s with
          | false => exact ⟨_, .top⟩
          | true => exact ⟨_, .bottom⟩
      | finite s m => exact ⟨_, .finite (.double rfl)⟩

/-! ## Numbers compared -/

section Numerals

variable {x y : Numeral} (hx : p.numeral? = some x) (hy : q.numeral? = some y)

include hx hy

theorem relate_numerals (holds : Ordering → Bool) :
    relate holds p q = .ok (.boolean ((x.compare? y).any holds)) := by
  cases p <;> cases hx <;> cases q <;> cases hy <;> rfl

theorem looseEqual_numerals : p.looseEqual q = (x.compare? y == some .eq) := by
  cases p <;> cases hx <;> cases q <;> cases hy <;> rfl

end Numerals

/-! ## What tokens say -/

/-- A token answers two primitives with a truth value. -/
def Says (literal : String) (p q : Primitive) (b : Bool) : Prop :=
  Answers literal p q (.boolean b)

theorem says_unique {literal : String} {b b' : Bool} (h : Says literal p q b)
    (h' : Says literal p q b') : b = b' := by
  cases answers_unique h h'
  rfl

theorem says_iff {literal : String} {b b' : Bool} (h : Says literal p q b) :
    Says literal p q b' ↔ b = b' := by
  refine ⟨says_unique h, ?_⟩
  rintro rfl
  exact h

theorem says_equals (p q : Primitive) : Says "==" p q (p.looseEqual q) := by
  obtain ⟨o, found, equals⟩ : ∃ o, OperatorTables.standard.find? .binary "==" = some o ∧
      o = ⟨"==", .binary, .equals, "Loose equality", false⟩ := ⟨_, rfl, rfl⟩
  subst equals
  intro s hs settings
  have known := OperatorTables.lookup_of_find? (hs.find?_operators found)
  exact Action.endsAtOnce_of_ending (Action.application_binary _ _ known) rfl

theorem says_strictEquals (p q : Primitive) : Says "===" p q (p.strictEqual q) := by
  obtain ⟨o, found, equals⟩ : ∃ o, OperatorTables.standard.find? .binary "===" = some o ∧
      o = ⟨"===", .binary, .strictEquals, "Strict equality", false⟩ := ⟨_, rfl, rfl⟩
  subst equals
  intro s hs settings
  have known := OperatorTables.lookup_of_find? (hs.find?_operators found)
  exact Action.endsAtOnce_of_ending (Action.application_binary _ _ known) rfl

/-! ## One comparison for five tokens -/

/-- The five tokens say of two primitives what an ordering says. -/
structure Compares (p q : Primitive) (o : Ordering) : Prop where
  lt : Says "<" p q (o == .lt)
  le : Says "<=" p q (o != .gt)
  eq : Says "==" p q (o == .eq)
  ge : Says ">=" p q (o != .lt)
  gt : Says ">" p q (o == .gt)

/-- The four tokens of order ask one question with four sets of orderings. -/
theorem says_relations (answer : (Ordering → Bool) → Bool)
    (related : ∀ holds, relate holds p q = .ok (.boolean (answer holds))) :
    Says "<" p q (answer (· == .lt)) ∧ Says "<=" p q (answer (· != .gt)) ∧
      Says ">=" p q (answer (· != .lt)) ∧ Says ">" p q (answer (· == .gt)) :=
  ⟨answers_native .lessThan ⟨_, rfl, rfl⟩ (by decide) (related (· == .lt)),
    answers_native .lessThanEqual ⟨_, rfl, rfl⟩ (by decide) (related (· != .gt)),
    answers_native .greaterThanEqual ⟨_, rfl, rfl⟩ (by decide) (related (· != .lt)),
    answers_native .greaterThan ⟨_, rfl, rfl⟩ (by decide) (related (· == .gt))⟩

theorem compares_of_relate {o : Ordering}
    (related : ∀ holds, relate holds p q = .ok (.boolean (holds o)))
    (equal : p.looseEqual q = (o == .eq)) : Compares p q o := by
  obtain ⟨lt, le, ge, gt⟩ := says_relations (fun holds => holds o) related
  exact ⟨lt, le, equal ▸ says_equals p q, ge, gt⟩

theorem compares_numbers (hp : p.LiesAt v) (hq : q.LiesAt w) : Compares p q (cmp v w) := by
  obtain ⟨x, a, hx, ha, rfl⟩ := hp.exists_place
  obtain ⟨y, b, hy, hb, rfl⟩ := hq.exists_place
  have compared : x.compare? y = some (cmp a.onLine b.onLine) := by
    rw [← Place.compare_eq]
    simp only [Numeral.compare?, ha, hb]
  refine compares_of_relate (fun holds => ?_) ?_
  · rw [relate_numerals hx hy, compared]
    rfl
  · rw [looseEqual_numerals hx hy, compared]
    rfl

theorem compares_texts (s t : String) : Compares (.text s) (.text t) (cmp s t) := by
  refine compares_of_relate (fun holds => ?_) ?_
  · rw [← compareText_eq]
    rfl
  · rw [Bool.eq_iff_iff, looseEqual, beq_iff_eq, beq_iff_eq, cmp_eq_eq_iff]

/-! ## Orders -/

/-- On a class of primitives the tokens are a linear order. -/
structure TotallyOrders (C : Primitive → Prop) : Prop where
  /-- One of three, and the fourth is one of two of them. -/
  one : ∀ p q, C p → C q → ∃ lt eq gt : Bool,
    Says "<" p q lt ∧ Says "==" p q eq ∧ Says ">" p q gt ∧ [lt, eq, gt].count true = 1 ∧
      Says "<=" p q (lt || eq)
  converse : ∀ p q b, C p → C q →
    (Says ">" p q b ↔ Says "<" q p b) ∧ (Says ">=" p q b ↔ Says "<=" q p b)
  trans : ∀ p q r, C p → C q → C r → ∀ literal ∈ ["<", "=="],
    Says literal p q true → Says literal q r true → Says literal p r true

/-- Where the members of a class have places in a linear order, and are compared by
them, the tokens are that order. -/
theorem totallyOrders_of_places {α : Type} [LinearOrder α] {C : Primitive → Prop}
    (place : Primitive → α → Prop) (placed : ∀ p, C p → ∃ a, place p a)
    (compares : ∀ {p q a b}, place p a → place q b → Compares p q (cmp a b)) :
    TotallyOrders C where
  one p q hp hq := by
    obtain ⟨a, ha⟩ := placed p hp
    obtain ⟨b, hb⟩ := placed q hq
    have h := compares ha hb
    refine ⟨_, _, _, h.lt, h.eq, h.gt, ?_, ?_⟩
    · cases cmp a b <;> rfl
    · have le := h.le
      cases ho : cmp a b <;> rw [ho] at le <;> exact le
  converse p q b hp hq := by
    obtain ⟨a, ha⟩ := placed p hp
    obtain ⟨b, hb⟩ := placed q hq
    have h := compares ha hb
    have h' := compares hb ha
    rw [← cmp_swap] at h'
    rw [says_iff h.gt, says_iff h.ge, says_iff h'.lt, says_iff h'.le]
    cases cmp a b <;> exact ⟨Iff.rfl, Iff.rfl⟩
  trans p q r hp hq hr := by
    obtain ⟨a, ha⟩ := placed p hp
    obtain ⟨b, hb⟩ := placed q hq
    obtain ⟨c, hc⟩ := placed r hr
    have hpq := compares ha hb
    have hqr := compares hb hc
    have hpr := compares ha hc
    simp only [List.forall_mem_cons, List.not_mem_nil, false_imp_iff, implies_true, and_true]
    rw [says_iff hpq.lt, says_iff hqr.lt, says_iff hpr.lt, says_iff hpq.eq, says_iff hqr.eq,
      says_iff hpr.eq]
    rw [beq_iff_eq, beq_iff_eq, beq_iff_eq, beq_iff_eq, beq_iff_eq, beq_iff_eq, cmp_eq_lt_iff,
      cmp_eq_lt_iff, cmp_eq_lt_iff, cmp_eq_eq_iff, cmp_eq_eq_iff, cmp_eq_eq_iff]
    exact ⟨lt_trans, Eq.trans⟩

/-- The numbers with their places on the line are ordered by the tokens. -/
theorem totallyOrders_numbers : TotallyOrders fun p => p.IsNumeric ∧ ¬ p.IsNaN :=
  totallyOrders_of_places LiesAt (fun _ ⟨numeric, number⟩ => exists_liesAt numeric number)
    compares_numbers

theorem totallyOrders_texts : TotallyOrders IsText :=
  totallyOrders_of_places (fun p s => p = .text s)
    (fun p h => by cases p <;> simp_all [IsText, kind])
    (fun hp hq => by subst hp hq; exact compares_texts _ _)

/-! ## Equality -/

/-- What a primitive stands for when it is compared for equality. -/
inductive Denotation where
  | null
  | text (s : String)
  | place (a : Place)

/-- What a primitive denotes; `none` for not-a-number. -/
def denotation? : Primitive → Option Denotation
  | .null => some .null
  | .text s => some (.text s)
  | p => (p.numeral?.bind Numeral.place?).map .place

theorem denotation?_of_numeral? {x : Numeral} (h : p.numeral? = some x) :
    p.denotation? = x.place?.map .place := by
  cases p <;> cases h <;> rfl

theorem denotation?_eq_none_iff : p.denotation? = none ↔ p.IsNaN := by
  cases p with
  | null | text | boolean | integer =>
      simp [denotation?, numeral?, Numeral.place?, IsNaN]
  | double x => cases x <;> simp [denotation?, numeral?, Numeral.place?, IsNaN]

/-- Loose equality is having one denotation. -/
theorem looseEqual_iff :
    p.looseEqual q = true ↔ ∃ d, p.denotation? = some d ∧ q.denotation? = some d := by
  cases hp : p.numeral? with
  | none =>
      cases p <;> cases q <;> simp_all [numeral?, looseEqual, denotation?]
      exact eq_comm
  | some x =>
      cases hq : q.numeral? with
      | none => cases p <;> cases q <;> simp_all [numeral?, looseEqual, denotation?]
      | some y =>
          rw [looseEqual_numerals hp hq, denotation?_of_numeral? hp, denotation?_of_numeral? hq,
            Numeral.compare?]
          cases x.place? with
          | none => simp
          | some a =>
              cases y.place? with
              | none => simp
              | some b => simp [Place.compare_eq_eq_iff, eq_comm (a := b)]

theorem looseEqual_comm (p q : Primitive) : p.looseEqual q = q.looseEqual p := by
  rw [Bool.eq_iff_iff, looseEqual_iff, looseEqual_iff]
  simp only [and_comm]

theorem looseEqual_trans (h : p.looseEqual q = true) (h' : q.looseEqual r = true) :
    p.looseEqual r = true := by
  rw [looseEqual_iff] at *
  obtain ⟨d, hp, hq⟩ := h
  obtain ⟨d', hq', hr⟩ := h'
  cases hq.symm.trans hq'
  exact ⟨d, hp, hr⟩

theorem looseEqual_self_iff : p.looseEqual p = true ↔ ¬ p.IsNaN := by
  rw [looseEqual_iff, ← denotation?_eq_none_iff, ← ne_eq, Option.ne_none_iff_exists']
  simp only [and_self]

theorem strictEqual_iff : p.strictEqual q = true ↔ p.looseEqual q = true ∧ p.kind = q.kind := by
  rw [strictEqual, Bool.and_eq_true, beq_iff_eq, and_comm]

/-- Loosely equal primitives of different kinds are a boolean and a number. -/
theorem boolean_number_of_looseEqual (h : p.looseEqual q = true) (kinds : p.kind ≠ q.kind) :
    p.kind = .boolean ∧ q.kind = .number ∨ p.kind = .number ∧ q.kind = .boolean := by
  cases p <;> cases q <;> simp_all [kind, looseEqual, numeral?]

/-! ## Not-a-number -/

/-- No relation and no equality holds of two numbers of which one is
not-a-number. -/
theorem says_unordered (numeric : p.IsNumeric ∧ q.IsNumeric) (nan : p.IsNaN ∨ q.IsNaN)
    {literal : String} (token : literal ∈ ["<", "<=", ">", ">=", "==", "==="]) :
    Says literal p q false := by
  obtain ⟨x, hx⟩ := Native.isNumeric_iff.mp numeric.1
  obtain ⟨y, hy⟩ := Native.isNumeric_iff.mp numeric.2
  have apart : x.compare? y = none := by
    rw [Native.isNaN_iff hx, Native.isNaN_iff hy] at nan
    obtain rfl | rfl := nan
    · rfl
    · unfold Numeral.compare?
      cases x.place? <;> rfl
  have related (holds : Ordering → Bool) : relate holds p q = .ok (.boolean false) := by
    rw [relate_numerals hx hy, apart]
    rfl
  have unequal : p.looseEqual q = false := by
    rw [looseEqual_numerals hx hy, apart]
    rfl
  obtain ⟨lt, le, ge, gt⟩ := says_relations (fun _ => false) related
  simp only [List.mem_cons, List.not_mem_nil, or_false] at token
  obtain rfl | rfl | rfl | rfl | rfl | rfl := token
  · exact lt
  · exact le
  · exact gt
  · exact ge
  · exact unequal ▸ says_equals p q
  · have strict : p.strictEqual q = false := by rw [strictEqual, unequal, Bool.and_false]
    exact strict ▸ says_strictEquals p q

/-! ## The agreement -/

/-- How the relations and the equalities on primitives fit together. -/
structure RelationsAgree : Prop where
  single : ∀ literal p q b b', Says literal p q b → Says literal p q b' → b = b'
  numbers : TotallyOrders fun p => p.IsNumeric ∧ ¬ p.IsNaN
  texts : TotallyOrders IsText
  /-- Numbers are compared by their exact values. -/
  exact : ∀ p q v w, p.LiesAt v → q.LiesAt w →
    (Says "<" p q true ↔ v < w) ∧ (Says "==" p q true ↔ v = w)
  answered : ∀ p q, ∃ loose strict, Says "==" p q loose ∧ Says "===" p q strict
  kinds : ∀ p q, Says "===" p q true ↔ Says "==" p q true ∧ p.kind = q.kind
  differ : ∀ p q b, Says "==" p q b → Says "===" p q (!b) →
    p.kind = .boolean ∧ q.kind = .number ∨ p.kind = .number ∧ q.kind = .boolean
  refl : ∀ literal ∈ ["==", "==="], ∀ p, Says literal p p true ↔ ¬ p.IsNaN
  symm : ∀ literal ∈ ["==", "==="], ∀ p q, Says literal p q true → Says literal q p true
  trans : ∀ literal ∈ ["==", "==="], ∀ p q r,
    Says literal p q true → Says literal q r true → Says literal p r true
  unordered : ∀ literal ∈ ["<", "<=", ">", ">=", "==", "==="], ∀ p q,
    p.IsNumeric ∧ q.IsNumeric → p.IsNaN ∨ q.IsNaN → Says literal p q false

theorem says_equals_iff : Says "==" p q true ↔ p.looseEqual q = true :=
  says_iff (says_equals p q)

theorem says_strictEquals_iff :
    Says "===" p q true ↔ p.looseEqual q = true ∧ p.kind = q.kind :=
  (says_iff (says_strictEquals p q)).trans strictEqual_iff

/-- The tokens that compare primitives agree with each other. -/
theorem relations_agree : RelationsAgree where
  single _ _ _ _ _ := says_unique
  numbers := totallyOrders_numbers
  texts := totallyOrders_texts
  exact p q v w hp hq := by
    have h := compares_numbers hp hq
    rw [says_iff h.lt, says_iff h.eq, beq_iff_eq, beq_iff_eq, cmp_eq_lt_iff, cmp_eq_eq_iff]
    exact ⟨Iff.rfl, Iff.rfl⟩
  answered p q := ⟨_, _, says_equals p q, says_strictEquals p q⟩
  kinds p q := by rw [says_strictEquals_iff, says_equals_iff]
  differ p q b loose strict := by
    have equal := says_unique (says_equals p q) loose
    have unlike := says_unique (says_strictEquals p q) strict
    have holds : p.looseEqual q = true := by
      by_contra fails
      have strictly : p.strictEqual q = true := by simp_all
      exact fails (strictEqual_iff.mp strictly).1
    refine boolean_number_of_looseEqual holds fun kinds => ?_
    have strictly := strictEqual_iff.mpr ⟨holds, kinds⟩
    simp_all
  refl literal token p := by
    simp only [List.mem_cons, List.not_mem_nil, or_false] at token
    obtain rfl | rfl := token
    · rw [says_equals_iff, looseEqual_self_iff]
    · rw [says_strictEquals_iff, looseEqual_self_iff, and_iff_left rfl]
  symm literal token p q := by
    simp only [List.mem_cons, List.not_mem_nil, or_false] at token
    obtain rfl | rfl := token
    · rw [says_equals_iff, says_equals_iff, looseEqual_comm]
      exact id
    · rw [says_strictEquals_iff, says_strictEquals_iff, looseEqual_comm]
      exact And.imp_right Eq.symm
  trans literal token p q r := by
    simp only [List.mem_cons, List.not_mem_nil, or_false] at token
    obtain rfl | rfl := token
    · simp only [says_equals_iff]
      exact looseEqual_trans
    · simp only [says_strictEquals_iff]
      exact fun h h' => ⟨looseEqual_trans h.1 h'.1, h.2.trans h'.2⟩
  unordered literal token p q numeric nan := says_unordered numeric nan token

end Primitive
end OperatorDispatch
