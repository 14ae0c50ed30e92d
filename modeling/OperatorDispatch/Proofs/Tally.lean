import Mathlib.Algebra.Order.Field.Rat
import Mathlib.Tactic.FieldSimp
import Mathlib.Tactic.Ring
import OperatorDispatch.Number.Double

/-!
# Counting in doubles

A total that starts at zero and grows by one each time is a double.  Up to
`2 ^ 53` it is exactly the number of times: every natural number that far is a
double, so no addition of one is rounded.
-/

namespace OperatorDispatch

namespace Magnitude

theorem roundHalfEven_one (n : Nat) : roundHalfEven n 1 = n := by
  simp [roundHalfEven, Nat.mod_one]

theorem binade_natural {n : Nat} (hn : n ≠ 0) : binade n 1 = n.log2 := by
  have one : Nat.log2 1 = 0 := by decide
  have le := Nat.log2_self_le hn
  simp [binade, one, scaleDown, Nat.one_shiftLeft, le]

theorem ofParts?_eq_some {m : Nat} {e : Int}
    (h : m < 0x20000000000000 ∧ -1074 ≤ e ∧ e ≤ 971 ∧ (e = -1074 ∨ 0x10000000000000 ≤ m)) :
    ofParts? m e = some ⟨m, e, h⟩ := by
  simp [ofParts?, h]

/-- A natural number of at most 53 bits is not rounded. -/
theorem toRat_ofRatio?_of_lt {n : Nat} (hn : n ≠ 0) (hlt : n < 2 ^ 53) :
    ∃ m, ofRatio? n 1 = some m ∧ m.toRat = n := by
  have hlog : n.log2 ≤ 52 := Nat.lt_succ_iff.mp ((Nat.log2_lt hn).mpr hlt)
  obtain ⟨k, hk⟩ : ∃ k : Nat, k = 52 - n.log2 := ⟨_, rfl⟩
  have hexp : max (binade n 1 - 52) (-1074) = -(k : Int) := by
    rw [binade_natural hn]
    omega
  have hscaled : scaleDown n 1 (-(k : Int)) = (n * 2 ^ k, 1) := by
    unfold scaleDown
    split
    · obtain rfl : k = 0 := by omega
      simp
    · simp [Nat.shiftLeft_eq]
  have upper : n * 2 ^ k < 0x20000000000000 := by
    calc n * 2 ^ k < 2 ^ (n.log2 + 1) * 2 ^ k :=
          Nat.mul_lt_mul_of_pos_right Nat.lt_log2_self (Nat.two_pow_pos k)
      _ = 2 ^ 53 := by rw [← Nat.pow_add]; congr 1; omega
  have lower : 0x10000000000000 ≤ n * 2 ^ k := by
    calc 2 ^ 52 = 2 ^ n.log2 * 2 ^ k := by rw [← Nat.pow_add]; congr 1; omega
      _ ≤ n * 2 ^ k := Nat.mul_le_mul_right _ (Nat.log2_self_le hn)
  have canonical : n * 2 ^ k < 0x20000000000000 ∧ -1074 ≤ -(k : Int) ∧ -(k : Int) ≤ 971 ∧
      (-(k : Int) = -1074 ∨ 0x10000000000000 ≤ n * 2 ^ k) :=
    ⟨upper, by omega, by omega, .inr lower⟩
  refine ⟨⟨n * 2 ^ k, -k, canonical⟩, ?_, ?_⟩
  · have hne : n * 2 ^ k ≠ 0x20000000000000 := Nat.ne_of_lt upper
    simp only [ofRatio?, hn, if_false, hexp, hscaled, roundHalfEven_one, hne,
      ofParts?_eq_some canonical]
  · unfold toRat
    dsimp only
    split
    · obtain rfl : k = 0 := by omega
      simp
    · simp only [neg_neg, Int.toNat_natCast, Nat.one_shiftLeft, Rat.mkRat_eq_div]
      push_cast
      field_simp

/-- The first number that takes 54 bits is even, so it is not rounded either. -/
theorem toRat_ofRatio?_limit : ∃ m, ofRatio? (2 ^ 53) 1 = some m ∧ m.toRat = 2 ^ 53 :=
  ⟨⟨0x10000000000000, 1, by decide⟩, by decide +kernel, by decide +kernel⟩

/-- Every natural number up to `2 ^ 53` is a double. -/
theorem toRat_ofRatio? {n : Nat} (hn : n ≠ 0) (hle : n ≤ 2 ^ 53) :
    ∃ m, ofRatio? n 1 = some m ∧ m.toRat = n := by
  rcases Nat.lt_or_eq_of_le hle with hlt | rfl
  · exact toRat_ofRatio?_of_lt hn hlt
  · obtain ⟨m, hm, hvalue⟩ := toRat_ofRatio?_limit
    refine ⟨m, hm, ?_⟩
    rw [hvalue]
    norm_num

end Magnitude

namespace Double

/-- Zero with one added to it a number of times. -/
def tally : Nat → Double
  | 0 => .zero
  | n + 1 => (tally n).add .one

theorem toRat?_add_one {x : Double} {n : Nat} (hx : x.toRat? = some (n : Rat))
    (hlt : n < 2 ^ 53) : (x.add .one).toRat? = some ((n + 1 : Nat) : Rat) := by
  cases x with
  | nan | infinity => simp [toRat?] at hx
  | finite s m =>
      simp only [toRat?, Option.some.injEq] at hx
      have unit : Magnitude.one.toRat = 1 := by decide +kernel
      have sum : (if s then -m.toRat else m.toRat) + 1 = ((n + 1 : Nat) : Rat) := by
        rw [hx]
        push_cast
        ring
      have positive : (0 : Rat) < ((n + 1 : Nat) : Rat) := by
        exact_mod_cast Nat.succ_pos n
      obtain ⟨m', hm', hvalue⟩ := Magnitude.toRat_ofRatio? (Nat.succ_ne_zero n) hlt
      have rounded : Magnitude.ofRat? ((n + 1 : Nat) : Rat) = some m' := by
        rw [Magnitude.ofRat?, Rat.num_natCast, Rat.den_natCast, Int.natAbs_natCast]
        exact hm'
      have added : (finite s m).add .one = .finite false m' := by
        simp only [add, one, addFinite, unit, Bool.false_eq_true, if_false, sum]
        rw [if_neg (ne_of_gt positive), ofRat, rounded, decide_eq_false (not_lt.mpr positive.le)]
        rfl
      rw [added]
      simp [toRat?, hvalue]

/-- The tally is exact as far as doubles can count. -/
theorem toRat?_tally : ∀ {n : Nat}, n ≤ 2 ^ 53 → (tally n).toRat? = some (n : Rat)
  | 0, _ => by decide +kernel
  | n + 1, hn => toRat?_add_one (toRat?_tally (Nat.le_of_succ_le hn)) hn

end Double

end OperatorDispatch
