import OperatorDispatch.Proofs.Numbers

/-!
# Remainders of integers

The remainder of two integers is formed of their sizes and then given the sign of the
dividend.  `IsRemainder` says what a division toward zero leaves, without a word on how
it is computed: a multiple of the divisor is taken away, less than the divisor is left,
and what is left lies on the same side of zero as the dividend.  One number is like
that and no other, and the sign of the divisor has no part in it.
-/

namespace OperatorDispatch

/-! ## What a division toward zero leaves -/

/-- What is left of `m` when it is divided by `n` toward zero. -/
structure IsRemainder (m n r : Int) : Prop where
  divides : n ∣ m - r
  small : |r| < |n|
  sign : r = 0 ∨ r.sign = m.sign

namespace IsRemainder

variable {m n n' r r' : Int}

theorem nonneg (h : IsRemainder m n r) (hm : 0 ≤ m) : 0 ≤ r := by
  obtain zero | same := h.sign
  · exact zero.ge
  · rwa [← Int.sign_nonneg_iff, same, Int.sign_nonneg_iff]

theorem nonpos (h : IsRemainder m n r) (hm : m ≤ 0) : r ≤ 0 := by
  obtain zero | same := h.sign
  · exact zero.le
  · rwa [← Int.sign_nonpos_iff, same, Int.sign_nonpos_iff]

/-- Two remainders lie on one side of zero, so they are closer than the divisor is
large. -/
theorem unique (h : IsRemainder m n r) (h' : IsRemainder m n r') : r' = r := by
  have divides : n ∣ r' - r := by
    have apart : r' - r = (m - r) - (m - r') := by ring
    rw [apart]
    exact dvd_sub h.divides h'.divides
  have close : |r' - r| < |n| := by
    rcases le_total 0 m with hm | hm
    · have low := h.nonneg hm
      have low' := h'.nonneg hm
      have small := h.small
      have small' := h'.small
      rw [abs_of_nonneg low] at small
      rw [abs_of_nonneg low'] at small'
      exact abs_sub_lt_of_nonneg_of_lt low' small' low small
    · have high := h.nonpos hm
      have high' := h'.nonpos hm
      have small := h.small
      have small' := h'.small
      rw [abs_of_nonpos high] at small
      rw [abs_of_nonpos high'] at small'
      rw [abs_sub_lt_iff]
      constructor <;> linarith
  have zero := Int.eq_zero_of_abs_lt_dvd ((abs_dvd n _).mpr divides) close
  exact sub_eq_zero.mp zero

/-- The sign of the divisor has no part in it. -/
theorem congr_abs (size : |n'| = |n|) : IsRemainder m n' r ↔ IsRemainder m n r := by
  have divides : n' ∣ m - r ↔ n ∣ m - r := by
    rw [← abs_dvd, size, abs_dvd]
  constructor
  · rintro ⟨divided, small, sign⟩
    exact ⟨divides.mp divided, size ▸ small, sign⟩
  · rintro ⟨divided, small, sign⟩
    exact ⟨divides.mpr divided, size ▸ small, sign⟩

theorem tmod (nonzero : n ≠ 0) : IsRemainder m n (m.tmod n) where
  divides := Int.dvd_self_sub_tmod
  small := by
    rw [Int.abs_eq_natAbs, Int.abs_eq_natAbs, Int.natAbs_tmod]
    exact_mod_cast Nat.mod_lt _ (Int.natAbs_pos.mpr nonzero)
  sign := by
    rw [← Int.sign_eq_zero_iff_zero, Int.sign_tmod]
    split
    · exact .inl rfl
    · exact .inr rfl

theorem eq_tmod_iff (nonzero : n ≠ 0) : IsRemainder m n r ↔ r = m.tmod n := by
  constructor
  · exact fun h => (tmod nonzero).unique h
  · rintro rfl
    exact tmod nonzero

end IsRemainder

/-! ## The remainder of integers -/

namespace Native

theorem remainder_integers (m : Int) {n : Int} (nonzero : n ≠ 0) :
    remainder (.integer m) (.integer n) = .ok (.integer (m.tmod n)) := by
  have divisor : (Numeral.integer n).isZero = false := by simpa [Numeral.isZero] using nonzero
  have sizes : m.tmod n = if m < 0 then -((m.natAbs % n.natAbs : Nat) : Int)
      else (m.natAbs % n.natAbs : Nat) := by
    have divided (k : Nat) : (k : Int).tmod n = (k % n.natAbs : Nat) := by
      obtain same | turned := Int.natAbs_eq n
      · rw [same, Int.natAbs_natCast]
        exact (Int.ofNat_tmod k _).symm
      · rw [turned, Int.tmod_neg, Int.natAbs_neg, Int.natAbs_natCast]
        exact (Int.ofNat_tmod k _).symm
    split
    · have turned : m = -(m.natAbs : Int) := by omega
      conv_lhs => rw [turned, Int.neg_tmod, divided]
    · have same : m = (m.natAbs : Int) := by omega
      conv_lhs => rw [same, divided]
  rw [remainder, divisor, if_neg Bool.false_ne_true, sizes]
  push_cast
  rfl

end Native

namespace Primitive

variable {p q : Primitive} {m n : Int}

/-- What `%` answers two integers. -/
structure Remainder (p q : Primitive) (m n r : Int) : Prop where
  computed : Native.binary .modulus p q = .ok (.integer r)
  answered : Answers "%" p q (.integer r)
  /-- It is the remainder, and nothing else is. -/
  remainder_iff : ∀ r', IsRemainder m n r' ↔ r' = r
  /-- Of the divisor only the size counts. -/
  magnitude : ∀ q' n', q'.IsInteger n' → |n'| = |n| →
    Native.binary .modulus p q' = .ok (.integer r) ∧ Answers "%" p q' (.integer r)

theorem modulus_integers (hp : p.IsInteger m) (hq : q.IsInteger n) (nonzero : n ≠ 0) :
    Native.binary .modulus p q = .ok (.integer (m.tmod n)) := by
  show Native.modulus p q = _
  rw [Native.modulus, Native.numerals, isInteger_iff.mp hp, isInteger_iff.mp hq]
  exact Native.remainder_integers m nonzero

theorem answers_modulus {r : Primitive} (given : Native.binary .modulus p q = .ok r) :
    Answers "%" p q r :=
  answers_native .modulus ⟨_, rfl, rfl⟩ (by decide) given

/-- The remainder of integers is that of a division toward zero. -/
theorem remainder_truncates (hp : p.IsInteger m) (hq : q.IsInteger n) (nonzero : n ≠ 0) :
    ∃ r, p.Remainder q m n r := by
  have computed := modulus_integers hp hq nonzero
  refine ⟨m.tmod n, computed, answers_modulus computed,
    fun r' => IsRemainder.eq_tmod_iff nonzero, fun q' n' hq' size => ?_⟩
  have nonzero' : n' ≠ 0 := by rwa [← abs_ne_zero, size, abs_ne_zero]
  have same : m.tmod n' = m.tmod n :=
    (IsRemainder.eq_tmod_iff nonzero).mp ((IsRemainder.congr_abs size).mp (.tmod nonzero'))
  have computed' := modulus_integers hp hq' nonzero'
  rw [same] at computed'
  exact ⟨computed', answers_modulus computed'⟩

/-- A negative dividend keeps its sign, whatever that of the divisor is. -/
theorem remainder_truncates_negative :
    (Primitive.integer (-7)).IsInteger (-7) ∧ (Primitive.integer 3).IsInteger 3 ∧ (3 : Int) ≠ 0 ∧
      Answers "%" (.integer (-7)) (.integer 3) (.integer (-1)) ∧
      Answers "%" (.integer (-7)) (.integer (-3)) (.integer (-1)) := by
  have nonzero : (3 : Int) ≠ 0 := by decide
  refine ⟨.integer _, .integer _, nonzero, ?_⟩
  obtain ⟨r, rest⟩ := remainder_truncates (.integer (-7)) (.integer 3) nonzero
  have left : -1 = r := (rest.remainder_iff (-1)).mp ⟨by decide, by decide, by decide⟩
  rw [left]
  exact ⟨rest.answered, (rest.magnitude _ _ (.integer (-3)) (by decide)).2⟩

end Primitive
end OperatorDispatch
