import OperatorDispatch.Proofs.Rounding
import OperatorDispatch.Proofs.Endings

/-!
# Bitwise operations act on machine words

The operations cut their operands down to 32 bits at different times, and read a
result back as signed or not.  Here each is compared with the operation of the
same name on `BitVec 32`: the word of an operand is `BitVec.ofInt 32`, and it
does not matter whether a shift to the left is made before the cut or after it
(`word_shiftLeft`).

All else follows from there.  The word of an integer has forgotten the multiples
of `2 ^ 32`, and a count those of 32; and how far a result reaches is what the
reading of a word allows.
-/

namespace OperatorDispatch

/-- The integer that an operand of a bitwise operation stands for. -/
inductive Primitive.StandsFor : Primitive → Int → Prop
  | boolean (b : Bool) : StandsFor (.boolean b) (if b then 1 else 0)
  | integer (n : Int) : StandsFor (.integer n) n
  | double {x : Double} {n : Int} (value : x.toRat? = some (n : ℚ)) : StandsFor (.double x) n

namespace Native

variable {a b a' b' : Primitive} {m n i j : Int}

/-! ## Operands -/

theorem whole_eq_ok_iff : whole a = .ok n ↔ a.StandsFor n := by
  constructor
  · intro h
    cases a with
    | null | text => cases h
    | boolean b =>
        cases h
        exact .boolean b
    | integer k =>
        cases h
        exact .integer n
    | double x =>
        simp only [whole, Primitive.numeral?] at h
        split at h <;> cases h
        exact .double (Double.toInt?_eq_some_iff.mp (by assumption))
  · intro h
    cases h with
    | boolean | integer => rfl
    | double value => simp only [whole, Primitive.numeral?, Double.toInt?_eq_some_iff.mpr value]

/-- What stands for no integer is of the wrong kind. -/
theorem exists_incompatible_of_whole (h : ¬ ∃ n, a.StandsFor n) :
    ∃ why, whole a = .error (.incompatible why) := by
  have refused : ∀ k, whole a ≠ .ok k := fun k hk => h ⟨k, whole_eq_ok_iff.mp hk⟩
  unfold whole at refused ⊢
  split
  · exact ⟨_, rfl⟩
  · rename_i k hk
    exact absurd (by rw [hk]) (refused k)
  · rename_i x hx
    split
    · rename_i k hk
      exact absurd (by simp only [hx, hk]) (refused k)
    · exact ⟨_, rfl⟩

/-! ## Words -/

theorem word_eq (n : Int) : word n = (BitVec.ofInt 32 n).toNat := by
  rw [BitVec.toNat_ofInt]
  rfl

theorem signed_toNat (x : BitVec 32) : signed x.toNat = x.toInt := by
  rw [BitVec.toInt_eq_toNat_cond, signed]
  split <;> split <;> omega

/-- A word does not depend on when it is cut down to its size. -/
theorem word_shiftLeft (m : Int) (k : Nat) :
    word (m <<< k) = (BitVec.ofInt 32 m <<< k).toNat := by
  have size : (word m : Int) = m % 0x100000000 :=
    Int.toNat_of_nonneg (Int.emod_nonneg m (by decide))
  rw [BitVec.toNat_shiftLeft, Nat.shiftLeft_eq, ← word_eq, word, Int.shiftLeft_eq]
  apply Int.natCast_inj.mp
  rw [Int.toNat_of_nonneg (Int.emod_nonneg _ (by decide))]
  push_cast
  rw [size, Int.mul_emod m, Int.mul_emod (m % 0x100000000) (2 ^ k), Int.emod_emod]

theorem toInt_not (x : BitVec 32) : (~~~x).toInt = -x.toInt - 1 := by
  have := x.isLt
  rw [BitVec.toInt_eq_toNat_cond, BitVec.toInt_eq_toNat_cond, BitVec.toNat_not]
  split <;> split <;> omega

/-- A word has forgotten the multiples of its size. -/
theorem ofInt_add_mul (m i : Int) : BitVec.ofInt 32 (m + 2 ^ 32 * i) = BitVec.ofInt 32 m := by
  apply BitVec.eq_of_toNat_eq
  simp only [BitVec.toNat_ofInt]
  omega

theorem toInt_inRange (x : BitVec 32) : -2 ^ 31 ≤ x.toInt ∧ x.toInt < 2 ^ 31 := by
  have := x.isLt
  rw [BitVec.toInt_eq_toNat_cond]
  split <;> omega

/-! ## The operations -/

/-- The operations on a pair of operands are those of their words.  A count is
taken modulo 32. -/
structure ActsOnWords (a b : Primitive) (m n : Int) : Prop where
  and : binary .bitwiseAnd a b = .ok (.integer (BitVec.ofInt 32 m &&& BitVec.ofInt 32 n).toInt)
  or : binary .bitwiseOr a b = .ok (.integer (BitVec.ofInt 32 m ||| BitVec.ofInt 32 n).toInt)
  xor : binary .bitwiseXor a b = .ok (.integer (BitVec.ofInt 32 m ^^^ BitVec.ofInt 32 n).toInt)
  complement : unary .bitwiseComplement a = .ok (.integer (~~~BitVec.ofInt 32 m).toInt)
  leftShift : binary .leftShift a b =
    .ok (.integer (BitVec.ofInt 32 m <<< (n % 32).toNat).toInt)
  rightShift : binary .rightShift a b =
    .ok (.integer ((BitVec.ofInt 32 m).sshiftRight (n % 32).toNat).toInt)
  unsignedRightShift : binary .unsignedRightShift a b =
    .ok (.integer (BitVec.ofInt 32 m >>> (n % 32).toNat).toNat)

theorem bitwise_eq (ha : a.StandsFor m) (hb : b.StandsFor n) (op : Nat → Nat → Nat) :
    bitwise op a b = .ok (.integer (signed (op (word m) (word n)))) := by
  rw [bitwise, whole_eq_ok_iff.mpr ha, whole_eq_ok_iff.mpr hb]
  rfl

theorem actsOnWords (ha : a.StandsFor m) (hb : b.StandsFor n) : ActsOnWords a b m n := by
  have hm := whole_eq_ok_iff.mpr ha
  have hn := whole_eq_ok_iff.mpr hb
  constructor
  · rw [binary, bitwise_eq ha hb, word_eq, word_eq, ← BitVec.toNat_and, signed_toNat]
  · rw [binary, bitwise_eq ha hb, word_eq, word_eq, ← BitVec.toNat_or, signed_toNat]
  · rw [binary, bitwise_eq ha hb, word_eq, word_eq, ← BitVec.toNat_xor, signed_toNat]
  · rw [unary, complement, hm, toInt_not, ← signed_toNat, ← word_eq]
    rfl
  · rw [binary, leftShift, hm, hn, ← signed_toNat, ← word_shiftLeft]
    rfl
  · rw [binary, rightShift, hm, hn, BitVec.toInt_sshiftRight, ← signed_toNat, ← word_eq]
    rfl
  · rw [binary, unsignedRightShift, hm, hn, BitVec.toNat_ushiftRight, ← word_eq]
    rfl

/-- The operations that look at both operands as words. -/
def wordwise : List Selector := [.bitwiseAnd, .bitwiseOr, .bitwiseXor]

/-- The operations that count by the operand on the right. -/
def shifts : List Selector := [.leftShift, .rightShift, .unsignedRightShift]

namespace ActsOnWords

variable (acts : ActsOnWords a b m n)

include acts

theorem exists_signed {sel : Selector}
    (h : sel ∈ [.bitwiseAnd, .bitwiseOr, .bitwiseXor, .leftShift, .rightShift]) :
    ∃ x : BitVec 32, binary sel a b = .ok (.integer x.toInt) := by
  simp only [List.mem_cons, List.not_mem_nil, or_false] at h
  rcases h with rfl | rfl | rfl | rfl | rfl
  · exact ⟨_, acts.and⟩
  · exact ⟨_, acts.or⟩
  · exact ⟨_, acts.xor⟩
  · exact ⟨_, acts.leftShift⟩
  · exact ⟨_, acts.rightShift⟩

theorem exists_ok {sel : Selector} (h : sel ∈ wordwise ++ shifts) :
    ∃ r, binary sel a b = .ok (.integer r) := by
  by_cases unsigned : sel = .unsignedRightShift
  · rw [unsigned]
    exact ⟨_, acts.unsignedRightShift⟩
  · obtain ⟨x, hx⟩ := acts.exists_signed (by simpa [wordwise, shifts, unsigned] using h)
    exact ⟨_, hx⟩

theorem wordwise_eq (acts' : ActsOnWords a' b' (m + 2 ^ 32 * i) (n + 2 ^ 32 * j)) {sel : Selector}
    (h : sel ∈ wordwise) : binary sel a' b' = binary sel a b := by
  simp only [wordwise, List.mem_cons, List.not_mem_nil, or_false] at h
  rcases h with rfl | rfl | rfl
  · rw [acts'.and, acts.and, ofInt_add_mul, ofInt_add_mul]
  · rw [acts'.or, acts.or, ofInt_add_mul, ofInt_add_mul]
  · rw [acts'.xor, acts.xor, ofInt_add_mul, ofInt_add_mul]

theorem shifts_eq (acts' : ActsOnWords a' b' (m + 2 ^ 32 * i) (n + 32 * j)) {sel : Selector}
    (h : sel ∈ shifts) : binary sel a' b' = binary sel a b := by
  have count : (n + 32 * j) % 32 = n % 32 := by omega
  simp only [shifts, List.mem_cons, List.not_mem_nil, or_false] at h
  rcases h with rfl | rfl | rfl
  · rw [acts'.leftShift, acts.leftShift, ofInt_add_mul, count]
  · rw [acts'.rightShift, acts.rightShift, ofInt_add_mul, count]
  · rw [acts'.unsignedRightShift, acts.unsignedRightShift, ofInt_add_mul, count]

theorem complement_eq (acts' : ActsOnWords a' b' (m + 2 ^ 32 * i) j) :
    unary .bitwiseComplement a' = unary .bitwiseComplement a := by
  rw [acts'.complement, acts.complement, ofInt_add_mul]

end ActsOnWords

/-! ## The whole of it -/

/-- What is to be said of the operations on words: which they are, how far their
results reach, what they do not tell apart, and that a dispatch comes to them. -/
structure WordOperations (a b : Primitive) (m n : Int) : Prop extends ActsOnWords a b m n where
  signed_inRange : ∀ sel ∈ [.bitwiseAnd, .bitwiseOr, .bitwiseXor, .leftShift, .rightShift],
    ∃ r, binary sel a b = .ok (.integer r) ∧ -2 ^ 31 ≤ r ∧ r < 2 ^ 31
  complement_inRange :
    ∃ r, unary .bitwiseComplement a = .ok (.integer r) ∧ -2 ^ 31 ≤ r ∧ r < 2 ^ 31
  unsigned_inRange :
    ∃ r, binary .unsignedRightShift a b = .ok (.integer r) ∧ 0 ≤ r ∧ r < 2 ^ 32
  wordwise_periodic : ∀ {a' b' : Primitive} {i j : Int},
    a'.StandsFor (m + 2 ^ 32 * i) → b'.StandsFor (n + 2 ^ 32 * j) →
      ∀ sel ∈ wordwise, binary sel a' b' = binary sel a b
  complement_periodic : ∀ {a' : Primitive} {i : Int}, a'.StandsFor (m + 2 ^ 32 * i) →
    unary .bitwiseComplement a' = unary .bitwiseComplement a
  shifts_periodic : ∀ {a' b' : Primitive} {i j : Int},
    a'.StandsFor (m + 2 ^ 32 * i) → b'.StandsFor (n + 32 * j) →
      ∀ sel ∈ shifts, binary sel a' b' = binary sel a b
  dispatched : ∀ {s : State}, Reachable s → ∀ settings : Settings,
    ∀ o ∈ OperatorTables.standard.binary, o.selector ∈ wordwise ++ shifts →
      ∃ r, binary o.selector a b = .ok (.integer r) ∧
        s.EndsAtOnce settings (.binary o.literal (.primitive a) (.primitive b))
          (.ok (.primitive (.integer r), .native))
  complement_dispatched : ∀ {s : State}, Reachable s → ∀ settings : Settings,
    ∀ position ∈ [none, some "prefix", some "none"],
      ∃ r, unary .bitwiseComplement a = .ok (.integer r) ∧
        s.EndsAtOnce settings (.unary "~" position (.primitive a))
          (.ok (.primitive (.integer r), .native))

theorem endsAtOnce_wordwise {s : State} (hs : Reachable s) (settings : Settings) {o : Operator}
    (standard : o ∈ OperatorTables.standard.binary) (h : o.selector ∈ wordwise ++ shifts)
    {w : Primitive} (hw : binary o.selector a b = .ok w) :
    s.EndsAtOnce settings (.binary o.literal (.primitive a) (.primitive b))
      (.ok (.primitive w, .native)) := by
  have named : ∀ o ∈ OperatorTables.standard.binary,
      OperatorTables.standard.find? .binary o.literal = some o := by decide
  have sorted : ∀ sel ∈ wordwise ++ shifts, sel.category ≠ .equality := by decide
  have ends := Action.endsAtOnce_native (hs.find?_operators (named o standard))
    (sorted _ h) settings a b
  rwa [hw] at ends

theorem endsAtOnce_complement {s : State} (hs : Reachable s) (settings : Settings)
    {position : Option String} (h : position ∈ [none, some "prefix", some "none"])
    {w : Primitive} (hw : unary .bitwiseComplement a = .ok w) :
    s.EndsAtOnce settings (.unary "~" position (.primitive a)) (.ok (.primitive w, .native)) := by
  obtain ⟨o, standard, same⟩ : ∃ o, OperatorTables.standard.find? .unary "~" = some o ∧
      o.selector = .bitwiseComplement := ⟨_, rfl, rfl⟩
  have found := OperatorTables.lookup_of_find? (hs.find?_operators standard)
  have accepted : (Request.unary "~" position (.primitive a)).application s.operators =
      .ok ⟨o, .unary (.primitive a)⟩ := by
    simp only [List.mem_cons, List.not_mem_nil, or_false] at h
    rcases h with rfl | rfl | rfl <;>
      simp [Request.application, Application.unary, found, readPosition, Position.ofText?,
        Application.unaryAt, Operator.isMutating, same, Selector.isMutating]
  have ends := Action.endsAtOnce_unary settings accepted
    (by simp [Operator.category, same, Selector.category])
  rwa [same, hw] at ends

/-- On operands that stand for integers the bitwise operations and the shifts are
those of a machine with words of 32 bits. -/
theorem wordOperations (ha : a.StandsFor m) (hb : b.StandsFor n) : WordOperations a b m n where
  toActsOnWords := actsOnWords ha hb
  signed_inRange sel h := by
    obtain ⟨x, hx⟩ := (actsOnWords ha hb).exists_signed h
    exact ⟨_, hx, toInt_inRange x⟩
  complement_inRange := ⟨_, (actsOnWords ha hb).complement, toInt_inRange _⟩
  unsigned_inRange := by
    refine ⟨_, (actsOnWords ha hb).unsignedRightShift, Int.natCast_nonneg _, ?_⟩
    exact_mod_cast BitVec.isLt _
  wordwise_periodic ha' hb' _ := (actsOnWords ha hb).wordwise_eq (actsOnWords ha' hb')
  complement_periodic ha' := (actsOnWords ha hb).complement_eq (actsOnWords ha' hb)
  shifts_periodic ha' hb' _ := (actsOnWords ha hb).shifts_eq (actsOnWords ha' hb')
  dispatched hs settings o standard h := by
    obtain ⟨r, hr⟩ := (actsOnWords ha hb).exists_ok h
    exact ⟨r, hr, endsAtOnce_wordwise hs settings standard h hr⟩
  complement_dispatched hs settings position h :=
    ⟨_, (actsOnWords ha hb).complement,
      endsAtOnce_complement hs settings h (actsOnWords ha hb).complement⟩

/-- A negative integer of more than 32 bits, shifted by the double minus one:
that is by 31 places. -/
theorem wordOperations_negative :
    (Primitive.double (.finite true .one)).StandsFor (-1) ∧
      WordOperations (.integer (-0x10000000005)) (.double (.finite true .one))
        (-0x10000000005) (-1) ∧
      binary .unsignedRightShift (.integer (-0x10000000005)) (.double (.finite true .one)) =
        .ok (.integer 1) := by
  have minusOne : (Primitive.double (.finite true .one)).StandsFor (-1) :=
    .double (Double.toInt?_eq_some_iff.mp (by decide))
  exact ⟨minusOne, wordOperations (.integer _) minusOne, by decide⟩

end Native

end OperatorDispatch
