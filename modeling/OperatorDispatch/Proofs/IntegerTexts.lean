import Mathlib.Data.List.TakeWhile
import Mathlib.Data.Nat.Digits.Defs
import OperatorDispatch.Text.Integer

/-!
# The grammar of integers as text

An integer is read by dropping blanks, taking a sign off, taking the longest run of
digits and looking at what is left.  `IntegerText` is the grammar that this comes to:
blanks, a sign or none, a row of digits of any script with single underscores between
them, blanks; and the value of the row in the decimal system.  `readInteger_eq_ok_iff`
says that a text is read as an integer exactly if the grammar gives it that integer.

The longest run is no choice: what follows a row of digits in the grammar is a blank or
the end, and neither is a digit or an underscore (`digitRun_append`).  What is written
for an integer is in the grammar, so it is read back, and every integer that the grammar
has a text for is written (`integerText_toString_iff`).
-/

namespace OperatorDispatch

/-! ## Characters -/

theorem zeroCodes_apart_blankCodes :
    ∀ b ∈ blankCodes, ∀ z ∈ zeroCodes, ¬ (z ≤ b ∧ b < z + 10) := by
  decide +kernel

theorem decimalDigit?_eq_none_iff {c : Char} :
    decimalDigit? c = none ↔ ∀ z ∈ zeroCodes, ¬ (z ≤ c.toNat ∧ c.toNat < z + 10) := by
  simp [decimalDigit?]

/-- No blank is a digit. -/
theorem decimalDigit?_of_isBlank {c : Char} (h : isBlank c = true) : decimalDigit? c = none :=
  decimalDigit?_eq_none_iff.mpr (zeroCodes_apart_blankCodes _ (List.contains_iff_mem.mp h))

theorem isBlank_of_isIntegerBlank {c : Char} (h : isIntegerBlank c = true) : isBlank c = true :=
  (Bool.and_eq_true_iff.mp h).1

theorem isBlank_of_decimalDigit? {c : Char} {d : Nat} (h : decimalDigit? c = some d) :
    isBlank c = false := by
  rw [← Bool.not_eq_true]
  intro blank
  rw [decimalDigit?_of_isBlank blank] at h
  cases h

theorem decimalDigit?_of_isDigit {c : Char} (h : c.isDigit = true) :
    decimalDigit? c = some (c.toNat - 48) := by
  have range : 48 ≤ c.toNat ∧ c.toNat < 58 := by
    simp only [Char.isDigit, Bool.and_eq_true, decide_eq_true_eq] at h
    exact ⟨h.1, Nat.lt_succ_of_le h.2⟩
  simp [decimalDigit?, zeroCodes, range]

/-! ## The grammar -/

/-- A text with characters of a class before it and behind it. -/
def Padded (p : Char → Bool) (core text : List Char) : Prop :=
  ∃ before after, text = before ++ core ++ after ∧ (∀ c ∈ before, p c = true) ∧
    ∀ c ∈ after, p c = true

/-- A sign or none, and whether it is a minus. -/
inductive SignMark : List Char → Bool → Prop
  | absent : SignMark [] false
  | plus : SignMark ['+'] false
  | minus : SignMark ['-'] true

/-- A row of decimal digits, with an underscore between two of them or none. -/
inductive DigitRow : List Char → List Nat → Prop
  | last {c : Char} {d : Nat} (digit : decimalDigit? c = some d) : DigitRow [c] [d]
  | next {c : Char} {d : Nat} {cs : List Char} {ds : List Nat}
      (digit : decimalDigit? c = some d) (rest : DigitRow cs ds) : DigitRow (c :: cs) (d :: ds)
  | spaced {c : Char} {d : Nat} {cs : List Char} {ds : List Nat}
      (digit : decimalDigit? c = some d) (rest : DigitRow cs ds) :
      DigitRow (c :: '_' :: cs) (d :: ds)

/-- The integer of a size, under a minus or not. -/
def withSign (negative : Bool) (size : Nat) : Int :=
  if negative then -size else size

/-- A text that stands for an integer. -/
def IntegerText (text : String) (n : Int) : Prop :=
  ∃ sign row negative digits, Padded isIntegerBlank (sign ++ row) text.toList ∧
    SignMark sign negative ∧ DigitRow row digits ∧ digits.length ≤ digitLimit ∧
    n = withSign negative (Nat.ofDigits 10 digits.reverse)

variable {cs rest row before after : List Char} {ds : List Nat} {negative : Bool}

/-! ## The run of digits -/

theorem DigitRow.exists_cons (h : DigitRow row ds) :
    ∃ c d cs, row = c :: cs ∧ decimalDigit? c = some d := by
  cases h with
  | last digit | next digit | spaced digit => exact ⟨_, _, _, rfl, digit⟩

theorem ne_of_digit {c c' : Char} {d : Nat} (h : decimalDigit? c = some d)
    (none : decimalDigit? c' = none) : c ≠ c' := by
  rintro rfl
  cases h.symm.trans none

/-- What may follow a run of digits: nothing that would make it longer. -/
def Stops (rest : List Char) : Prop :=
  ∀ c ∈ rest.head?, c ≠ '_' ∧ decimalDigit? c = none

theorem stops_of_blank (h : ∀ c ∈ rest, isIntegerBlank c = true) : Stops rest := by
  intro c hc
  have blank := isBlank_of_isIntegerBlank (h c (List.mem_of_mem_head? hc))
  refine ⟨?_, decimalDigit?_of_isBlank blank⟩
  rintro rfl
  exact absurd blank (by decide)

theorem digitRun_cons_cons {c c' : Char} (apart : c' ≠ '_') :
    digitRun (c :: c' :: cs) =
      (decimalDigit? c).bind fun d =>
        if (decimalDigit? c').isSome then
          (digitRun (c' :: cs)).map fun run => ⟨d :: run.digits, run.rest⟩
        else
          some ⟨[d], c' :: cs⟩ := by
  rw [digitRun]
  exact apart

/-- The run is as long as the row, if nothing behind it makes it longer. -/
theorem digitRun_append (h : DigitRow row ds) (stops : Stops rest) :
    digitRun (row ++ rest) = some ⟨ds, rest⟩ := by
  induction h with
  | @last c d digit =>
      cases rest with
      | nil => simp [digitRun, digit]
      | cons c' cs =>
          obtain ⟨apart, none⟩ := stops c' rfl
          rw [List.singleton_append, digitRun_cons_cons apart]
          simp [digit, none]
  | @next c d cs ds digit further ih =>
      obtain ⟨c', d', cs', rfl, digit'⟩ := further.exists_cons
      rw [List.cons_append] at ih
      have apart : c' ≠ '_' := ne_of_digit digit' (by decide)
      rw [List.cons_append, List.cons_append, digitRun_cons_cons apart, ih]
      simp [digit, digit']
  | spaced digit _ ih =>
      rw [List.cons_append, List.cons_append, digitRun, ih, digit]
      rfl

/-- A run is a row of digits, and its rest is what follows. -/
theorem digitRow_of_digitRun {run : DigitRun} (h : digitRun cs = some run) :
    ∃ row, cs = row ++ run.rest ∧ DigitRow row run.digits := by
  fun_induction digitRun cs generalizing run with
  | case1 => cases h
  | case2 c =>
      obtain ⟨d, digit, rfl⟩ := Option.map_eq_some_iff.mp h
      exact ⟨[c], rfl, .last digit⟩
  | case3 c cs ih =>
      obtain ⟨d, digit, h⟩ := Option.bind_eq_some_iff.mp h
      obtain ⟨run', further, rfl⟩ := Option.map_eq_some_iff.mp h
      obtain ⟨row, split, digits⟩ := ih further
      exact ⟨c :: '_' :: row, by rw [split]; rfl, .spaced digit digits⟩
  | case4 c c' cs apart ih =>
      obtain ⟨d, digit, h⟩ := Option.bind_eq_some_iff.mp h
      split at h
      · obtain ⟨run', further, rfl⟩ := Option.map_eq_some_iff.mp h
        obtain ⟨row, split, digits⟩ := ih further
        exact ⟨c :: row, by rw [split]; rfl, .next digit digits⟩
      · cases h
        exact ⟨[c], rfl, .last digit⟩

/-! ## The sign and the blanks -/

theorem integerSign_append {sign : List Char} (mark : SignMark sign negative)
    (digits : DigitRow row ds) : integerSign (sign ++ row ++ rest) = (negative, row ++ rest) := by
  cases mark with
  | plus | minus => rfl
  | absent =>
      obtain ⟨c, d, cs, rfl, digit⟩ := digits.exists_cons
      have unsigned : c ≠ '-' ∧ c ≠ '+' :=
        ⟨ne_of_digit digit (by decide), ne_of_digit digit (by decide)⟩
      simp [integerSign, unsigned]

theorem signMark_of_integerSign (h : integerSign cs = (negative, rest)) :
    ∃ sign, cs = sign ++ rest ∧ SignMark sign negative := by
  unfold integerSign at h
  split at h <;> cases h
  · exact ⟨['-'], rfl, .minus⟩
  · exact ⟨['+'], rfl, .plus⟩
  · exact ⟨[], rfl, .absent⟩

theorem dropWhile_append_of_stop {p : Char → Bool} (dropped : ∀ c ∈ before, p c = true)
    (stop : ∀ c ∈ rest.head?, p c = false) : (before ++ rest).dropWhile p = rest := by
  rw [List.dropWhile_append_of_pos dropped]
  cases rest with
  | nil => rfl
  | cons c cs => rw [List.dropWhile_cons_of_neg (by simp [stop c rfl])]

theorem isIntegerBlank_head {sign : List Char} (mark : SignMark sign negative)
    (digits : DigitRow row ds) : ∀ c ∈ (sign ++ row ++ rest).head?, isIntegerBlank c = false := by
  intro c hc
  cases mark with
  | plus | minus =>
      cases hc
      decide
  | absent =>
      obtain ⟨c', d, cs, rfl, digit⟩ := digits.exists_cons
      cases hc
      rw [isIntegerBlank, isBlank_of_decimalDigit? digit, Bool.false_and]

/-! ## The value -/

theorem ofDigits_eq (ds : List Nat) : ofDigits ds = Nat.ofDigits 10 ds.reverse := by
  rw [Nat.ofDigits_eq_foldr, List.foldr_reverse, ofDigits]
  simp only [Nat.cast_id, add_comm, mul_comm]

/-! ## Reading -/

variable {text : String} {n : Int}

theorem readInteger_of_integerText (h : IntegerText text n) : readInteger text = .ok n := by
  obtain ⟨sign, row, negative, ds, padded, mark, digits, size, rfl⟩ := h
  obtain ⟨before, after, split, blank, blank'⟩ := padded
  have body : text.toList.dropWhile isIntegerBlank = sign ++ row ++ after := by
    rw [split, List.append_assoc]
    exact dropWhile_append_of_stop blank (isIntegerBlank_head mark digits)
  have run := digitRun_append digits (stops_of_blank blank')
  simp only [readInteger, body, integerSign_append mark digits, run, Nat.not_lt.mpr size, if_false,
    List.all_eq_true.mpr blank', Bool.not_true, ofDigits_eq]
  rfl

theorem integerText_of_readInteger (h : readInteger text = .ok n) : IntegerText text n := by
  unfold readInteger at h
  generalize signed : integerSign (text.toList.dropWhile isIntegerBlank) = parts at h
  obtain ⟨negative, body⟩ := parts
  obtain ⟨sign, split, mark⟩ := signMark_of_integerSign signed
  simp only at h
  split at h
  · cases h
  · rename_i run found
    obtain ⟨row, split', digits⟩ := digitRow_of_digitRun found
    split at h
    · cases h
    · rename_i size
      split at h
      · cases h
      · rename_i blank
        cases h
        refine ⟨sign, row, negative, run.digits, ⟨text.toList.takeWhile isIntegerBlank, run.rest,
          ?_, fun c => List.mem_takeWhile_imp, ?_⟩, mark, digits, Nat.not_lt.mp size, ?_⟩
        · rw [List.append_assoc, List.append_assoc, ← split', ← split,
            List.takeWhile_append_dropWhile]
        · simpa using blank
        · rw [ofDigits_eq]
          rfl

/-- A text is read as an integer exactly if it stands for it. -/
theorem readInteger_eq_ok_iff : readInteger text = .ok n ↔ IntegerText text n :=
  ⟨integerText_of_readInteger, readInteger_of_integerText⟩

example : readInteger " +1_024\n" = .ok 1024 := by rfl

example : readInteger "1__024" = .error .malformed := by rfl

/-- What is too long has more digits than the limit. -/
theorem digitLimit_lt_of_tooLong {digits : Nat} (h : readInteger text = .error (.tooLong digits)) :
    digitLimit < digits := by
  unfold readInteger at h
  simp only at h
  split at h
  · cases h
  · split at h
    · cases h
      assumption
    · split at h <;> cases h

/-! ## Writing and reading back -/

theorem digitRow_of_isDigit (h : ∀ c ∈ cs, c.isDigit = true) (some : cs ≠ []) :
    DigitRow cs (cs.map fun c => c.toNat - 48) := by
  induction cs with
  | nil => exact absurd rfl some
  | cons c cs ih =>
      have digit := decimalDigit?_of_isDigit (h c List.mem_cons_self)
      cases cs with
      | nil => exact .last digit
      | cons c' cs =>
          have others : ∀ c ∈ c' :: cs, c.isDigit = true :=
            fun c hc => h c (List.mem_cons_of_mem _ hc)
          exact .next digit (ih others (List.cons_ne_nil _ _))

/-- The decimal digits of a natural number, as many as there may be. -/
theorem exists_digitRow {k limit : Nat} (some : 0 < limit) (small : k < Nat.pow 10 limit) :
    ∃ ds, DigitRow (Nat.toDigits 10 k) ds ∧ ds.length ≤ limit ∧
      Nat.ofDigits 10 ds.reverse = k := by
  refine ⟨_, digitRow_of_isDigit (fun c => Nat.isDigit_of_mem_toDigits (by decide) (by decide)) ?_,
    ?_, ?_⟩
  · exact Nat.toDigits_ne_nil
  · rw [List.length_map]
    exact (Nat.length_toDigits_le_iff (by decide) some).mpr small
  · rw [← ofDigits_eq, ofDigits, List.foldl_map]
    have read := Nat.ofDigitChars_toDigits (b := 10) (n := k) (by decide) (by decide)
    simp only [Nat.ofDigitChars, mul_comm] at read
    exact read

theorem exists_signMark (n : Int) :
    ∃ sign negative, (toString n).toList = sign ++ Nat.toDigits 10 n.natAbs ∧
      SignMark sign negative ∧ n = withSign negative n.natAbs := by
  have written : toString n = n.repr := rfl
  rw [written, Int.repr_eq_if]
  split
  · rename_i nonneg
    have size : n.toNat = n.natAbs := by omega
    refine ⟨[], false, ?_, .absent, (Int.natAbs_of_nonneg nonneg).symm⟩
    rw [size, Nat.repr_eq_ofList_toDigits, String.toList_ofList, List.nil_append]
  · rename_i negative
    have size : (-n).toNat = n.natAbs := by omega
    refine ⟨['-'], true, ?_, .minus, ?_⟩
    · rw [size, Nat.repr_eq_ofList_toDigits, String.toList_append, String.toList_ofList,
        String.toList_ofList]
    · rw [withSign, if_pos rfl]
      omega

theorem integerText_toString (small : n.natAbs < Nat.pow 10 digitLimit) :
    IntegerText (toString n) n := by
  obtain ⟨sign, negative, split, mark, value⟩ := exists_signMark n
  obtain ⟨ds, digits, length, size⟩ := exists_digitRow (by decide) small
  refine ⟨sign, _, negative, ds, ⟨[], [], ?_, nofun, nofun⟩, mark, digits, length, ?_⟩
  · rw [split, List.nil_append, List.append_nil]
  · rw [size]
    exact value

theorem lt_of_decimalDigit? {c : Char} {d : Nat} (h : decimalDigit? c = some d) : d < 10 := by
  obtain ⟨first, found, rfl⟩ := Option.map_eq_some_iff.mp h
  have range := List.find?_some found
  simp only [Bool.and_eq_true, decide_eq_true_eq] at range
  omega

theorem DigitRow.lt (h : DigitRow row ds) : ∀ d ∈ ds, d < 10 := by
  induction h with
  | last digit => exact List.forall_mem_singleton.mpr (lt_of_decimalDigit? digit)
  | next digit _ ih | spaced digit _ ih =>
      exact List.forall_mem_cons.mpr ⟨lt_of_decimalDigit? digit, ih⟩

theorem DigitRow.value_lt {limit : Nat} (h : DigitRow row ds) (length : ds.length ≤ limit) :
    Nat.ofDigits 10 ds.reverse < Nat.pow 10 limit := by
  refine lt_of_lt_of_le ?_ (Nat.pow_le_pow_right (by decide) length)
  rw [← List.length_reverse]
  exact Nat.ofDigits_lt_base_pow_length (by decide) fun d hd => h.lt d (List.mem_reverse.mp hd)

theorem natAbs_withSign (negative : Bool) (size : Nat) :
    (withSign negative size).natAbs = size := by
  cases negative <;> simp [withSign]

/-- Only integers within the limit have a text. -/
theorem natAbs_lt_of_integerText (h : IntegerText text n) : n.natAbs < Nat.pow 10 digitLimit := by
  obtain ⟨sign, row, negative, ds, -, -, digits, length, rfl⟩ := h
  rw [natAbs_withSign]
  exact digits.value_lt length

/-- An integer is read back from its decimal text exactly if some text stands for it. -/
theorem integerText_toString_iff : IntegerText (toString n) n ↔ ∃ text, IntegerText text n :=
  ⟨fun h => ⟨_, h⟩, fun ⟨_, h⟩ => integerText_toString (natAbs_lt_of_integerText h)⟩

end OperatorDispatch
