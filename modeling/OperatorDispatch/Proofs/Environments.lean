import Mathlib.Data.List.Basic
import OperatorDispatch.Settings
import OperatorDispatch.Proofs.IntegerTexts

/-!
# What environments ask for

The settings of an environment, for every environment: what each variable asks for
(`Settings.Asks`, `Settings.SwitchedOff`), which settings that makes
(`Settings.AskedBy`) and which environments make none (`Settings.Malformed`).

A flag is switched off by four words, with no regard to capitals and blanks.  Texts are
lowered by ASCII alone, and it makes no difference: any other lowering that does as much
to ASCII and leaves a foreign character for each one beyond it finds the same four words
(`Settings.Lowers`).
-/

namespace OperatorDispatch

/-! ## Texts without the blanks around them -/

/-- What is left of a text without a class of characters at its ends. -/
structure Stripped (p : Char → Bool) (core text : List Char) : Prop where
  padded : Padded p core text
  first : ∀ c ∈ core.head?, p c = false
  last : ∀ c ∈ core.getLast?, p c = false

variable {p : Char → Bool} {core cs : List Char}

theorem head?_dropWhile (p : Char → Bool) (cs : List Char) :
    ∀ c ∈ (cs.dropWhile p).head?, p c = false := by
  intro c hc
  have stop := List.head?_dropWhile_not p cs
  rwa [hc] at stop

theorem trimBoth_append (p : Char → Bool) (cs : List Char) :
    trimBoth p cs ++ ((cs.dropWhile p).reverse.takeWhile p).reverse = cs.dropWhile p := by
  rw [trimBoth, ← List.reverse_append, List.takeWhile_append_dropWhile, List.reverse_reverse]

theorem stripped_trimBoth (p : Char → Bool) (cs : List Char) : Stripped p (trimBoth p cs) cs where
  padded := by
    refine ⟨cs.takeWhile p, ((cs.dropWhile p).reverse.takeWhile p).reverse, ?_, ?_, ?_⟩
    · rw [List.append_assoc, trimBoth_append, List.takeWhile_append_dropWhile]
    · exact fun c => List.mem_takeWhile_imp
    · exact fun c hc => List.mem_takeWhile_imp (List.mem_reverse.mp hc)
  first c hc := by
    refine head?_dropWhile p cs c ?_
    rw [← trimBoth_append, List.head?_append, hc]
    rfl
  last c hc := by
    rw [trimBoth, List.getLast?_reverse] at hc
    exact head?_dropWhile p _ c hc

theorem trimBoth_of_stripped (h : Stripped p core cs) : trimBoth p cs = core := by
  obtain ⟨⟨before, after, rfl, dropped, dropped'⟩, first, last⟩ := h
  rcases eq_or_ne core [] with rfl | some
  · have all : (before ++ [] ++ after).dropWhile p = [] := by
      rw [List.dropWhile_eq_nil_iff, List.append_nil]
      exact List.forall_mem_append.mpr ⟨dropped, dropped'⟩
    rw [trimBoth, all]
    rfl
  · have front : (before ++ core ++ after).dropWhile p = core ++ after := by
      rw [List.append_assoc]
      refine dropWhile_append_of_stop dropped ?_
      rwa [List.head?_append_of_ne_nil _ some]
    have back : (core ++ after).reverse.dropWhile p = core.reverse := by
      rw [List.reverse_append]
      refine dropWhile_append_of_stop (fun c hc => dropped' c (List.mem_reverse.mp hc)) ?_
      rwa [List.head?_reverse]
    rw [trimBoth, front, back, List.reverse_reverse]

theorem stripped_iff : Stripped p core cs ↔ trimBoth p cs = core := by
  constructor
  · exact trimBoth_of_stripped
  · rintro rfl
    exact stripped_trimBoth p cs

/-- A text of blanks only, or of nothing. -/
def Blank (text : String) : Prop :=
  ∀ c ∈ text.toList, isBlank c = true

theorem Blank.trimBoth {text : String} (h : Blank text) : trimBoth isBlank text.toList = [] :=
  trimBoth_of_stripped ⟨⟨text.toList, [], by simp, h, nofun⟩, nofun, nofun⟩

theorem IntegerText.not_blank {text : String} {n : Int} (h : IntegerText text n) :
    ¬ Blank text := by
  obtain ⟨sign, row, negative, ds, ⟨before, after, split, -, -⟩, -, digits, -, -⟩ := h
  obtain ⟨c, d, cs, rfl, digit⟩ := digits.exists_cons
  intro blank
  have all := blank c (by simp [split])
  rw [isBlank_of_decimalDigit? digit] at all
  cases all

namespace Settings

/-! ## Flags -/

/-- A way of lowering texts: letter by letter in ASCII, and so that a character beyond
ASCII leaves one that is in none of the off words. -/
structure Lowers (lower : List Char → List Char) : Prop where
  ascii : ∀ cs, (∀ c ∈ cs, c.toNat < 128) → lower cs = cs.map Char.toLower
  beyond : ∀ cs, ∀ c ∈ cs, 128 ≤ c.toNat → ∃ d ∈ lower cs, ∀ word ∈ offWords, d ∉ word.toList

/-- A text that switches a flag off: stripped and lowered, it is one of the off words. -/
def SwitchesOff (lower : List Char → List Char) (text : String) : Prop :=
  ∃ core, Stripped isBlank core text.toList ∧ ∃ word ∈ offWords, lower core = word.toList

/-- A variable that switches its flag off. -/
def SwitchedOff (lower : List Char → List Char) (environment : Environment) (name : String) :
    Prop :=
  ∃ text, environment.get? name = some text ∧ SwitchesOff lower text

variable {lower lower' : List Char → List Char}

theorem toLower_of_beyond {c : Char} (h : 128 ≤ c.toNat) : c.toLower = c := by
  refine dif_neg ?_
  rintro ⟨-, capital⟩
  have upper : c.toNat ≤ 90 := capital
  omega

theorem offWords_ascii : ∀ word ∈ offWords, ∀ c ∈ word.toList, c.toNat < 128 := by
  simp [offWords]

theorem offWords_ne_nil : ∀ word ∈ offWords, word.toList ≠ [] := by
  simp [offWords]

theorem lowers_map_toLower : Lowers (·.map Char.toLower) where
  ascii _ _ := rfl
  beyond cs c hc beyond := by
    refine ⟨c, List.mem_map.mpr ⟨c, hc, toLower_of_beyond beyond⟩, fun word off mem => ?_⟩
    exact absurd (offWords_ascii word off c mem) (Nat.not_lt.mpr beyond)

theorem Lowers.ne_word (h : Lowers lower) {c : Char} (hc : c ∈ core) (beyond : 128 ≤ c.toNat)
    {word : String} (off : word ∈ offWords) : lower core ≠ word.toList := by
  obtain ⟨d, hd, foreign⟩ := h.beyond core c hc beyond
  intro same
  exact foreign word off (same ▸ hd)

theorem Lowers.eq_word_iff (h : Lowers lower) (h' : Lowers lower') {word : String}
    (off : word ∈ offWords) : lower core = word.toList ↔ lower' core = word.toList := by
  by_cases ascii : ∀ c ∈ core, c.toNat < 128
  · rw [h.ascii core ascii, h'.ascii core ascii]
  · push Not at ascii
    obtain ⟨c, hc, beyond⟩ := ascii
    exact iff_of_false (h.ne_word hc beyond off) (h'.ne_word hc beyond off)

/-- All lowerings find the same words. -/
theorem Lowers.switchesOff_iff (h : Lowers lower) (h' : Lowers lower') (text : String) :
    SwitchesOff lower text ↔ SwitchesOff lower' text :=
  exists_congr fun _ => and_congr_right fun _ => exists_congr fun _ =>
    and_congr_right fun off => h.eq_word_iff h' off

variable {environment : Environment} {name text : String}

theorem present?_of_blank (set : environment.get? name = some text) (blank : Blank text) :
    present? environment name = none := by
  rw [present?, set]
  exact if_pos (List.all_eq_true.mpr blank)

theorem present?_of_not_blank (set : environment.get? name = some text)
    (marked : ¬ Blank text) : present? environment name = some text := by
  rw [present?, set]
  exact if_neg fun blank => marked (List.all_eq_true.mp blank)

theorem present?_of_unset (unset : environment.get? name = none) :
    present? environment name = none := by
  rw [present?, unset]

/-- A flag is off exactly if its variable switches it off. -/
theorem flag_eq_false_iff (lowers : Lowers lower) :
    flag environment name = false ↔ SwitchedOff lower environment name := by
  cases set : environment.get? name with
  | none =>
      rw [flag, present?_of_unset set, SwitchedOff, set]
      exact iff_of_false nofun nofun
  | some text =>
      have own : SwitchedOff lower environment name ↔ SwitchesOff lower text := by
        rw [SwitchedOff, set]
        exact ⟨fun ⟨_, rfl, off⟩ => off, fun off => ⟨text, rfl, off⟩⟩
      rw [own, lowers.switchesOff_iff lowers_map_toLower, SwitchesOff]
      simp only [stripped_iff, exists_eq_left']
      by_cases blank : Blank text
      · rw [flag, present?_of_blank set blank, blank.trimBoth]
        exact iff_of_false nofun fun ⟨word, off, empty⟩ => offWords_ne_nil word off empty.symm
      · rw [flag, present?_of_not_blank set blank]
        simp only [Bool.not_eq_false', List.contains_iff_mem]
        constructor
        · exact fun off => ⟨_, off, String.toList_ofList.symm⟩
        · rintro ⟨word, off, same⟩
          rwa [same, String.ofList_toList]

theorem eq_flag_iff (lowers : Lowers lower) {b : Bool} :
    b = flag environment name ↔ (b = false ↔ SwitchedOff lower environment name) := by
  rw [← flag_eq_false_iff lowers]
  cases b <;> cases flag environment name <;> decide

/-! ## The limit -/

/-- What an integer setting is asked to be: the integer that its text stands for, or what
it is when absent, where the variable is absent or blank. -/
inductive Asks (environment : Environment) (name : String) (absent : Int) : Int → Prop
  | unset (unset : environment.get? name = none) : Asks environment name absent absent
  | blank {text : String} (set : environment.get? name = some text) (blank : Blank text) :
      Asks environment name absent absent
  | written {text : String} {n : Int} (set : environment.get? name = some text)
      (stands : IntegerText text n) : Asks environment name absent n

variable {absent n : Int}

theorem integer_of_asks (h : Asks environment name absent n) :
    integer environment name absent = .ok n := by
  cases h with
  | unset unset => rw [integer, present?_of_unset unset]
  | blank set blank => rw [integer, present?_of_blank set blank]
  | written set stands =>
      rw [integer, present?_of_not_blank set stands.not_blank]
      simp only [readInteger_of_integerText stands]

/-- Texts that ask an integer setting for nothing that it could be. -/
def Malformed (text : String) : Prop :=
  ¬ Blank text ∧ ¬ ∃ n, IntegerText text n

/-- What a malformed text is refused with: it is no integer, or has too many digits. -/
inductive RefusedWith (text : String) : Fault → Prop
  | malformed : RefusedWith text (.malformedInteger text)
  | tooLong {digits : Nat} (many : digitLimit < digits) : RefusedWith text (.integerTooLong digits)

theorem integer_of_malformed (set : environment.get? name = some text) (bad : Malformed text) :
    ∃ fault, RefusedWith text fault ∧ integer environment name absent = .error fault := by
  rw [integer, present?_of_not_blank set bad.1]
  dsimp only
  cases read : readInteger text with
  | ok n => exact absurd ⟨n, integerText_of_readInteger read⟩ bad.2
  | error why =>
      cases why with
      | malformed => exact ⟨_, .malformed, rfl⟩
      | tooLong digits => exact ⟨_, .tooLong (digitLimit_lt_of_tooLong read), rfl⟩

/-- An integer setting is asked for something, or its text is malformed. -/
theorem asks_or_malformed (environment : Environment) (name : String) (absent : Int) :
    (∃ n, Asks environment name absent n) ∨
      ∃ text, environment.get? name = some text ∧ Malformed text := by
  cases set : environment.get? name with
  | none => exact .inl ⟨absent, .unset set⟩
  | some text =>
      by_cases blank : Blank text
      · exact .inl ⟨absent, .blank set blank⟩
      · by_cases stands : ∃ n, IntegerText text n
        · obtain ⟨n, stands⟩ := stands
          exact .inl ⟨n, .written set stands⟩
        · exact .inr ⟨text, rfl, blank, stands⟩

theorem integer_eq_ok_iff :
    integer environment name absent = .ok n ↔ Asks environment name absent n := by
  refine ⟨fun h => ?_, integer_of_asks⟩
  rcases asks_or_malformed environment name absent with ⟨m, asks⟩ | ⟨text, set, bad⟩
  · cases h.symm.trans (integer_of_asks asks)
    exact asks
  · obtain ⟨fault, -, refused⟩ := integer_of_malformed set bad
    cases h.symm.trans refused

theorem malformed_of_integer {fault : Fault} (h : integer environment name absent = .error fault) :
    ∃ text, environment.get? name = some text ∧ Malformed text ∧ RefusedWith text fault := by
  rcases asks_or_malformed environment name absent with ⟨m, asks⟩ | ⟨text, set, bad⟩
  · cases h.symm.trans (integer_of_asks asks)
  · obtain ⟨fault', why, refused⟩ := integer_of_malformed set bad
    cases h.symm.trans refused
    exact ⟨text, set, bad, why⟩

/-! ## Settings -/

variable {settings : Settings}

/-- The settings that an environment asks for. -/
structure AskedBy (lower : List Char → List Char) (environment : Environment)
    (settings : Settings) : Prop where
  traceSpans : settings.traceSpans = false ↔ SwitchedOff lower environment "ODRE_TRACE_SPANS"
  recordMetrics :
    settings.recordMetrics = false ↔ SwitchedOff lower environment "ODRE_RECORD_METRICS"
  ledgerLimit : Asks environment "ODRE_LEDGER_LIMIT" 1024 settings.ledgerLimit
  /-- No variable sets the answer of the not-a-number fallback. -/
  sentinel : settings.sentinel = .double .nan

/-- The settings of an environment, one by one. -/
theorem ofEnvironment_eq_ok_iff :
    ofEnvironment environment = .ok settings ↔
      settings.traceSpans = flag environment "ODRE_TRACE_SPANS" ∧
        settings.recordMetrics = flag environment "ODRE_RECORD_METRICS" ∧
        integer environment "ODRE_LEDGER_LIMIT" Ledger.defaultLimit = .ok settings.ledgerLimit ∧
        settings.sentinel = .double .nan := by
  unfold ofEnvironment
  constructor
  · intro h
    split at h
    · cases h
    · rename_i limit read
      cases h
      exact ⟨rfl, rfl, read, rfl⟩
  · rintro ⟨spans, metrics, limit, sentinel⟩
    rw [limit, ← spans, ← metrics, standard, ← sentinel]

theorem askedBy_iff (lowers : Lowers lower) :
    settings.AskedBy lower environment ↔ ofEnvironment environment = .ok settings := by
  rw [ofEnvironment_eq_ok_iff, eq_flag_iff lowers, eq_flag_iff lowers, integer_eq_ok_iff]
  constructor
  · exact fun asked => ⟨asked.traceSpans, asked.recordMetrics, asked.ledgerLimit, asked.sentinel⟩
  · exact fun ⟨spans, metrics, limit, sentinel⟩ => ⟨spans, metrics, limit, sentinel⟩

/-- The limit is the one setting that can be refused. -/
theorem ledgerLimit_ofEnvironment (environment : Environment) :
    (ofEnvironment environment).map ledgerLimit =
      integer environment "ODRE_LEDGER_LIMIT" Ledger.defaultLimit := by
  unfold ofEnvironment
  split <;> rename_i read <;> rw [read] <;> rfl

theorem ofEnvironment_eq_error_iff {fault : Fault} :
    ofEnvironment environment = .error fault ↔
      integer environment "ODRE_LEDGER_LIMIT" Ledger.defaultLimit = .error fault := by
  rw [← ledgerLimit_ofEnvironment]
  cases ofEnvironment environment <;> simp [Except.map]

theorem exists_settings_of_asks
    (h : Asks environment "ODRE_LEDGER_LIMIT" Ledger.defaultLimit n) :
    ∃ settings, ofEnvironment environment = .ok settings ∧ settings.ledgerLimit = n := by
  have limit := (ledgerLimit_ofEnvironment environment).trans (integer_of_asks h)
  cases made : ofEnvironment environment with
  | error fault =>
      rw [made] at limit
      cases limit
  | ok settings =>
      rw [made] at limit
      cases limit
      exact ⟨settings, rfl, rfl⟩

theorem present?_congr {other : Environment} (same : other.get? name = environment.get? name) :
    present? other name = present? environment name := by
  rw [present?, present?, same]

theorem flag_congr {other : Environment} (same : other.get? name = environment.get? name) :
    flag other name = flag environment name := by
  rw [flag, flag, present?_congr same]

theorem integer_congr {other : Environment} (same : other.get? name = environment.get? name) :
    integer other name absent = integer environment name absent := by
  rw [integer, integer, present?_congr same]

/-- Each setting looks at its own variable only: where two environments agree on it, they
agree on the setting, whatever else they hold. -/
structure ReadApart (environment other : Environment) : Prop where
  /-- The limit, or why it is refused. -/
  ledgerLimit : other.get? "ODRE_LEDGER_LIMIT" = environment.get? "ODRE_LEDGER_LIMIT" →
    (ofEnvironment other).map ledgerLimit = (ofEnvironment environment).map ledgerLimit
  traceSpans : other.get? "ODRE_TRACE_SPANS" = environment.get? "ODRE_TRACE_SPANS" →
    ∀ settings settings', ofEnvironment environment = .ok settings →
      ofEnvironment other = .ok settings' → settings'.traceSpans = settings.traceSpans
  recordMetrics : other.get? "ODRE_RECORD_METRICS" = environment.get? "ODRE_RECORD_METRICS" →
    ∀ settings settings', ofEnvironment environment = .ok settings →
      ofEnvironment other = .ok settings' → settings'.recordMetrics = settings.recordMetrics

theorem read_apart (environment other : Environment) : ReadApart environment other where
  ledgerLimit same := by
    rw [ledgerLimit_ofEnvironment, ledgerLimit_ofEnvironment, integer_congr same]
  traceSpans same settings settings' read read' := by
    obtain ⟨own, -⟩ := ofEnvironment_eq_ok_iff.mp read
    obtain ⟨own', -⟩ := ofEnvironment_eq_ok_iff.mp read'
    rw [own, own', flag_congr same]
  recordMetrics same settings settings' read read' := by
    obtain ⟨-, own, -⟩ := ofEnvironment_eq_ok_iff.mp read
    obtain ⟨-, own', -⟩ := ofEnvironment_eq_ok_iff.mp read'
    rw [own, own', flag_congr same]

/-- An environment is read exactly: it makes the settings that it asks for and no others,
and none only where its limit is malformed. -/
structure ReadExactly (environment : Environment) : Prop where
  asked : ∀ lower, Lowers lower → ∀ settings,
    ofEnvironment environment = .ok settings ↔ settings.AskedBy lower environment
  refused : (∃ fault, ofEnvironment environment = .error fault) ↔
    ∃ text, environment.get? "ODRE_LEDGER_LIMIT" = some text ∧ Malformed text
  fault : ∀ fault, ofEnvironment environment = .error fault →
    ∃ text, environment.get? "ODRE_LEDGER_LIMIT" = some text ∧ RefusedWith text fault
  /-- The decimal text of an integer that some text stands for is read as that integer. -/
  readBack : ∀ n, (∃ text, IntegerText text n) →
    environment.get? "ODRE_LEDGER_LIMIT" = some (toString n) →
      ∃ settings, ofEnvironment environment = .ok settings ∧ settings.ledgerLimit = n
  apart : ∀ other, ReadApart environment other

theorem read_exactly (environment : Environment) : ReadExactly environment where
  asked _ lowers _ := (askedBy_iff lowers).symm
  refused := by
    constructor
    · rintro ⟨fault, h⟩
      obtain ⟨text, set, bad, -⟩ := malformed_of_integer (ofEnvironment_eq_error_iff.mp h)
      exact ⟨text, set, bad⟩
    · rintro ⟨text, set, bad⟩
      obtain ⟨fault, -, refused⟩ := integer_of_malformed set bad
      exact ⟨fault, ofEnvironment_eq_error_iff.mpr refused⟩
  fault fault h := by
    obtain ⟨text, set, -, why⟩ := malformed_of_integer (ofEnvironment_eq_error_iff.mp h)
    exact ⟨text, set, why⟩
  readBack n stands set :=
    exists_settings_of_asks (.written set (integerText_toString_iff.mpr stands))
  apart := read_apart environment

end Settings

end OperatorDispatch
