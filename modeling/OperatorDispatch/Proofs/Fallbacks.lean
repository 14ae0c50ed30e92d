import OperatorDispatch.Proofs.Bookkeeping
import OperatorDispatch.Proofs.Endings

/-!
# Which fallbacks are logged

A dispatch for which no handler is found falls back: it ends with the outcome
`default`, or it refuses the operator itself.  Such a dispatch logs one row, with
the token, the name of what the left operand is and the policy that was applied,
and no other dispatch logs anything.

The equalities of two operands are the exception.  Two distinct values without a
handler are unequal, and that answer is given on the spot, without the row that the
policy for the category would have written.

The rows of a whole run are those that it has read and those still in the journal
(`State.rowsLogged`).  That they are told by the history is kept by every booking,
so it holds in every reachable state (`fallbacks_logged`).
-/

namespace OperatorDispatch

/-! ## Defaults -/

/-- The policy of a category for a left operand. -/
def Category.policyOn (c : Category) : Value → Fallback
  | .primitive _ => c.primitiveFallback
  | .function _ | .object _ => c.fallback

namespace Application

/-- Whether the application is an equality of two operands. -/
def isEquality (a : Application) : Bool :=
  match a.form with
  | .binary .. => a.operator.category == .equality
  | .unary _ | .step .. => false

/-- What a decision has to do with defaults: an equality answers with one, and every
other application falls back to the policy. -/
inductive Defaults (h : Heap) (a : Application) : Decision → Prop
  | unequal (v : Value) (equality : a.isEquality = true) : Defaults h a (.answer v .default)
  | fallsBack (other : a.isEquality = false) :
      Defaults h a (.fallBack (a.operator.category.policyOn a.arguments.this)
        (h.classify a.arguments.this).typeName)
  | answers (v : Value) {outcome : Outcome} (regular : outcome ≠ .default) :
      Defaults h a (.answer v outcome)
  | fails (fault : NativeFault) : Defaults h a (.fail fault)
  | calls (f : Function) (arguments : Arguments) (use : Use) :
      Defaults h a (.invoke f arguments use)

end Application

namespace Decision

open Application (Defaults)

variable {h : Heap} {a : Application} {o : Operator} {lhs rhs operand : Value}

theorem defaults_ofNative (other : a.isEquality = false) {p : Primitive}
    (primitive : a.arguments.this = .primitive p) {result : Primitive → Primitive}
    {r : Except NativeFault Primitive} :
    a.Defaults h (ofNative a.operator.category p.kind.name result r) := by
  unfold ofNative
  split
  · exact .answers _ (by decide)
  · have falls := Defaults.fallsBack (h := h) other
    rw [primitive] at falls
    exact falls
  · exact .fails _

/-- An equality does not ask for the policy. -/
theorem defaults_equality (equality : o.category = .equality) :
    Defaults h ⟨o, .binary lhs rhs⟩ (Decision.equality h lhs rhs) := by
  unfold Decision.equality
  split
  · exact .answers _ (by decide)
  · split
    · exact .calls _ _ _
    · split
      · exact .answers _ (by decide)
      · exact .unequal _ (by simp [Application.isEquality, equality])

theorem defaults_strictEquality (equality : o.category = .equality) :
    Defaults h ⟨o, .binary lhs rhs⟩ (strictEquality h lhs rhs) := by
  unfold strictEquality
  split
  · exact .answers _ (by decide)
  · split
    · exact .calls _ _ _
    · unfold derivedEquality
      split
      · split
        · exact .calls _ _ _
        · exact .answers _ (by decide)
      · split
        · exact .answers _ (by decide)
        · exact .unequal _ (by simp [Application.isEquality, equality])

theorem defaults_binary (other : o.category ≠ .equality) :
    Defaults h ⟨o, .binary lhs rhs⟩ (binary h o lhs rhs) := by
  have unequal : (⟨o, .binary lhs rhs⟩ : Application).isEquality = false := by
    simp [Application.isEquality, other]
  cases lhs with
  | primitive p =>
      cases rhs with
      | primitive q => exact defaults_ofNative (a := ⟨o, .binary (.primitive p) _⟩) unequal rfl
      | function | object => exact .fallsBack unequal
  | function | object =>
      unfold binary
      dsimp only
      split
      · exact .calls _ _ _
      · exact .fallsBack unequal

theorem defaults_unary (other : a.isEquality = false) (ho : a.operator = o)
    (harguments : a.arguments.this = operand) {native : Primitive → Primitive} {use : Use} :
    a.Defaults h (unary h o operand native use) := by
  subst ho
  cases operand with
  | primitive p => exact defaults_ofNative other harguments
  | function | object =>
      have falls := Defaults.fallsBack (h := h) other
      rw [harguments] at falls
      unfold unary
      dsimp only
      split
      · exact .calls _ _ _
      · exact falls

end Decision

namespace Application

theorem defaults (h : Heap) (a : Application) : a.Defaults h (a.decide h) := by
  obtain ⟨o, form⟩ := a
  cases form with
  | binary lhs rhs =>
      dsimp only [decide]
      split
      · rename_i selector
        exact Decision.defaults_equality (by rw [Operator.category, selector]; rfl)
      · rename_i selector
        exact Decision.defaults_strictEquality (by rw [Operator.category, selector]; rfl)
      · rename_i notEquals notStrict
        refine Decision.defaults_binary fun equality => ?_
        rcases selector_of_equality equality with equals | strict
        · exact notEquals equals
        · exact notStrict strict
  | unary operand => exact Decision.defaults_unary rfl rfl rfl
  | step operand after => exact Decision.defaults_unary rfl rfl rfl

end Application

/-! ## The row about a dispatch -/

namespace DispatchRecord

/-- Whether the dispatch ended in a default: with the outcome of that name, or by
refusing the operator.  What a handler refuses is not the dispatch's own refusal. -/
def fallsBack (r : DispatchRecord) : Bool :=
  match r.ending with
  | .returned .default => true
  | .raised (.operatorNotDefined ..) => !r.decision.invokes
  | _ => false

/-- The row that tells of a dispatch as fallen back, with the operand called what it
is called on the heap. -/
def rowIn (r : DispatchRecord) (h : Heap) : LogRow :=
  .fallback r.literal (r.operandName h)
    (r.application.operator.category.policyOn r.application.arguments.this)

variable {r : DispatchRecord} {before : Heap}

/-- Falling back to a policy ends in a default, whatever the policy. -/
theorem fallsBack_of_alone {fallback : Fallback} {typeName : String}
    (decided : r.decision = .fallBack fallback typeName)
    (alone : ∀ result, r.application.ending? r.settings before r.decision = some result →
      r.ending = .ofExcept result) : r.fallsBack = true := by
  rw [decided] at alone
  unfold fallsBack
  cases fallback with
  | refuse =>
      rw [alone _ rfl, decided]
      rfl
  | sentinel | unequal =>
      rw [alone _ rfl]
      rfl

theorem fallsBack_eq_false (regular : r.ending ≠ .returned .default)
    (raised : ∀ category literal typeName,
      r.ending = .raised (.operatorNotDefined category literal typeName) →
        r.decision.invokes = true) : r.fallsBack = false := by
  unfold fallsBack
  split
  · rename_i returned
    exact absurd returned regular
  · rename_i refused
    simp [raised _ _ _ refused]
  · rfl

/-- A dispatch logs its row if it falls back and is no equality. -/
theorem TrueTo.rows_eq (hr : r.TrueTo before) :
    r.rows = if r.fallsBack && !r.application.isEquality then [r.rowIn before] else [] := by
  obtain ⟨settings, a, d, ending⟩ := r
  have decided : d = a.decide before := hr.decided
  have possible := a.defaults before
  rw [← decided] at possible
  cases possible with
  | unequal v equality => simp [rows, equality]
  | fallsBack other =>
      rw [fallsBack_of_alone rfl hr.alone, other]
      rfl
  | answers v regular =>
      have ended : ending = .returned _ := hr.alone _ rfl
      rw [fallsBack_eq_false (by simp [ended, regular]) (by simp [ended])]
      rfl
  | fails fault =>
      have ended : ending = .raised _ := hr.alone _ rfl
      rw [fallsBack_eq_false (by simp [ended]) (by simp [ended])]
      rfl
  | calls f arguments use =>
      have regular : ending ≠ .returned .default := by
        rintro rfl
        have led := hr.outcome .default rfl
        cases use <;> cases led
      rw [fallsBack_eq_false regular fun _ _ _ _ => rfl]
      rfl

/-- A row tells the same later on. -/
theorem rowIn_congr {h h' : Heap} (same : r.operandName h' = r.operandName h) :
    r.rowIn h' = r.rowIn h := by
  rw [rowIn, rowIn, same]

/-- Whether the dispatch has a row in the journal. -/
def isLogged (r : DispatchRecord) : Bool :=
  r.fallsBack && !r.application.isEquality

end DispatchRecord

/-! ## The rows of a run -/

/-- The rows logged so far, be they read or not, the oldest first. -/
def State.rowsLogged (s : State) : List LogRow :=
  s.heap.rowsRead ++ s.journal

namespace LogRow

/-- Rows about fallbacks are those that the dispatching part of the engine writes. -/
theorem isFallback_eq (row : LogRow) : row.isFallback = (row.logger == "odre.dispatch") := by
  cases row <;> simp [isFallback, logger]

end LogRow

/-- The rows about fallbacks are those of the history, and the operands in it are
called what they will be called. -/
structure State.LogsFallbacks (s : State) : Prop where
  named : ∀ r ∈ s.dispatches, ∀ h, s.heap.Later h → r.operandName h = r.operandName s.heap
  logged : s.rowsLogged.filter LogRow.isFallback =
    (s.dispatches.filter DispatchRecord.isLogged).map (·.rowIn s.heap)

namespace State.LogsFallbacks

variable {V : Vocabulary} {s s' : State}

/-- The rows of the history on a later heap. -/
theorem map_rowIn (hs : s.LogsFallbacks) {h : Heap} (hl : s.heap.Later h) :
    (s.dispatches.filter DispatchRecord.isLogged).map (·.rowIn h) =
      s.rowsLogged.filter LogRow.isFallback := by
  rw [hs.logged]
  refine List.map_congr_left fun r hr => ?_
  exact r.rowIn_congr (hs.named r (List.mem_filter.mp hr).1 h hl)

theorem named_later (hs : s.LogsFallbacks) {h : Heap} (hl : s.heap.Later h) :
    ∀ r ∈ s.dispatches, ∀ h', h.Later h' → r.operandName h' = r.operandName h := by
  intro r hr h' hl'
  rw [hs.named r hr h' (hl.trans hl'), hs.named r hr h hl]

/-- One booking keeps the account. -/
theorem booking (hs : s.LogsFallbacks) (h : s.Booking V s') : s'.LogsFallbacks := by
  cases h with
  | work later spared =>
      obtain ⟨rows, journal, plain⟩ := spared.journal
      have none : rows.filter LogRow.isFallback = [] :=
        List.filter_eq_nil_iff.mpr fun row hrow => by simp [plain row hrow]
      have kept : s'.rowsLogged.filter LogRow.isFallback =
          s.rowsLogged.filter LogRow.isFallback := by
        rw [rowsLogged, rowsLogged, spared.heap.rowsRead later, journal, ← List.append_assoc,
          List.filter_append, none, List.append_nil]
      refine ⟨?_, ?_⟩
      · rw [spared.dispatches]
        exact hs.named_later later
      · rw [kept, spared.dispatches, hs.map_rowIn later]
  | read =>
      have later : s.heap.Later (s.heap.allocate (.reading (.rows s.journal))).2 := .allocate _ _
      refine ⟨hs.named_later later, ?_⟩
      rw [hs.map_rowIn later, rowsLogged, rowsLogged, Heap.rowsRead_allocate, List.append_nil]
      rfl
  | span | increment | reset | limit | adopt => exact ⟨hs.named, hs.logged⟩
  | @settle r before later faithful =>
      have now : r.rowIn before = r.rowIn s.heap := (r.rowIn_congr (faithful.named _ later)).symm
      refine ⟨?_, ?_⟩
      · intro r' hr' h hl
        rcases List.mem_append.mp hr' with old | new
        · exact hs.named r' old h hl
        · obtain rfl := List.mem_singleton.mp new
          exact (faithful.named h (later.trans hl)).trans (faithful.named _ later).symm
      · have rows : r.rows.filter LogRow.isFallback =
            ([r].filter DispatchRecord.isLogged).map (·.rowIn s.heap) := by
          rw [faithful.rows_eq, now, List.filter_singleton]
          cases h : r.isLogged with
          | true =>
              rw [DispatchRecord.isLogged] at h
              rw [h]
              rfl
          | false =>
              rw [DispatchRecord.isLogged] at h
              rw [h]
              rfl
        have told : (s.settle r).rowsLogged = s.rowsLogged ++ r.rows :=
          (List.append_assoc ..).symm
        calc (s.settle r).rowsLogged.filter LogRow.isFallback
            = s.rowsLogged.filter LogRow.isFallback ++ r.rows.filter LogRow.isFallback := by
              rw [told, List.filter_append]
          _ = ((s.dispatches ++ [r]).filter DispatchRecord.isLogged).map (·.rowIn s.heap) := by
              rw [hs.logged, rows, ← List.map_append, ← List.filter_append]

theorem bookings (hs : s.LogsFallbacks) (h : s.Bookings V s') : s'.LogsFallbacks := by
  induction h with
  | refl => exact hs
  | tail _ last ih => exact ih.booking last

end State.LogsFallbacks

/-- In every run the rows of the dispatching part of the engine are, in order, one
for each dispatch that ended in a default and was no equality of two operands. -/
theorem fallbacks_logged {s : State} (hs : Reachable s) :
    s.rowsLogged.filter (fun row => row.logger == "odre.dispatch") =
      (s.dispatches.filter fun r => r.fallsBack && !r.application.isEquality).map
        (·.rowIn s.heap) := by
  obtain ⟨collector, books⟩ := hs.books
  have initially : (State.initial collector).LogsFallbacks :=
    ⟨fun _ hr => absurd hr List.not_mem_nil, rfl⟩
  rw [← funext LogRow.isFallback_eq]
  exact (initially.bookings books).logged

/-- A text less a number, and a number compared with a record. -/
def bothDefaults : Expr :=
  .sequence
    [.call (.dispatch (.binary "-")) [.literal (.text "x"), .literal (.integer 1)],
      .call (.dispatch (.binary "==")) [.literal (.integer 1), .call (.definition (.record [])) []]]

/-- Both fall back, and one of them is logged. -/
theorem fallbacks_logged_once :
    Reachable (.after 0 bothDefaults) ∧
      (State.after 0 bothDefaults).dispatches.map DispatchRecord.fallsBack = [true, true] ∧
      (State.after 0 bothDefaults).rowsLogged = [.fallback "-" "string" .sentinel] ∧
      (State.after 0 bothDefaults).rowsLogged.filter (fun row => row.logger == "odre.dispatch") =
        ((State.after 0 bothDefaults).dispatches.filter fun r =>
          r.fallsBack && !r.application.isEquality).map
            (·.rowIn (State.after 0 bothDefaults).heap) :=
  ⟨reachable_after 0 rfl, by decide +kernel, by decide +kernel,
    fallbacks_logged (reachable_after 0 rfl)⟩

/-- So the rows are not those of all dispatches that fell back. -/
theorem equality_default_unlogged :
    ¬ ∀ s : State, Reachable s →
      s.rowsLogged.filter (fun row => row.logger == "odre.dispatch") =
        (s.dispatches.filter DispatchRecord.fallsBack).map (·.rowIn s.heap) := by
  intro all
  have counted := congrArg List.length (all (.after 0 bothDefaults) (reachable_after 0 rfl))
  rw [List.length_map] at counted
  revert counted
  decide +kernel

end OperatorDispatch
