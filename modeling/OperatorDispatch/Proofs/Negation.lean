import OperatorDispatch.Proofs.Endings
import OperatorDispatch.Proofs.Registries

/-!
# A negated equality goes in step with the equality

The two tokens share their selector, so they come to the same decision, and a
decision of an equality names no token: it is an answer or the call of a handler.
What differs is only what is done with the answer, after the work.

`Action.InStep` relates the results of two such dispatches.  Both leave the same
state behind them when their work has ended, and what is added to it is a record
each.  The collector could still tell them apart, by refusing one of the two; it
does not, because it knows a counter by its name and by the names of its labels,
which the token and the outcome are not part of (`Ledger.refusal_enter`).
-/

namespace OperatorDispatch

/-! ## Results in step -/

/-- The results of two dispatches in step: the same but for the answer, of which the
second is made from the first, and for the records, which are related. -/
inductive Action.InStep (answer : Heap → Value → Value)
    (related : DispatchRecord → DispatchRecord → Prop) (left : State) :
    EStateM.Result Interruption State Value → EStateM.Result Interruption State Value → Prop
  | answers {v : Value} {r r' : DispatchRecord} (recorded : related r r') :
      InStep answer related left (.ok v (left.close r))
        (.ok (answer left.heap v) (left.close r'))
  /-- The same failure, be it of the work or of the collector. -/
  | raises {fault : Fault} {r r' : DispatchRecord} (recorded : related r r') :
      InStep answer related left (.error (.raised fault) (left.close r))
        (.error (.raised fault) (left.close r'))
  | aborts {text : String} {r r' : DispatchRecord} (recorded : related r r') :
      InStep answer related left (.error (.aborted text) (left.close r))
        (.error (.aborted text) (left.close r'))
  | exhausted : InStep answer related left (.error .exhausted left) (.error .exhausted left)

/-- An answer of the second is made from an answer of the first. -/
theorem Action.InStep.exists_answer {answer : Heap → Value → Value}
    {related : DispatchRecord → DispatchRecord → Prop} {left t : State} {w : Value}
    {result : EStateM.Result Interruption State Value}
    (step : InStep answer related left result (.ok w t)) :
    ∃ v t', result = .ok v t' ∧ w = answer t'.heap v := by
  cases step with
  | answers recorded => exact ⟨_, _, rfl, rfl⟩

/-! ## What the collector goes by -/

namespace Ledger

variable {l l' : Ledger}

theorem refusal_increment {key key' : CounterKey} (amount : Double)
    (collector : l.collector = l'.collector) (series : l.series = l'.series)
    (name : key.name = key'.name) (labels : key.attributes.names = key'.attributes.names) :
    (l.increment key amount).2 = (l'.increment key' amount).2 := by
  unfold increment announce add
  dsimp only
  rw [collector, series, name, labels]
  cases l'.series.contains ⟨key'.name, key'.attributes.names⟩ with
  | true =>
      simp only [if_true]
      split <;> rfl
  | false =>
      cases l'.collector.creates l'.series ⟨key'.name, key'.attributes.names⟩ with
      | true =>
          simp only [Bool.false_eq_true, if_false, if_true]
          split <;> rfl
      | false => rfl

/-- The collector's objection depends on whether something is counted, and not on
what. -/
theorem refusal_enter (l : Ledger) {r r' : DispatchRecord} (settings : r'.settings = r.settings)
    (counted : r'.ending.outcome?.isSome = r.ending.outcome?.isSome) :
    (l.enter r).2 = (l.enter r').2 := by
  have same (traced : Bool) (span : Span) :
      (if traced then l.record span else l).collector = l.collector ∧
        (if traced then l.record span else l).series = l.series := by
    split <;> exact ⟨rfl, rfl⟩
  unfold enter DispatchRecord.counter?
  dsimp only
  cases ho : r.ending.outcome? with
  | none =>
      rw [ho, Option.isSome_none, Option.isSome_eq_false_iff, Option.isNone_iff_eq_none] at counted
      rw [counted]
      rfl
  | some outcome =>
      obtain ⟨outcome', ho'⟩ := Option.isSome_iff_exists.mp (counted.trans (by rw [ho]; rfl))
      rw [ho', settings]
      simp only [Option.map_some]
      split
      · exact refusal_increment _ ((same _ _).1.trans (same _ _).1.symm)
          ((same _ _).2.trans (same _ _).2.symm) rfl rfl
      · rfl

end Ledger

/-! ## From the work to the dispatch -/

/-- The ending of a dispatch, its outcome under another name. -/
def DispatchEnding.map (rename : Outcome → Outcome) : DispatchEnding → DispatchEnding
  | .returned outcome => .returned (rename outcome)
  | .raised fault => .raised fault
  | .aborted => .aborted

namespace Action

/-- The end of work with another answer made from its own. -/
def recast (answer : Heap → Value → Value) (rename : Outcome → Outcome) :
    EStateM.Result Interruption State (Value × Outcome) →
      EStateM.Result Interruption State (Value × Outcome)
  | .ok (v, outcome) t => .ok (answer t.heap v, rename outcome) t
  | .error e t => .error e t

variable {answer : Heap → Value → Value} {rename : Outcome → Outcome} {settings : Settings}
  {a a' : Application} {d d' : Decision} {s : State}
  {call : Function → Arguments → Action Value}
  {related : DispatchRecord → DispatchRecord → Prop}

/-- Work that ends in step is closed in step. -/
theorem inStep_conclusion
    (recorded : ∀ ending, related ⟨settings, a, d, ending⟩ ⟨settings, a', d', ending.map rename⟩)
    (work : EStateM.Result Interruption State (Value × Outcome)) :
    InStep answer related (finalState work) (conclusion settings a d work)
      (conclusion settings a' d' (recast answer rename work)) := by
  have agreed (t : State) (ending : DispatchEnding) :
      (t.ledger.enter ⟨settings, a', d', ending.map rename⟩).2 =
        (t.ledger.enter ⟨settings, a, d, ending⟩).2 := by
    apply Ledger.refusal_enter
    · rfl
    · cases ending <;> rfl
  -- Both are closed, or both are objected to.
  have closed (t : State) (ending : DispatchEnding)
      {result result' : State → EStateM.Result Interruption State Value}
      (step : InStep answer related t (result (t.close ⟨settings, a, d, ending⟩))
        (result' (t.close ⟨settings, a', d', ending.map rename⟩))) :
      InStep answer related t (concluded ⟨settings, a, d, ending⟩ result t)
        (concluded ⟨settings, a', d', ending.map rename⟩ result' t) := by
    unfold concluded
    rw [agreed]
    split
    · exact step
    · exact .raises (recorded ending)
  cases work with
  | ok x t => exact closed t (.returned x.2) (.answers (recorded _))
  | error e t =>
      cases e with
      | raised fault => exact closed t (.raised (settings.told fault)) (.raises (recorded _))
      | aborted text => exact closed t .aborted (.aborts (recorded _))
      | exhausted => exact .exhausted

/-- What a dispatch makes of the answer that its decision led to. -/
theorem perform_eq_recast (call : Function → Arguments → Action Value) (settings : Settings)
    (a : Application) (d : Decision) (s : State) :
    perform call settings a d s = recast a.turn id (carryOut call settings a.operator d s) := by
  cases carried : carryOut call settings a.operator d s with
  | ok x t => exact perform_of_carryOut carried
  | error e t => exact bind_error carried

end Action

/-! ## The decisions of an equality -/

namespace Decision

/-- What an equality comes to: an answer or the call of a handler. -/
inductive Compares (lhs rhs : Value) : Decision → Prop
  | answers {v : Value} {outcome : Outcome} : Compares lhs rhs (.answer v outcome)
  | invokes {f : Function} {use : Use} (inPlace : use ≠ .snapshot) :
      Compares lhs rhs (.invoke f ⟨lhs, some rhs⟩ use)

/-- The state in which the work ends: the one that the handler leaves, where there
is one. -/
def leaves (call : Function → Arguments → Action Value) (s : State) : Decision → State
  | .invoke f passed _ => Action.finalState (call f passed s)
  | .answer .. | .fallBack .. | .fail _ => s

variable {h : Heap} {lhs rhs : Value}

theorem compares_equality : Compares lhs rhs (equality h lhs rhs) := by
  unfold equality
  split
  · exact .answers
  · split
    · exact .invokes nofun
    · split <;> exact .answers

theorem compares_strictEquality : Compares lhs rhs (strictEquality h lhs rhs) := by
  unfold strictEquality
  split
  · exact .answers
  · split
    · exact .invokes nofun
    · unfold derivedEquality
      split
      · split
        · exact .invokes nofun
        · exact .answers
      · split <;> exact .answers

end Decision

theorem Application.compares_decide {o : Operator} (category : o.category = .equality) (h : Heap)
    (lhs rhs : Value) : (⟨o, .binary lhs rhs⟩ : Application).decide h |>.Compares lhs rhs := by
  rcases selector_of_equality category with sel | sel
  · rw [decide_equals sel]
    exact Decision.compares_equality
  · rw [decide_strictEquals sel]
    exact Decision.compares_strictEquality

/-- An equality is decided by its selector. -/
theorem Application.decide_equality_congr {o o' : Operator} (category : o.category = .equality)
    (same : o'.selector = o.selector) (h : Heap) (lhs rhs : Value) :
    (⟨o', .binary lhs rhs⟩ : Application).decide h =
      (⟨o, .binary lhs rhs⟩ : Application).decide h := by
  rcases selector_of_equality category with sel | sel
  · rw [decide_equals sel, decide_equals (same.trans sel)]
  · rw [decide_strictEquals sel, decide_strictEquals (same.trans sel)]

/-- Only a negated operator turns an answer round. -/
theorem Application.turn_plain {o : Operator} (plain : o.negated = false) (h : Heap)
    (lhs rhs v : Value) : (⟨o, .binary lhs rhs⟩ : Application).turn h v = v := by
  simp [turn, negates, plain]

namespace Action

variable {settings : Settings} {a : Application} {d : Decision} {s : State} {lhs rhs : Value}
  {call : Function → Arguments → Action Value}

theorem finalState_perform (hd : d.Compares lhs rhs) :
    finalState (perform call settings a d s) = d.leaves call s := by
  cases hd with
  | answers =>
      rw [perform_eq_recast]
      rfl
  | invokes inPlace =>
      rw [perform_consulting (keep_of_ne_snapshot inPlace), finalState_responded]
      rfl

/-- A decision of an equality is carried out alike for every token. -/
theorem carryOut_compares (hd : d.Compares lhs rhs) (o o' : Operator) :
    carryOut call settings o d = carryOut call settings o' d := by
  cases hd <;> rfl

end Action

/-! ## Negation -/

/-- The same dispatch on record under two tokens. -/
structure DispatchRecord.Renamed (literal literal' : String) (r r' : DispatchRecord) : Prop where
  literals : r.literal = literal ∧ r'.literal = literal'
  settings : r'.settings = r.settings
  selector : r'.application.operator.selector = r.application.operator.selector
  form : r'.application.form = r.application.form
  decision : r'.decision = r.decision
  ending : r'.ending = r.ending

/-- The equalities of the language and their negations. -/
def negations : List (String × String) :=
  [("==", "!="), ("===", "!==")]

theorem operators_of_mem_negations {literal literal' : String}
    (pair : (literal, literal') ∈ negations) :
    ∃ o o', OperatorTables.standard.find? .binary literal = some o ∧
      OperatorTables.standard.find? .binary literal' = some o' ∧ o.category = .equality ∧
      o'.selector = o.selector ∧ o.negated = false ∧ o'.negated = true := by
  simp only [negations, List.mem_cons, Prod.mk.injEq, List.not_mem_nil, or_false] at pair
  rcases pair with ⟨rfl, rfl⟩ | ⟨rfl, rfl⟩
  · exact ⟨_, _, rfl, rfl, rfl, rfl, rfl, rfl⟩
  · exact ⟨_, _, rfl, rfl, rfl, rfl, rfl, rfl⟩

namespace Action

/-- Whoever makes the calls, a negated equality does what the equality does, and its
answer is the opposite of the truth value of the equality's. -/
def Negates (s : State) (settings : Settings) (literal literal' : String) (lhs rhs : Value) :
    Prop :=
  ∃ a a' : Application, ∃ d : Decision,
    (Request.binary literal lhs rhs).application s.operators = .ok a ∧
    (Request.binary literal' lhs rhs).application s.operators = .ok a' ∧
    a.decide s.heap = d ∧ a'.decide s.heap = d ∧ d.Compares lhs rhs ∧
    ∀ call, InStep (fun h v => .boolean (!h.truthy v)) (DispatchRecord.Renamed literal literal')
      (d.leaves call s) (serve call settings (.binary literal lhs rhs) s)
      (serve call settings (.binary literal' lhs rhs) s)

variable {s : State} {settings : Settings} {o o' : Operator}

theorem negates_of_operators {literal literal' : String}
    (found : s.operators.find? .binary literal = some o)
    (found' : s.operators.find? .binary literal' = some o') (equality : o.category = .equality)
    (same : o'.selector = o.selector) (plain : o.negated = false) (negated : o'.negated = true)
    (settings : Settings) (lhs rhs : Value) : Negates s settings literal literal' lhs rhs := by
  have named := Request.lookup_literal (OperatorTables.lookup_of_find? found)
  have named' := Request.lookup_literal (OperatorTables.lookup_of_find? found')
  have accepted := application_binary lhs rhs (OperatorTables.lookup_of_find? found)
  have accepted' := application_binary lhs rhs (OperatorTables.lookup_of_find? found')
  have equality' : o'.category = .equality := by rw [Operator.category, same]; exact equality
  obtain ⟨d, hd⟩ : ∃ d, d = (⟨o, .binary lhs rhs⟩ : Application).decide s.heap := ⟨_, rfl⟩
  have hd' : d = (⟨o', .binary lhs rhs⟩ : Application).decide s.heap :=
    hd.trans (Application.decide_equality_congr equality same s.heap lhs rhs).symm
  have compares : d.Compares lhs rhs := hd ▸ Application.compares_decide equality s.heap lhs rhs
  have turn' (h : Heap) (v : Value) :
      (⟨o', .binary lhs rhs⟩ : Application).turn h v = .boolean (!h.truthy v) := by
    simp [Application.turn, Application.negates, equality', negated]
  refine ⟨_, _, d, accepted, accepted', hd.symm, hd'.symm, compares, fun call => ?_⟩
  have work : perform call settings ⟨o', .binary lhs rhs⟩ d s =
      recast (fun h v => .boolean (!h.truthy v)) id
        (perform call settings ⟨o, .binary lhs rhs⟩ d s) := by
    rw [perform_eq_recast, perform_eq_recast, carryOut_compares compares o' o]
    cases carryOut call settings o d s with
    | ok x t => simp only [recast, Application.turn_plain plain, turn', id]
    | error e t => rfl
  rw [serve_accepted accepted, serve_accepted accepted', apply_eq, apply_eq, ← hd, ← hd', work,
    ← finalState_perform compares]
  refine inStep_conclusion (fun ending => ⟨⟨named, named'⟩, rfl, same, rfl, rfl, ?_⟩) _
  cases ending <;> rfl

/-- In every state and whatever handlers there are: a negated equality gives a
boolean, the opposite of the truth value of the equality's answer; it fails where
and as the equality fails, makes the same call, and leaves the same behind but for
the token on record. -/
theorem negation_in_step (hs : Reachable s) {literal literal' : String}
    (pair : (literal, literal') ∈ negations) (settings : Settings) (lhs rhs : Value) :
    Negates s settings literal literal' lhs rhs := by
  obtain ⟨o, o', found, found', equality, same, plain, negated⟩ := operators_of_mem_negations pair
  exact negates_of_operators (hs.find?_operators found) (hs.find?_operators found') equality same
    plain negated settings lhs rhs

/-- Strict equality by a handler that answers with its right operand, which is an
instance. -/
theorem negation_in_step_twins :
    (Decision.strictEquality (State.after 0 twins).heap (.object ⟨2⟩)
        (.object ⟨5⟩)).invokes = true ∧
      Negates (State.after 0 twins) .standard "===" "!==" (.object ⟨2⟩) (.object ⟨5⟩) :=
  ⟨by decide +kernel,
    negation_in_step (reachable_after 0 (Expr.within_full twins)) (by decide) _ _ _⟩

end Action

end OperatorDispatch
