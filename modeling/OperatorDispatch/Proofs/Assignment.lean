import OperatorDispatch.Proofs.Positions
import OperatorDispatch.Proofs.Sites

/-!
# Compound assignment

`cell op= rhs` reads the slot once, dispatches the binary operator behind the
compound token, and writes the slot once.  Between the two a handler may do
what it likes with the slot; the content that counts is the one before, and the
result is what stays.  Where the dispatch is interrupted nothing is written, so
what the slot holds then is what the handlers left in it.

A compound token is no operator.  Binary dispatch knows the operators of the
language, none of which is one, and those that were registered in the course of
the run; a host that registers a binary operator under a compound token can
dispatch it.
-/

namespace OperatorDispatch

/-! ## Where operators come from -/

namespace OperatorTables

variable {t t' : OperatorTables} {o p : Operator} {arity : Arity} {literal : String}

/-- What is found after a registration was found before, or is what was
registered. -/
theorem find?_register?_cases (registered : t.register? o = some t')
    (found : t'.find? arity literal = some p) :
    t.find? arity literal = some p ∨ p = o ∧ o.arity = arity ∧ o.literal = literal := by
  unfold register? at registered
  split at registered
  · cases registered
  · have appended : ∀ l : List Operator, (l ++ [o]).find? (·.literal == literal) = some p →
        l.find? (·.literal == literal) = some p ∨ p = o ∧ o.literal = literal := by
      intro l found
      rw [List.find?_append, Option.or_eq_some_iff] at found
      rcases found with old | ⟨-, new⟩
      · exact .inl old
      · rw [List.find?_singleton] at new
        split at new
        · rename_i same
          cases new
          exact .inr ⟨rfl, beq_iff_eq.mp same⟩
        · cases new
    split at registered <;> rename_i ha <;> cases registered <;> cases arity
    · exact (appended t.binary found).imp_right fun h => ⟨h.1, ha, h.2⟩
    · exact .inl found
    · exact .inl found
    · exact (appended t.unary found).imp_right fun h => ⟨h.1, ha, h.2⟩

end OperatorTables

/-- At some moment on the way to the state an operator was registered. -/
def State.Registered (s : State) (o : Operator) : Prop :=
  ∃ collector s₁ t, (Scope.whole .full).Steps (.initial collector) s₁ ∧
    s₁.operators.register? o = some t ∧ (Scope.whole .full).Steps { s₁ with operators := t } s

theorem State.Registered.step {s s' : State} {o : Operator} (hr : s.Registered o)
    (hs : (Scope.whole .full).Step s s') : s'.Registered o := by
  obtain ⟨collector, s₁, t, before, registered, after⟩ := hr
  exact ⟨collector, s₁, t, before, registered, after.tail hs⟩

/-- An operator is one of the language, or was registered. -/
theorem find?_operators_origin {s : State} {collector : Collector}
    (hs : (Scope.whole .full).Steps (.initial collector) s) {arity : Arity} {literal : String}
    {o : Operator} (found : s.operators.find? arity literal = some o) :
    OperatorTables.standard.find? arity literal = some o ∨
      o.arity = arity ∧ o.literal = literal ∧ s.Registered o := by
  induction hs with
  | refl => exact .inl found
  | @tail s₁ s₂ before last ih =>
      have kept : s₂.operators = s₁.operators →
          OperatorTables.standard.find? arity literal = some o ∨
            o.arity = arity ∧ o.literal = literal ∧ s₂.Registered o := by
        intro same
        exact (ih (same ▸ found)).imp_right fun h => ⟨h.1, h.2.1, h.2.2.step last⟩
      cases last with
      | operators registered =>
          rcases OperatorTables.find?_register?_cases registered found with old | ⟨rfl, ha, hl⟩
          · exact (ih old).imp_right fun h => ⟨h.1, h.2.1, h.2.2.step (.operators registered)⟩
          · exact .inr ⟨ha, hl, collector, s₁, _, before, registered, .refl⟩
      | heap | bind | sight | log | takeRows | span | increment | reset | limit | share | number
      | settle => exact kept rfl

/-- No compound token is an operator of the language. -/
theorem find?_standard_compound {literal binary : String}
    (compound : compoundOperator? literal = some binary) :
    OperatorTables.standard.find? .binary literal = none := by
  have none_of : ∀ p ∈ compoundAssignments, OperatorTables.standard.find? .binary p.1 = none := by
    decide
  obtain ⟨before, after, split, -⟩ := List.lookup_eq_some_iff.mp compound
  exact none_of (literal, binary) (split ▸ List.mem_append_right before List.mem_cons_self)

namespace Action

variable {s t : State} {engine : Engine} {call : Function → Arguments → Action Value}
  {a : Address} {literal binary : String} {v rhs : Value}

/-! ## One dispatch and one write -/

theorem assign_eq (compound : compoundOperator? literal = some binary)
    (content : s.heap.cellAt? a = some v) :
    dispatch call engine (.assign literal) [.object a, rhs] s =
      (do let result ← dispatch call engine (.binary binary) [v, rhs]
          setCell a result
          return result : Action Value) s := by
  have found : dispatch call engine (.assign literal) [.object a, rhs] s =
      assign call engine a literal rhs s := bind_ok (cellOf?_of_cellAt? content)
  have behind : ofExcept (compoundOperator literal) s = .ok binary s := by
    rw [compoundOperator, compound]
    rfl
  rw [found, assign, bind_ok behind]
  cases set : settingsOf engine s with
  | error e t =>
      have stopped : dispatch call engine (.binary binary) [v, rhs] s = .error e t := bind_error set
      rw [bind_error set, bind_error stopped]
  | ok settings t =>
      have same : t.heap.cellAt? a = some v := heap_settingsOf set ▸ content
      have dispatched : dispatch call engine (.binary binary) [v, rhs] s =
          dispatchBinary call settings binary v rhs t := bind_ok set
      rw [bind_ok set, bind_ok (cellAt_ok same)]
      cases done : dispatchBinary call settings binary v rhs t with
      | ok result u => rw [bind_ok done, bind_ok (dispatched.trans done)]
      | error e u => rw [bind_error done, bind_error (dispatched.trans done)]

/-- Any other token is refused at once. -/
theorem assign_refused (simple : compoundOperator? literal = none)
    (content : s.heap.cellAt? a = some v) :
    dispatch call engine (.assign literal) [.object a, rhs] s =
      .error (.raised (.unknownOperator literal .binary .notCompound)) s := by
  have found : dispatch call engine (.assign literal) [.object a, rhs] s =
      assign call engine a literal rhs s := bind_ok (cellOf?_of_cellAt? content)
  rw [found, assign, compoundOperator, simple]
  rfl

/-- Binary dispatch of what is no operator. -/
theorem binary_refused (unknown : s.operators.find? .binary literal = none) :
    (∀ settings t, settingsOf engine s = .ok settings t →
        dispatch call engine (.binary literal) [v, rhs] s =
          .error (.raised (.unknownOperator literal .binary .unknownToken)) t) ∧
      ∀ e t, settingsOf engine s = .error e t →
        dispatch call engine (.binary literal) [v, rhs] s = .error e t := by
  have made : (DispatchCommand.binary literal).request? [v, rhs] =
      some (.binary literal v rhs) := rfl
  constructor
  · intro settings t set
    obtain ⟨ledger, shared, rfl⟩ := settingsOf_ok set
    have missing : s.operators.lookup .binary literal =
        .error (.unknownOperator literal .binary .unknownToken) := by
      rw [OperatorTables.lookup, unknown]
    rw [dispatch_of_request? made, bind_ok set]
    exact serve_refused (application_binary_refused missing)
  · intro e t set
    exact bind_error set

/-! ## Assignments in a run -/

/-- How `cell op= rhs` goes from a state, where the slot at `a` holds `v`, with
at most `depth` calls inside each other. -/
structure Assigns (engine : Engine) (depth : Nat) (s : State) (a : Address) (v rhs : Value) :
    Prop where
  /-- What the dispatch gives is given and written to the slot, whatever the
  slot was bound to meanwhile; nothing else is done. -/
  rebinds : ∀ literal binary result t, compoundOperator? literal = some binary →
    dispatch (callAt engine depth) engine (.binary binary) [v, rhs] s = .ok result t →
      dispatch (callAt engine depth) engine (.assign literal) [.object a, rhs] s =
          .ok result { t with heap := t.heap.update a (.cell result) } ∧
        (∃ held, t.heap.cellAt? a = some held) ∧
        (t.heap.update a (.cell result)).cellAt? a = some result
  /-- Where the dispatch is interrupted, so is the assignment, and the slot holds
  what it held then. -/
  fails : ∀ literal binary e t, compoundOperator? literal = some binary →
    dispatch (callAt engine depth) engine (.binary binary) [v, rhs] s = .error e t →
      dispatch (callAt engine depth) engine (.assign literal) [.object a, rhs] s = .error e t ∧
        ∃ held, t.heap.cellAt? a = some held
  /-- No other token is dispatched, and nothing changes. -/
  others : ∀ literal, compoundOperator? literal = none →
    dispatch (callAt engine depth) engine (.assign literal) [.object a, rhs] s =
      .error (.raised (.unknownOperator literal .binary .notCompound)) s
  /-- Binary dispatch refuses a compound token, once it has its settings. -/
  refuses : ∀ literal binary x y settings t, compoundOperator? literal = some binary →
    s.operators.find? .binary literal = none → settingsOf engine s = .ok settings t →
      dispatch (callAt engine depth) engine (.binary literal) [x, y] s =
        .error (.raised (.unknownOperator literal .binary .unknownToken)) t
  /-- Without settings it refuses whatever it is given. -/
  unset : ∀ literal x y e t, settingsOf engine s = .error e t →
    dispatch (callAt engine depth) engine (.binary literal) [x, y] s = .error e t
  /-- A compound token that is an operator was registered as one. -/
  registered : ∀ literal binary o, compoundOperator? literal = some binary →
    s.operators.find? .binary literal = some o →
      o.arity = .binary ∧ o.literal = literal ∧ s.Registered o

/-- Compound assignment is binary dispatch on the content, followed by one
rebind. -/
theorem assign_is_dispatch_and_rebind (hs : Reachable s)
    (engineKnown : (Scope.whole .full).KnowsEngine s.heap engine) (depth : Nat)
    (content : s.heap.cellAt? a = some v) (rhsKnown : (Scope.whole .full).Knows s.heap rhs) :
    Assigns engine depth s a v rhs := by
  have contentKnown : (Scope.whole .full).Knows s.heap v :=
    hs.confines.heap.object a _ trivial (Heap.cellAt?_eq_some.mp content)
  have operands : ∀ x ∈ [v, rhs], (Scope.whole .full).Knows s.heap x := by
    intro x hx
    rcases List.mem_pair.mp hx with rfl | rfl
    · exact contentKnown
    · exact rhsKnown
  -- a slot stays a slot, whatever the handlers do
  have slot : ∀ binary, ∃ held, (finalState (dispatch (callAt engine depth) engine
      (.binary binary) [v, rhs] s)).heap.cellAt? a = some held := by
    intro binary
    have runs := runs_dispatch (serves_callAt (fun _ h => h) engine depth) hs.confines engineKnown
      (fun _ h => h) (c := .binary binary) operands
    exact (Scope.Steps.later runs.steps).cellAt? content
  refine ⟨?_, ?_, ?_, ?_, ?_, ?_⟩
  · intro literal binary result t compound done
    obtain ⟨held, there⟩ := slot binary
    rw [done] at there
    refine ⟨?_, ⟨held, there⟩, ?_⟩
    · rw [assign_eq compound content, bind_ok done]
      rfl
    · exact Heap.cellAt?_eq_some.mpr (Heap.get?_update_self (Heap.cellAt?_eq_some.mp there))
  · intro literal binary e t compound failed
    obtain ⟨held, there⟩ := slot binary
    rw [failed] at there
    exact ⟨(assign_eq compound content).trans (bind_error failed), held, there⟩
  · exact fun literal simple => assign_refused simple content
  · intro literal binary x y settings t _ unknown set
    exact (binary_refused unknown).1 settings t set
  · exact fun literal x y e t set => bind_error set
  · intro literal binary o compound found
    refine (find?_operators_origin hs.steps found).resolve_left fun standard => ?_
    cases (find?_standard_compound compound).symm.trans standard

/-- A slot that holds one. -/
def oneHeld : Expr :=
  .call (.container .newCell) [.literal (.integer 1)]

theorem assign_is_dispatch_and_rebind_sum :
    Assigns (.own .standard) 0 (.after 0 oneHeld) ⟨0⟩ (.integer 1) (.integer 2) ∧
      ∃ t, dispatch (callAt (.own .standard) 0) (.own .standard) (.assign "+=")
          [.object ⟨0⟩, .integer 2] (.after 0 oneHeld) = .ok (.integer 3) t ∧
        t.heap.cellAt? ⟨0⟩ = some (.integer 3) := by
  refine ⟨assign_is_dispatch_and_rebind ?_ ?_ 0 ?_ ?_, _, rfl, rfl⟩
  · exact reachable_after 0 (Expr.within_full oneHeld)
  · exact trivial
  · rfl
  · exact trivial

/-- Addition under a compound token of its own. -/
def plusEquals : Expr :=
  .call (.dispatch (.registerOperator "+=" true "add" "Addition in place" false)) []

/-- Where the host has registered it, binary dispatch accepts a compound
token. -/
theorem compound_token_dispatched :
    compoundOperator? "+=" = some "+" ∧ Reachable (.after 0 plusEquals) ∧
      ∃ t, dispatch (callAt (.own .standard) 0) (.own .standard) (.binary "+=")
        [.integer 1, .integer 2] (.after 0 plusEquals) = .ok (.integer 3) t :=
  ⟨by decide, reachable_after 0 (Expr.within_full plusEquals), _, rfl⟩

end Action

end OperatorDispatch
