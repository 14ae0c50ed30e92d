import OperatorDispatch.Proofs.Conduct

/-!
# The handlers of the right operand

A binary dispatch asks the lookup path of its left operand for a handler, and
nothing else on the heap for its handlers.  Two heaps that hold the same objects
but for the handlers of registries off that path (`Heap.SameBesides`) have the
same types, chains and paths, since a registry takes part in none of these by
what it holds.  So the operands are classified alike, the path has the same
handlers, and the decision is the same.

The right operand is looked at for its kind and its type only.  It may share
part of its chain with the left one: what is shared is on the path.
-/

namespace OperatorDispatch

/-! ## Heaps that differ off a path -/

namespace Heap

/-- The same objects, but for the handlers of registries off a path. -/
def SameBesides (path : List Address) (h h' : Heap) : Prop :=
  ∀ a, h'.get? a = h.get? a ∨
    a ∉ path ∧ ∃ r handlers, h.get? a = some (.registry r) ∧
      h'.get? a = some (.registry { r with handlers })

/-- Where a value is asked for handlers. -/
def pathOf (h : Heap) (v : Value) : List Address :=
  match h.classify v with
  | .primitive _ => []
  | .taggable t => t.path

variable {path : List Address} {h h' : Heap}

/-- Chains depend on type definitions only. -/
theorem chainFrom_of_types (types : ∀ a, h'.typeAt? a = h.typeAt? a) (fuel : Nat) (a : Address) :
    h'.chainFrom fuel a = h.chainFrom fuel a := by
  induction fuel generalizing a with
  | zero => rfl
  | succ fuel ih => simp only [chainFrom, types, ih]

theorem lookupPath_of_types (types : ∀ a, h'.typeAt? a = h.typeAt? a) (i : Instance) :
    h'.lookupPath i = h.lookupPath i := by
  simp only [lookupPath, chainRegistries, chain, types, chainFrom_of_types types]

/-- Other handlers off the path. -/
theorem sameBesides_update {a : Address} {r : Registry} (hr : h.registryAt? a = some r)
    (off : a ∉ path) (handlers : OrderedMap Selector Function) :
    SameBesides path h (h.update a (.registry { r with handlers })) := by
  have stands := registryAt?_eq_some.mp hr
  intro b
  by_cases hb : b = a
  · subst hb
    exact .inr ⟨off, r, handlers, stands, get?_update_self stands⟩
  · exact .inl (get?_update_of_ne _ hb)

theorem SameBesides.typeAt? (same : SameBesides path h h') (a : Address) :
    h'.typeAt? a = h.typeAt? a := by
  unfold Heap.typeAt?
  rcases same a with heq | ⟨-, r, handlers, hr, hr'⟩
  · rw [heq]
  · rw [hr, hr']

theorem SameBesides.registryAt? (same : SameBesides path h h') {a : Address} (ha : a ∈ path) :
    h'.registryAt? a = h.registryAt? a := by
  unfold Heap.registryAt?
  rcases same a with heq | ⟨off, -⟩
  · rw [heq]
  · exact absurd ha off

theorem SameBesides.typeNameOf (same : SameBesides path h h') (i : Instance) :
    h'.typeNameOf i = h.typeNameOf i := by
  have types : h'.typeAt? = h.typeAt? := funext same.typeAt?
  simp only [Heap.typeNameOf, types]

theorem SameBesides.objectName (same : SameBesides path h h') (o : Object) :
    h'.objectName o = h.objectName o := by
  cases o with
  | inst i => exact same.typeNameOf i
  | typeDefinition | registry | cell | list | dict | reading => rfl

/-- A registry is called the same whatever it holds. -/
theorem SameBesides.classify (same : SameBesides path h h') (v : Value) :
    h'.classify v = h.classify v := by
  cases v with
  | primitive p => rfl
  | function f => rfl
  | object a =>
      simp only [Heap.classify]
      rcases same a with heq | ⟨-, r, handlers, hr, hr'⟩
      · rw [heq]
        simp only [same.typeNameOf, lookupPath_of_types same.typeAt?, same.objectName]
      · rw [hr, hr']
        rfl

theorem findSome?_handlerAt (same : SameBesides path h h') (s : Selector) {as : List Address}
    (has : ∀ a ∈ as, a ∈ path) :
    as.findSome? (h'.handlerAt s) = as.findSome? (h.handlerAt s) := by
  induction as with
  | nil => rfl
  | cons a as ih =>
      have head : h'.handlerAt s a = h.handlerAt s a := by
        rw [handlerAt, handlerAt, same.registryAt? (has a List.mem_cons_self)]
      rw [List.findSome?_cons, List.findSome?_cons, head,
        ih fun b hb => has b (List.mem_cons_of_mem a hb)]

theorem SameBesides.resolve {lhs : Value} (same : SameBesides (h.pathOf lhs) h h')
    (s : Selector) :
    h'.resolve (h.classify lhs) s = h.resolve (h.classify lhs) s := by
  unfold Heap.resolve
  unfold pathOf at same
  split
  · rfl
  · rename_i t ht
    rw [ht] at same
    exact findSome?_handlerAt same s fun _ ha => ha

end Heap

/-! ## Decisions -/

section Decisions

variable {h h' : Heap} {lhs : Value}

theorem Decision.equality_congr (same : h.SameBesides (h.pathOf lhs) h') (rhs : Value) :
    equality h' lhs rhs = equality h lhs rhs := by
  simp only [equality, same.classify, same.resolve]

theorem Decision.strictEquality_congr (same : h.SameBesides (h.pathOf lhs) h') (rhs : Value) :
    strictEquality h' lhs rhs = strictEquality h lhs rhs := by
  simp only [strictEquality, derivedEquality, same.classify, same.resolve]

theorem Decision.binary_congr (same : h.SameBesides (h.pathOf lhs) h') (o : Operator)
    (rhs : Value) : binary h' o lhs rhs = binary h o lhs rhs := by
  unfold binary
  split <;> simp only [same.classify, same.resolve]

theorem Application.decide_congr (same : h.SameBesides (h.pathOf lhs) h') (o : Operator)
    (rhs : Value) :
    (⟨o, .binary lhs rhs⟩ : Application).decide h' =
      (⟨o, .binary lhs rhs⟩ : Application).decide h := by
  simp only [decide, Decision.equality_congr same, Decision.strictEquality_congr same,
    Decision.binary_congr same]

end Decisions

/-! ## Dispatches -/

/-- Two states that are the same but for the handlers of registries off a
path. -/
structure State.SameBesides (path : List Address) (s s' : State) : Prop where
  heap : s.heap.SameBesides path s'.heap
  rest : s' = { s with heap := s'.heap }

theorem State.sameBesides_update (s : State) {path : List Address} {a : Address} {r : Registry}
    (hr : s.heap.registryAt? a = some r) (off : a ∉ path)
    (handlers : OrderedMap Selector Function) :
    s.SameBesides path { s with heap := s.heap.update a (.registry { r with handlers }) } :=
  ⟨Heap.sameBesides_update hr off handlers, rfl⟩

/-- A binary dispatch goes the same way from two states. -/
inductive State.DecidesAlike (s s' : State) (settings : Settings) (literal : String)
    (lhs rhs : Value) : Prop
  /-- The token is refused. -/
  | refuses {fault : Fault}
      (served : ∀ call, Action.serve call settings (.binary literal lhs rhs) s =
        .error (.raised fault) s)
      (served' : ∀ call, Action.serve call settings (.binary literal lhs rhs) s' =
        .error (.raised fault) s')
  /-- The same handler is called with the operands, and its result is used the
  same way.  The left operand is an instance then. -/
  | calls {o : Operator} {f : Function} {use : Use}
      (accepted : s.operators.lookup .binary literal = .ok o)
      (left : ∃ x i, lhs = .object x ∧ s.heap.get? x = some (.inst i))
      (served : ∀ call, Action.serve call settings (.binary literal lhs rhs) s =
        Action.conclusion settings ⟨o, .binary lhs rhs⟩ (.invoke f ⟨lhs, some rhs⟩ use)
          (Action.responded ⟨o, .binary lhs rhs⟩ use lhs (call f ⟨lhs, some rhs⟩ s)))
      (served' : ∀ call, Action.serve call settings (.binary literal lhs rhs) s' =
        Action.conclusion settings ⟨o, .binary lhs rhs⟩ (.invoke f ⟨lhs, some rhs⟩ use)
          (Action.responded ⟨o, .binary lhs rhs⟩ use lhs (call f ⟨lhs, some rhs⟩ s')))
  /-- No handler is called, and the dispatch comes to the same value or fault
  and is entered by the same record.  A refusal names the left operand. -/
  | answers {o : Operator} {d : Decision} {ending : DispatchEnding} {result : Except Fault Value}
      (accepted : s.operators.lookup .binary literal = .ok o)
      (served : ∀ call, Action.serve call settings (.binary literal lhs rhs) s =
        Action.ofExcept result (s.settle ⟨settings, ⟨o, .binary lhs rhs⟩, d, ending⟩))
      (served' : ∀ call, Action.serve call settings (.binary literal lhs rhs) s' =
        Action.ofExcept result (s'.settle ⟨settings, ⟨o, .binary lhs rhs⟩, d, ending⟩))
      (named : ∀ category token name,
        result = .error (.operatorNotDefined category token name) →
          category = o.category ∧ token = literal ∧ name = (s.heap.classify lhs).typeName)

namespace Action

variable {s : State} {settings : Settings} {literal : String} {lhs rhs : Value} {o : Operator}

/-- The collector does not refuse operators. -/
theorem eq_of_upheld {l : Ledger} {record : DispatchRecord} {answer : Except Fault Value}
    {category : Category} {token name : String}
    (h : upheld l record answer = .error (.operatorNotDefined category token name)) :
    answer = .error (.operatorNotDefined category token name) := by
  unfold upheld at h
  split at h
  · exact h
  · rename_i refusal _
    cases refusal <;> cases h

/-- A refusal that a dispatch raises of its own accord names the left operand. -/
theorem named_of_ending {a : Application} {h : Heap} {r : Except Fault (Value × Outcome)}
    (hr : a.ending? settings h (a.decide h) = some r) {category : Category} {token name : String}
    (refused : r.map Prod.fst = .error (.operatorNotDefined category token name)) :
    category = a.operator.category ∧ token = a.operator.literal ∧
      name = (h.classify a.arguments.this).typeName := by
  have possible := a.decides h
  generalize a.decide h = d at hr possible
  cases possible with
  | answers | fails =>
      cases hr
      cases refused
  | invokes => cases hr
  | @fallsBack fallback own =>
      cases fallback with
      | sentinel | unequal =>
          cases hr
          cases refused
      | refuse =>
          cases hr
          cases refused
          exact ⟨rfl, rfl, rfl⟩

/-- A binary dispatch does not ask the right operand for handlers. -/
theorem decidesAlike {s' : State} (same : s.SameBesides (s.heap.pathOf lhs) s')
    (settings : Settings) (literal : String) (rhs : Value) :
    s.DecidesAlike s' settings literal lhs rhs := by
  obtain ⟨same, rest⟩ := same
  generalize s'.heap = h' at same rest
  subst rest
  cases found : s.operators.lookup .binary literal with
  | error fault =>
      exact .refuses (fun _ => serve_refused (application_binary_refused found))
        (fun _ => serve_refused (application_binary_refused found))
  | ok o =>
      have decide := Application.decide_congr same o rhs
      have accepted := application_binary lhs rhs found
      cases called : ((⟨o, .binary lhs rhs⟩ : Application).decide s.heap).invokes with
      | true =>
          obtain ⟨f, use, decided⟩ := Application.exists_handler_of_invokes called
          have inPlace : use ≠ .snapshot := by
            rintro rfl
            obtain ⟨operand, step⟩ := Application.step_of_decide decided
            cases step
          have kept : ∀ t, keep ⟨lhs, some rhs⟩ use t = .ok lhs t :=
            fun t => keep_of_ne_snapshot inPlace
          exact .calls found (Application.exists_instance_of_decide decided)
            (serve_consulting accepted decided (kept _))
            (serve_consulting accepted (decide.trans decided) (kept _))
      | false =>
          obtain ⟨r, hr⟩ :=
            Application.exists_ending ⟨o, .binary lhs rhs⟩ settings s.heap called
          have hr' : (⟨o, .binary lhs rhs⟩ : Application).ending? settings h'
              ((⟨o, .binary lhs rhs⟩ : Application).decide h') = some r := by
            rw [decide, Application.ending?_decide, hr]
          have alone : ∀ call, serve call settings (.binary literal lhs rhs) s = _ :=
            fun call => (serve_accepted accepted).trans (apply_alone hr)
          have alone' : ∀ call,
              serve call settings (.binary literal lhs rhs) { s with heap := h' } = _ :=
            fun call => (serve_accepted (s := { s with heap := h' }) accepted).trans
              (apply_alone (s := { s with heap := h' }) hr')
          refine .answers found alone ?_ ?_
          · simp only [← decide]
            exact alone'
          · intro category token name refused
            obtain ⟨rfl, rfl, rfl⟩ := named_of_ending hr (eq_of_upheld refused)
            exact ⟨rfl, Request.literal_of_accepted accepted, rfl⟩

/-- Where the left operand is no instance it does not matter what calls do. -/
theorem uncalled {s' : State} (alike : s.DecidesAlike s' settings literal lhs rhs)
    (primitive : ∃ p, lhs = .primitive p) (call call' : Function → Arguments → Action Value) :
    serve call settings (.binary literal lhs rhs) s =
      serve call' settings (.binary literal lhs rhs) s := by
  cases alike with
  | refuses served served' => rw [served, served]
  | calls accepted left served served' =>
      obtain ⟨p, rfl⟩ := primitive
      obtain ⟨x, i, hx, -⟩ := left
      cases hx
  | answers accepted served served' named => rw [served, served]

/-- A binary dispatch does not depend on the handlers of its right operand, or
on any others off the lookup path of the left one; and on a primitive it calls
no handler. -/
theorem rightHandlers_irrelevant {s s' : State} {lhs : Value}
    (same : s.SameBesides (s.heap.pathOf lhs) s') (settings : Settings) (literal : String)
    (rhs : Value) :
    s.DecidesAlike s' settings literal lhs rhs ∧
      ((∃ p, lhs = .primitive p) → ∀ call call',
        serve call settings (.binary literal lhs rhs) s =
          serve call' settings (.binary literal lhs rhs) s) :=
  have alike := decidesAlike same settings literal rhs
  ⟨alike, uncalled alike⟩

/-- Two instances of one type, the second with a handler of its own besides. -/
def siblings : Expr :=
  .sequence [
    .assign "Base" (.call (.definition (.define "Base" ["add"]))
      [.handler "shared" (.literal (.integer 1)), .literal .null]),
    .assign "left" (.call (.definition (.instantiate [])) [.variable "Base"]),
    .assign "right" (.call (.definition (.instantiate [])) [.variable "Base"]),
    .call (.definition (.override "add")) [.variable "right", .handler "own" (.literal .null)]]

theorem rightHandlers_irrelevant_siblings :
    ∃ r, (State.after 0 siblings).heap.registryAt? ⟨4⟩ = some r ∧ r.handlers.isEmpty = false ∧
      (State.after 0 siblings).DecidesAlike
        { State.after 0 siblings with
          heap := (State.after 0 siblings).heap.update ⟨4⟩
            (.registry { r with handlers := .empty }) }
        .standard "+" (.object ⟨2⟩) (.object ⟨3⟩) := by
  have own : ((State.after 0 siblings).heap.registryAt? ⟨4⟩).any (!·.handlers.isEmpty) = true := by
    decide +kernel
  have off : ⟨4⟩ ∉ (State.after 0 siblings).heap.pathOf (.object ⟨2⟩) := by
    decide +kernel
  obtain ⟨r, hr, full⟩ := (Option.any_eq_true _ _).mp own
  have same := State.sameBesides_update _ hr off .empty
  have alike := rightHandlers_irrelevant same .standard "+" (.object ⟨3⟩)
  exact ⟨r, hr, by simpa using full, alike.1⟩

end Action

end OperatorDispatch
