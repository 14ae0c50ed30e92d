import OperatorDispatch.Proofs.Origins

/-!
# Guarded registries

`Registry.add` refuses a handler for `strictEquals` where there is none for
`equals`.  That this guard holds of every registry on a heap, whatever was
registered, replaced or copied, rests on two observations: nothing ever takes a
handler out of a registry, and a copy has the handlers of what it is a copy of.

A lookup path is a list of registries, and the first one with a handler
decides.  So what holds of each registry lifts to the path: where the level
that decides on `strictEquals` is guarded, `equals` is decided there or before.
-/

namespace OperatorDispatch

namespace OrderedMap

variable {κ α : Type} [DecidableEq κ] {m : OrderedMap κ α} {k k' : κ} {v : α}

theorem contains_insert :
    (m.insert k v).contains k' = true ↔ k = k' ∨ m.contains k' = true := by
  by_cases hk : k = k' <;> simp [contains, get?_insert, hk]

end OrderedMap

/-! ## The guard -/

/-- A handler for strict equality only next to one for equality. -/
def Registry.Guarded (r : Registry) : Prop :=
  r.handlers.contains .strictEquals = true → r.handlers.contains .equals = true

def Heap.Guarded (h : Heap) : Prop :=
  ∀ a r, h.get? a = some (.registry r) → r.Guarded

namespace Registry

variable {r r' : Registry}

theorem guarded_fresh (owner : String) (allowReplace : Bool) :
    (fresh owner allowReplace).Guarded := by
  intro hs
  cases hs

theorem SameHandlers.guarded (same : r.SameHandlers r') (hr : r.Guarded) : r'.Guarded := by
  unfold Guarded
  rw [same.handlers]
  exact hr

theorem guarded_add {sel : Selector} {handler : Value} (hr : r.Guarded)
    (added : r.add sel handler = .ok r') : r'.Guarded := by
  obtain ⟨f, -, -, equalsThere, -, rfl⟩ := add_eq_ok added
  intro hs
  refine OrderedMap.contains_insert.mpr (.inr ?_)
  rcases OrderedMap.contains_insert.mp hs with strict | there
  · exact equalsThere strict
  · exact hr there

end Registry

theorem Heap.RegistryOrigin.guarded {h : Heap} {r : Registry} (origin : h.RegistryOrigin r)
    (hg : h.Guarded) : r.Guarded := by
  cases origin with
  | fresh owner allowReplace => exact Registry.guarded_fresh owner allowReplace
  | same there same => exact same.guarded (hg _ _ there)
  | added there added => exact Registry.guarded_add (hg _ _ there) added

/-- No step leaves a registry unguarded. -/
theorem Scope.Step.guarded {S : Scope} {s s' : State} (hs : S.Step s s')
    (hg : s.heap.Guarded) : s'.heap.Guarded := by
  cases hs with
  | heap change =>
      intro a r hr
      exact (change.registry_origin hr).guarded hg
  | bind | sight | log | takeRows | span | increment | reset | limit | share | operators | number
  | settle => exact hg

theorem ReachableWithin.guarded {V : Vocabulary} {s : State} (hs : ReachableWithin V s) :
    s.heap.Guarded := by
  refine invariant (P := fun s => s.heap.Guarded) ?_ (fun _ _ hstep => hstep.guarded) hs
  intro a r hr
  cases hr

/-! ## Registration -/

namespace Action

variable {s : State} {a : Address} {r r' : Registry} {sel : Selector} {handler : Value}

theorem addHandler_ok (hr : s.heap.registryAt? a = some r) (added : r.add sel handler = .ok r') :
    addHandler a sel handler s = .ok () { s with
      heap := s.heap.update a (.registry r')
      journal := s.journal ++ [.registered sel r.owner] } := by
  rw [addHandler, bind_ok (registryAt_eq hr), added]
  rfl

/-- A refusal leaves the state as it is. -/
theorem addHandler_error {fault : Fault} (hr : s.heap.registryAt? a = some r)
    (refused : r.add sel handler = .error fault) :
    addHandler a sel handler s = .error (.raised fault) s := by
  rw [addHandler, bind_ok (registryAt_eq hr), refused]
  rfl

/-- A handler that is taken in is a function and can be looked up. -/
theorem addHandler_cases (sel : Selector) (handler : Value) (hr : s.heap.registryAt? a = some r) :
    (∃ f s', handler = .function f ∧ addHandler a sel handler s = .ok () s' ∧
      s'.heap.handlerAt sel a = some f) ∨
    ∃ fault, addHandler a sel handler s = .error (.raised fault) s := by
  cases hadd : r.add sel handler with
  | error fault => exact .inr ⟨fault, addHandler_error hr hadd⟩
  | ok r' =>
      obtain ⟨f, hf, -, -, -, hr'⟩ := Registry.add_eq_ok hadd
      refine .inl ⟨f, _, hf, addHandler_ok hr hadd, ?_⟩
      rw [Heap.handlerAt, Heap.registryAt?_update hr, Option.bind_some, hr', OrderedMap.get?_insert,
        if_pos rfl]

theorem findSelector_eq_ok {name : String} :
    findSelector name = .ok sel ↔ Selector.ofName? name = some sel := by
  unfold findSelector
  cases Selector.ofName? name <;> simp

theorem addNamed_unknown {name : String} {fault : Fault}
    (unknown : findSelector name = .error fault) (a : Address) (handler : Value) (s : State) :
    addNamed a name handler s = .error (.raised fault) s := by
  rw [addNamed, unknown]
  rfl

theorem addNamed_found {name : String} (found : findSelector name = .ok sel) (a : Address)
    (handler : Value) (s : State) : addNamed a name handler s = addHandler a sel handler s := by
  rw [addNamed, found]
  rfl

/-- A registration with a type definition is refused, with nothing changed, or
goes to the registry of the definition. -/
theorem register_cases {d : Address} {t : TypeDefinition}
    (ht : s.heap.typeAt? d = some t) (hr : s.heap.registryAt? t.registry = some r)
    (name : String) (handler : Value) :
    (∃ fault, definition (.register name) [.object d, handler] s = .error (.raised fault) s) ∨
    ∃ sel r', r.add sel handler = .ok r' ∧
      definition (.register name) [.object d, handler] s = .ok .null { s with
        heap := s.heap.update t.registry (.registry r')
        journal := s.journal ++ [.registered sel r.owner] } := by
  have found : typeOf (.object d) s = .ok (d, t) s := by
    have hfound := Heap.typeOf?_eq_some.mpr ⟨rfl, Heap.typeAt?_eq_some.mp ht⟩
    simp only [typeOf, bind, EStateM.bind, heap, hfound, demand_some]
  have goesOn : definition (.register name) [.object d, handler] s =
      (do addNamed t.registry name handler; return .null : Action Value) s := by
    rw [definition, bind_ok found]
  rw [goesOn]
  cases hsel : findSelector name with
  | error fault => exact .inl ⟨fault, bind_error (addNamed_unknown hsel _ _ _)⟩
  | ok sel =>
      have named := addNamed_found hsel t.registry handler s
      cases hadd : r.add sel handler with
      | error fault => exact .inl ⟨fault, bind_error (named.trans (addHandler_error hr hadd))⟩
      | ok r' => exact .inr ⟨sel, r', hadd, bind_ok (named.trans (addHandler_ok hr hadd))⟩

end Action

/-! ## Levels of a lookup path -/

/-- The registries that look-up goes through, the nearest first. -/
def Operand.path : Operand → List Address
  | .primitive _ => []
  | .taggable t => t.path

namespace Heap

variable {h : Heap} {v : Value} {sel : Selector} {n : Nat}

theorem resolve_eq (operand : Operand) :
    h.resolve operand sel = operand.path.findSome? (h.handlerAt sel) := by
  cases operand <;> rfl

/-- The level of its lookup path at which a value has a handler. -/
def level? (h : Heap) (v : Value) (sel : Selector) : Option Nat :=
  (h.classify v).path.findIdx? fun a => (h.handlerAt sel a).isSome

/-- Look-up finds a handler just where there is a level that has one. -/
theorem isSome_resolve :
    (h.resolve (h.classify v) sel).isSome = true ↔ ∃ n, h.level? v sel = some n := by
  rw [resolve_eq, ← Option.isSome_iff_exists, level?, List.findIdx?_isSome,
    List.findSome?_isSome_iff, List.any_eq_true]

theorem handlerAt_isSome {a : Address} :
    (h.handlerAt sel a).isSome = true ↔
      ∃ r, h.get? a = some (.registry r) ∧ r.handlers.contains sel = true := by
  simp only [handlerAt, Option.isSome_bind, ← registryAt?_eq_some]
  cases h.registryAt? a <;> simp [OrderedMap.contains]

theorem Guarded.handlerAt (hg : h.Guarded) {a : Address}
    (ha : (h.handlerAt .strictEquals a).isSome = true) :
    (h.handlerAt .equals a).isSome = true := by
  obtain ⟨r, hr, hstrict⟩ := handlerAt_isSome.mp ha
  exact handlerAt_isSome.mpr ⟨r, hr, hg a r hr hstrict⟩

/-- Equality is decided no later than strict equality is. -/
theorem Guarded.level?_le (hg : h.Guarded) (hn : h.level? v .strictEquals = some n) :
    ∃ m, h.level? v .equals = some m ∧ m ≤ n := by
  obtain ⟨hlt, hstrict, -⟩ := List.findIdx?_eq_some_iff_getElem.mp hn
  have hequals := hg.handlerAt hstrict
  cases hm : h.level? v .equals with
  | none =>
      have := List.findIdx?_eq_none_iff.mp hm _ (List.getElem_mem hlt)
      simp [hequals] at this
  | some m =>
      refine ⟨m, rfl, ?_⟩
      obtain ⟨_, _, before⟩ := List.findIdx?_eq_some_iff_getElem.mp hm
      by_contra hlate
      exact before n (Nat.lt_of_not_le hlate) hequals

end Heap

/-! ## All registries of a state -/

/-- What holds of the registries of a state, and of what look-up makes of
them. -/
structure State.WellGuarded (s : State) : Prop where
  /-- Every registry that has `strictEquals` has `equals`. -/
  guarded : ∀ a r, s.heap.registryAt? a = some r →
    r.handlers.contains .strictEquals = true → r.handlers.contains .equals = true
  /-- No registry has two handlers for one selector. -/
  single : ∀ a r, s.heap.registryAt? a = some r → r.handlers.keys.Nodup
  /-- What a registry is given is a function, or it is refused and nothing has
  changed. -/
  callable : ∀ a r sel handler, s.heap.registryAt? a = some r →
    (∃ f s', handler = .function f ∧ Action.addHandler a sel handler s = .ok () s' ∧
      s'.heap.handlerAt sel a = some f) ∨
    ∃ fault, Action.addHandler a sel handler s = .error (.raised fault) s
  /-- Where `strictEquals` resolves, so does `equals`, at the same level or an
  earlier one. -/
  resolved : ∀ v f, s.heap.resolve (s.heap.classify v) .strictEquals = some f →
    ∃ g n m, s.heap.resolve (s.heap.classify v) .equals = some g ∧
      s.heap.level? v .strictEquals = some n ∧ s.heap.level? v .equals = some m ∧ m ≤ n

/-- The guard on strict equality holds in every reachable state. -/
theorem strictEquals_guarded {s : State} (hs : Reachable s) : s.WellGuarded := by
  have hg := hs.guarded
  refine ⟨?_, ?_, ?_, ?_⟩
  · intro a r hr
    exact hg a r (Heap.registryAt?_eq_some.mp hr)
  · intro a r _
    exact r.handlers.nodup
  · intro a r sel handler hr
    exact Action.addHandler_cases sel handler hr
  · intro v f hf
    obtain ⟨n, hn⟩ := Heap.isSome_resolve.mp (Option.isSome_of_eq_some hf)
    obtain ⟨m, hm, hle⟩ := hg.level?_le hn
    obtain ⟨g, hg⟩ := Option.isSome_iff_exists.mp (Heap.isSome_resolve.mpr ⟨m, hm⟩)
    exact ⟨g, n, m, hg, hn, hm, hle⟩

/-- A type with both equalities, and the snapshot of an instance of it that
was refused a strict equality of its own and then given an equality. -/
def twins : Expr :=
  .sequence [
    .assign "Twin" (.call (.definition (.define "Twin" ["strictEquals", "equals"]))
      [.handler "same" (.variable "other"), .handler "alike" (.variable "other"), .literal .null]),
    .assign "twin" (.call (.definition (.instantiate [])) [.variable "Twin"]),
    .attempt (.call (.definition (.override "strictEquals"))
      [.variable "twin", .handler "own" (.variable "this")]) (.literal .null),
    .call (.definition (.override "equals")) [.variable "twin", .handler "own" (.variable "this")],
    .call (.definition .snapshot) [.variable "twin"]]

/-- The snapshot has strict equality from its type, and equality from itself. -/
theorem strictEquals_guarded_twins :
    (State.after 0 twins).heap.level? (.object ⟨5⟩) .strictEquals = some 1 ∧
      (State.after 0 twins).heap.level? (.object ⟨5⟩) .equals = some 0 ∧
      (State.after 0 twins).WellGuarded := by
  have guarded := strictEquals_guarded (reachable_after 0 (Expr.within_full twins))
  exact ⟨by decide +kernel, by decide +kernel, guarded⟩

end OperatorDispatch
