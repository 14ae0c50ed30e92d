import OperatorDispatch.Proofs.Overrides
import OperatorDispatch.Proofs.Sealing

/-!
# What an existing instance does

Look-up on an instance goes through handlers of its own and then through its
type and the ancestors of that.  The type is sealed, but an ancestor need not
be: making an instance seals the definition it is made of and no other.  So as
long as nothing is registered with the instance itself, one thing can change
what it finds for a selector.  An ancestor that is still open, and has no
handler for the selector, can be given one; this handler is then what the
instance finds, unless something nearer has one.

The instance loses nothing that way and keeps every handler it had from its
type and its ancestors, because registries of types only grow
(`Heap.WellSealed.extends`).  The comparison of the two lookup paths is about
lists only: levels that keep what they have can differ in what they gain, and
the first one that has gained something counts (`findSome?_same_or_gained`).
That gives both directions (`Heap.Refinds`): what the nearest such ancestor has
been given is found, and where there is none, what was found before.
-/

namespace OperatorDispatch

/-! ## Levels that keep what they have -/

theorem findSome?_same_or_gained {α β : Type} {f g : α → Option β} :
    ∀ {l : List α}, (∀ x ∈ l, ∀ y, f x = some y → g x = some y) →
      l.findSome? g = l.findSome? f ∨
        ∃ before x after y, l = before ++ x :: after ∧ (∀ z ∈ before, g z = none) ∧
          f x = none ∧ g x = some y := by
  intro l
  induction l with
  | nil =>
      intro _
      exact .inl rfl
  | cons x xs ih =>
      intro keep
      simp only [List.findSome?_cons]
      cases hf : f x with
      | some y => simp [keep x List.mem_cons_self y hf]
      | none =>
          cases hg : g x with
          | some y => exact .inr ⟨[], x, xs, y, rfl, nofun, hf, hg⟩
          | none =>
              rcases ih fun z hz => keep z (List.mem_cons_of_mem _ hz) with same | gained
              · exact .inl same
              · obtain ⟨before, z, after, y, split, nearer, before', found⟩ := gained
                refine .inr ⟨x :: before, z, after, y, ?_, ?_, before', found⟩
                · rw [split, List.cons_append]
                · exact List.forall_mem_cons.mpr ⟨hg, nearer⟩

theorem findSome?_of_nearest {α β : Type} {g : α → Option β} {before after : List α} {x : α}
    {y : β} (nearer : ∀ z ∈ before, g z = none) (found : g x = some y) :
    (before ++ x :: after).findSome? g = some y := by
  rw [List.findSome?_append, List.findSome?_eq_none_iff.mpr nearer, Option.none_or,
    List.findSome?_cons, found]

theorem Entries.find?_append {κ α : Type} [DecidableEq κ] (k : κ) (es fs : List (κ × α)) :
    Entries.find? k (es ++ fs) = (Entries.find? k es).or (Entries.find? k fs) := by
  induction es with
  | nil => rfl
  | cons e es ih =>
      obtain ⟨k', v⟩ := e
      by_cases hk : k' = k
      · simp [Entries.find?, hk]
      · simp [Entries.find?, hk, ih]

theorem Registry.Extends.get? {r r' : Registry} (grown : r.Extends r') {sel : Selector}
    {f : Function} (hf : r.handlers.get? sel = some f) : r'.handlers.get? sel = some f := by
  obtain ⟨new, hnew⟩ := grown.grows
  rw [OrderedMap.get?] at hf ⊢
  rw [← hnew, Entries.find?_append, hf, Option.some_or]

/-! ## Handlers by where they are registered -/

namespace Heap

variable {h h' : Heap} {a : Address} {i : Instance} {sel : Selector}

/-- The handler that a type definition has itself, its ancestors apart. -/
def definedHandler (h : Heap) (d : Address) (sel : Selector) : Option Function :=
  (h.typeAt? d).bind fun t => h.handlerAt sel t.registry

theorem resolve_eq_own_or_type (hi : h.get? a = some (.inst i)) (sel : Selector) :
    h.resolve (h.classify (.object a)) sel =
      (h.ownHandler a sel).or (h.typeHandler i.type sel) := by
  rw [resolve_instance hi, ownHandler_eq hi, overrides, Option.bind_assoc]
  rfl

theorem typeHandler_some (t : Address) (sel : Selector) :
    h.typeHandler (some t) sel = (h.chain t).findSome? (h.definedHandler · sel) := by
  rw [typeHandler, chainRegistries, ← List.head?_filterMap, ← List.head?_filterMap,
    List.filterMap_filterMap]
  congr 1
  refine List.filterMap_congr fun d _ => ?_
  cases hd : h.typeAt? d <;> simp [definedHandler, hd]

/-- What an ancestor of a type that was still open, and had no handler for a
selector, has been given since. -/
def GainedFrom (h h' : Heap) (t d : Address) (sel : Selector) (f : Function) : Prop :=
  d ∈ h.chain t ∧ d ≠ t ∧ ¬ h.SealedAt d ∧ h.definedHandler d sel = none ∧
    h'.definedHandler d sel = some f

/-- Such an ancestor, with nothing nearer to an instance that has a handler: no
registry of its own, and no definition before the ancestor in the chain. -/
structure GainedNearest (h h' : Heap) (a t d : Address) (sel : Selector) (f : Function) :
    Prop where
  gained : h.GainedFrom h' t d sel f
  own : h'.ownHandler a sel = none
  nearer : ∃ before after, h.chain t = before ++ d :: after ∧
    ∀ e ∈ before, h'.definedHandler e sel = none

/-- What the instance at `a`, of type `t`, finds later on: the handler of the
nearest ancestor that has gained one, and without such an ancestor what it
found before. -/
structure Refinds (h h' : Heap) (a t : Address) (sel : Selector) : Prop where
  gained : ∀ d f, h.GainedNearest h' a t d sel f →
    h'.resolve (h'.classify (.object a)) sel = some f
  unchanged : (∀ d f, ¬ h.GainedNearest h' a t d sel f) →
    h'.resolve (h'.classify (.object a)) sel = h.resolve (h.classify (.object a)) sel

/-! ## What types give at a later time -/

section Later

variable (hw : h.WellSealed) (hl : h.Later h')

include hw hl

/-- A type definition keeps the handlers it has. -/
theorem definedHandler_later {d : Address} {f : Function} (hf : h.definedHandler d sel = some f) :
    h'.definedHandler d sel = some f := by
  obtain ⟨t, ht, hf⟩ := Option.bind_eq_some_iff.mp hf
  obtain ⟨r, r', hr, hr', grown⟩ := hw.extends hl (typeAt?_eq_some.mp ht)
  rw [definedHandler, hl.typeAt? ht, Option.bind_some, handlerAt, registryAt?_eq_some.mpr hr',
    Option.bind_some]
  rw [handlerAt, registryAt?_eq_some.mpr hr, Option.bind_some] at hf
  exact grown.get? hf

/-- A sealed one is given no more. -/
theorem definedHandler_of_sealed {d : Address} (hd : h.SealedAt d) :
    h'.definedHandler d sel = h.definedHandler d sel := by
  obtain ⟨t, r, ht, hr, hsealed⟩ := hd
  obtain ⟨r₀, r', hr₀, hr', grown⟩ := hw.extends hl ht
  cases hr.symm.trans hr₀
  rw [grown.frozen hsealed] at hr'
  have ht' := hl.typeAt? (typeAt?_eq_some.mpr ht)
  simp only [definedHandler, ht', typeAt?_eq_some.mpr ht, Option.bind_some, handlerAt,
    registryAt?_eq_some.mpr hr, registryAt?_eq_some.mpr hr']

omit hw in
theorem chain_later {V : Vocabulary} (hc : (Scope.whole V).Covers h) {t : Address}
    (ht : h.SealedAt t) : h'.chain t = h.chain t := by
  obtain ⟨definition, -, hdefinition, -⟩ := ht
  have known : (Scope.whole V).KnowsType h t :=
    ⟨trivial, definition, typeAt?_eq_some.mpr hdefinition⟩
  exact chainFrom_congr hc (fun _ _ => hl.typeAt?) _ known

/-- The handler that the types give is the same later on, or one gained since
from the nearest ancestor that was open. -/
theorem typeHandler_later {V : Vocabulary} (hc : (Scope.whole V).Covers h) {t : Address}
    (ht : h.SealedAt t) :
    h'.typeHandler (some t) sel = h.typeHandler (some t) sel ∨
      ∃ d f, h.GainedFrom h' t d sel f ∧ ∃ before after, h.chain t = before ++ d :: after ∧
        ∀ e ∈ before, h'.definedHandler e sel = none := by
  rw [typeHandler_some, typeHandler_some, chain_later hl hc ht]
  refine (findSome?_same_or_gained fun d _ f => definedHandler_later hw hl).imp_right ?_
  rintro ⟨before, d, after, f, split, nearer, hnone, hf⟩
  have isOpen : ¬ h.SealedAt d := by
    intro closed
    rw [definedHandler_of_sealed hw hl closed, hnone] at hf
    cases hf
  have ancestor : d ∈ h.chain t := split ▸ List.mem_append_right before List.mem_cons_self
  exact ⟨d, f, ⟨ancestor, fun same => isOpen (same ▸ ht), isOpen, hnone, hf⟩, before, after, split,
    nearer⟩

end Later

end Heap

/-! ## Look-up on an instance at a later time -/

/-- As long as an instance is given no handler of its own, it finds what it
found before, or what the nearest open ancestor of its type was given since. -/
theorem Heap.refinds {V : Vocabulary} {h h' : Heap} (hc : (Scope.whole V).Covers h)
    (hw : h.WellSealed) (hl : h.Later h') {a : Address} {i : Instance} {t : Address}
    (hi : h.get? a = some (.inst i)) (ht : i.type = some t) {sel : Selector}
    (own : h'.ownHandler a sel = h.ownHandler a sel) : h.Refinds h' a t sel := by
  have closed := hw.tagged a i t hi ht
  obtain ⟨i', hi', hb⟩ := hl.instanceAt? (instanceAt?_eq_some.mpr hi)
  cases hb with
  | inst type =>
      have later := resolve_eq_own_or_type (instanceAt?_eq_some.mp hi') sel
      have sooner := resolve_eq_own_or_type hi sel
      rw [type, ht] at later
      rw [ht] at sooner
      constructor
      · rintro d f ⟨gained, none, before, after, split, nearer⟩
        rw [later, none, Option.none_or, typeHandler_some, chain_later hl hc closed, split]
        exact findSome?_of_nearest nearer gained.2.2.2.2
      · intro nothing
        rw [later, sooner, own]
        cases hown : h.ownHandler a sel with
        | some f => rfl
        | none =>
            rw [Option.none_or, Option.none_or]
            refine (typeHandler_later hw hl hc closed).resolve_right ?_
            rintro ⟨d, f, gained, nearest⟩
            exact nothing d f ⟨gained, own.trans hown, nearest⟩

/-! ## Stability in runs -/

/-- A handler for a selector is registered with the own registry of the
instance at `a`. -/
def State.Overrides (a : Address) (sel : Selector) (s s' : State) : Prop :=
  ∃ i b r r' handler, s.heap.get? a = some (.inst i) ∧ i.registry = some b ∧
    s.heap.get? b = some (.registry r) ∧ r.add sel handler = .ok r' ∧
    s'.heap = s.heap.update b (.registry r')

/-- How far what the instance at `a`, of type `t`, finds for a selector is
settled in a state.  Runs go by steps, whole ones and those cut short alike
(`ReachableWithin.steps_of_leadsTo`). -/
structure State.Settles (s : State) (a t : Address) (sel : Selector) : Prop where
  /-- Its type takes no more handlers. -/
  typeSealed : s.heap.SealedAt t
  /-- No step gives it a handler of its own but a registration of one with its
  own registry. -/
  own : ∀ s₁ s₂, (Scope.whole .full).Steps s s₁ → (Scope.whole .full).Step s₁ s₂ →
    s₂.heap.ownHandler a sel = s₁.heap.ownHandler a sel ∨ s₁.Overrides a sel s₂
  /-- Without a new handler of its own it finds what the nearest ancestor has
  been given since that was open and had none; if there is no such ancestor, it
  finds what it found. -/
  later : ∀ s', (Scope.whole .full).Steps s s' →
    s'.heap.ownHandler a sel = s.heap.ownHandler a sel → s.heap.Refinds s'.heap a t sel
  /-- A registration with a type definition gives the instance no handler of
  its own, so at most an open ancestor makes a difference. -/
  registration : ∀ d t' name handler, s.heap.typeAt? d = some t' →
    let s' := Action.finalState (Action.definition (.register name) [.object d, handler] s)
    s'.heap.ownHandler a sel = s.heap.ownHandler a sel ∧ s.heap.Refinds s'.heap a t sel
  /-- A sealed definition refuses it, and nothing has changed. -/
  refusal : ∀ d name handler, s.heap.SealedAt d → ∃ fault,
    Action.definition (.register name) [.object d, handler] s = .error (.raised fault) s

theorem Scope.Step.ownHandler {V : Vocabulary} {s s' : State} {a : Address} {i : Instance}
    (hstep : (whole V).Step s s') (hc : (whole V).Covers s.heap)
    (hi : s.heap.get? a = some (.inst i)) (sel : Selector) :
    s'.heap.ownHandler a sel = s.heap.ownHandler a sel ∨ s.Overrides a sel s' := by
  cases hstep with
  | heap change =>
      refine (change.ownHandler hc hi sel).imp_right ?_
      rintro ⟨b, r, r', handler, hb, hr, added, same⟩
      exact ⟨i, b, r, r', handler, hi, hb, hr, added, same⟩
  | bind | sight | log | takeRows | span | increment | reset | limit | share | operators | number
  | settle => exact .inl rfl

namespace ReachableWithin

variable {V : Vocabulary} {s : State} {a t : Address} {i : Instance}

/-- What a registration with a type definition does to look-up on an
instance. -/
theorem resolve_register (hs : ReachableWithin V s) (hi : s.heap.get? a = some (.inst i))
    (ht : i.type = some t) (sel : Selector) {d : Address} {t' : TypeDefinition}
    (hd : s.heap.typeAt? d = some t') (name : String) (handler : Value) :
    let s' := Action.finalState (Action.definition (.register name) [.object d, handler] s)
    s'.heap.ownHandler a sel = s.heap.ownHandler a sel ∧ s.heap.Refinds s'.heap a t sel := by
  intro s'
  obtain ⟨r, hr, refuses⟩ := hs.wellSealed.growing d t' (Heap.typeAt?_eq_some.mp hd)
  rcases Action.register_cases hd (Heap.registryAt?_eq_some.mpr hr) name handler with
    ⟨fault, refused⟩ | ⟨sel', r', added, done⟩
  · have unchanged : s' = s := by
      show Action.finalState _ = s
      rw [refused]
      rfl
    rw [unchanged]
    exact ⟨rfl, Heap.refinds hs.confines.heap hs.wellSealed (.refl _) hi ht rfl⟩
  · have changed : s'.heap = s.heap.update t'.registry (.registry r') := by
      show (Action.finalState _).heap = _
      rw [done]
      rfl
    have hl : s.heap.Later s'.heap := by
      rw [changed]
      exact .update hr (Registry.becomes_add _ added)
    have own : s'.heap.ownHandler a sel = s.heap.ownHandler a sel := by
      rw [changed]
      exact hs.ownHandler_update_registry hi hr refuses sel
    exact ⟨own, Heap.refinds hs.confines.heap hs.wellSealed hl hi ht own⟩

/-- A sealed type definition takes no handler. -/
theorem register_sealed {d : Address} (hd : s.heap.SealedAt d) (name : String)
    (handler : Value) : ∃ fault,
      Action.definition (.register name) [.object d, handler] s = .error (.raised fault) s := by
  obtain ⟨t', r, ht', hr, closed⟩ := hd
  rcases Action.register_cases (Heap.typeAt?_eq_some.mpr ht') (Heap.registryAt?_eq_some.mpr hr)
    name handler with refused | ⟨sel, r', added, -⟩
  · exact refused
  · obtain ⟨-, -, isOpen, -⟩ := Registry.add_eq_ok added
    simp [closed] at isOpen

end ReachableWithin

/-- What an existing instance finds changes by an override of its own, or by a
handler for an ancestor of its type that is still open, and by nothing else. -/
theorem instance_settled {s : State} (hs : Reachable s) {a t : Address} {i : Instance}
    (hi : s.heap.instanceAt? a = some i) (ht : i.type = some t) (sel : Selector) :
    s.Settles a t sel := by
  have there := Heap.instanceAt?_eq_some.mp hi
  refine ⟨hs.wellSealed.tagged a i t there ht, ?_, ?_, ?_, ?_⟩
  · intro s₁ s₂ hsteps hstep
    obtain ⟨i₁, hi₁, -⟩ := hsteps.later.instanceAt? hi
    have confined := hsteps.confines hs.confines
    exact hstep.ownHandler confined.heap (Heap.instanceAt?_eq_some.mp hi₁) sel
  · intro s' hsteps own
    exact Heap.refinds hs.confines.heap hs.wellSealed hsteps.later there ht own
  · intro d t' name handler hd
    exact hs.resolve_register there ht sel hd name handler
  · intro d name handler hd
    exact ReachableWithin.register_sealed hd name handler

/-- An instance of a type whose parent is still open. -/
def openFamily : Expr :=
  .sequence [
    .assign "parent" (.call (.definition (.openType "Parent")) [.literal .null]),
    .assign "child" (.call (.definition (.openType "Child")) [.variable "parent"]),
    .assign "value" (.call (.definition (.instantiate [])) [.variable "child"])]

/-- A handler for the parent. -/
def lateHandler : Expr :=
  .call (.definition (.register "add")) [.variable "parent", .handler "late" (.variable "other")]

/-- The state after the parent has been given its handler. -/
def State.afterLate : State :=
  Action.finalState (Action.evaluateTop (.own .standard) 0 lateHandler (.after 0 openFamily))

theorem leadsTo_afterLate : (State.after 0 openFamily).LeadsTo .full .afterLate :=
  .single (.evaluate 0 trivial Scope.knowsFrame_none (Expr.within_full lateHandler))

theorem instanceAt?_openFamily :
    ∃ i, (State.after 0 openFamily).heap.instanceAt? ⟨4⟩ = some i ∧ i.type = some ⟨3⟩ := by
  have type : ((State.after 0 openFamily).heap.instanceAt? ⟨4⟩).map (·.type) =
      some (some ⟨3⟩) := by
    decide +kernel
  exact Option.map_eq_some_iff.mp type

/-- The instance is never given a registry of its own, so no override stands
behind what it finds then. -/
theorem bare_afterLate : (State.afterLate.heap.instanceAt? ⟨4⟩).bind Instance.registry = none := by
  decide +kernel

theorem ownHandler_afterLate :
    State.afterLate.heap.ownHandler ⟨4⟩ .add =
      (State.after 0 openFamily).heap.ownHandler ⟨4⟩ .add := by
  have before : ((State.after 0 openFamily).heap.ownHandler ⟨4⟩ .add).isNone = true := by
    decide +kernel
  have after : (State.afterLate.heap.ownHandler ⟨4⟩ .add).isNone = true := by decide +kernel
  rw [Option.isNone_iff_eq_none.mp before, Option.isNone_iff_eq_none.mp after]

theorem resolve_afterLate :
    State.afterLate.heap.resolve (State.afterLate.heap.classify (.object ⟨4⟩)) .add ≠
      (State.after 0 openFamily).heap.resolve
        ((State.after 0 openFamily).heap.classify (.object ⟨4⟩)) .add := by
  intro same
  have before : ((State.after 0 openFamily).heap.resolve
      ((State.after 0 openFamily).heap.classify (.object ⟨4⟩)) .add).isSome = false := by
    decide +kernel
  have after : (State.afterLate.heap.resolve
      (State.afterLate.heap.classify (.object ⟨4⟩)) .add).isSome = true := by
    decide +kernel
  rw [same, before] at after
  cases after

/-- Even an instance that has no registry of its own afterwards, and so was
given no override, need not keep to what it finds. -/
theorem instance_not_stable :
    ¬ ∀ (s s' : State) (a t : Address) (i : Instance) (sel : Selector), Reachable s →
        s.heap.instanceAt? a = some i → i.type = some t → s.LeadsTo .full s' →
        (s'.heap.instanceAt? a).bind Instance.registry = none →
        s'.heap.resolve (s'.heap.classify (.object a)) sel =
          s.heap.resolve (s.heap.classify (.object a)) sel := by
  intro stable
  obtain ⟨i, hi, ht⟩ := instanceAt?_openFamily
  have hs : Reachable (.after 0 openFamily) := reachable_after 0 (Expr.within_full openFamily)
  have same := stable (.after 0 openFamily) .afterLate ⟨4⟩ ⟨3⟩ i .add hs hi ht
    leadsTo_afterLate bare_afterLate
  exact resolve_afterLate same

theorem instance_settled_child :
    (State.after 0 openFamily).Settles ⟨4⟩ ⟨3⟩ .add ∧
      ∃ d f, (State.after 0 openFamily).heap.GainedNearest State.afterLate.heap ⟨4⟩ ⟨3⟩ d .add f ∧
        State.afterLate.heap.resolve (State.afterLate.heap.classify (.object ⟨4⟩)) .add =
          some f := by
  obtain ⟨i, hi, ht⟩ := instanceAt?_openFamily
  have hs : Reachable (.after 0 openFamily) := reachable_after 0 (Expr.within_full openFamily)
  have settled := instance_settled hs hi ht .add
  refine ⟨settled, ?_⟩
  have steps := hs.steps_of_leadsTo leadsTo_afterLate
  have refinds := settled.later .afterLate steps ownHandler_afterLate
  by_contra none
  refine resolve_afterLate (refinds.unchanged fun d f gained => none ?_)
  exact ⟨d, f, gained, refinds.gained d f gained⟩

end OperatorDispatch
