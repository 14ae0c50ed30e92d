import OperatorDispatch.Proofs.Indifference
import OperatorDispatch.Proofs.Levels
import OperatorDispatch.Proofs.Rejections

/-!
# Whom a registration reaches

A registry is a level of many values: that of a type definition is a level of
every instance of the type and of all types derived from it.  A handler that is
registered there decides for those values on whose levels no earlier registry
has the selector, and changes nothing for the others.

Two observations carry this.  A registration adds one handler to one registry
and leaves the levels of all values alone, except that the first override of an
instance puts a new registry in front of them (`Heap.Gains`).  And the first
handler on a list of levels, when one level gains a handler, is either that one
or the one it was (`findSome?_reached`, `findSome?_unreached`).
-/

namespace OperatorDispatch

/-! ## The first handler on a list of levels -/

section FirstHandler

variable {α β : Type} {g g' : α → Option β} {L : α} {f : β}

theorem findSome?_reached {before after : List α} (shadows : ∀ b ∈ before, g b = none)
    (here : g L = some f) : (before ++ L :: after).findSome? g = some f := by
  rw [List.findSome?_append, List.findSome?_eq_none_iff.mpr shadows, List.findSome?_cons, here]
  rfl

/-- What is found before `L` comes up does not depend on what is at `L`. -/
theorem findSome?_unreached (elsewhere : ∀ b, b ≠ L → g' b = g b) : ∀ {path : List α},
    (∀ before after, path = before ++ L :: after → ∃ b ∈ before, g' b ≠ none) →
      path.findSome? g' = path.findSome? g
  | [], _ => rfl
  | c :: path, shadowed => by
      have other : c ≠ L := by
        rintro rfl
        obtain ⟨b, hb, -⟩ := shadowed [] path rfl
        cases hb
      rw [List.findSome?_cons, List.findSome?_cons, elsewhere c other]
      cases hc : g c with
      | some f => rfl
      | none =>
          refine findSome?_unreached elsewhere fun before after split => ?_
          obtain ⟨b, hb, there⟩ := shadowed (c :: before) after (congrArg (c :: ·) split)
          rcases List.mem_cons.mp hb with rfl | hb
          · exact absurd ((elsewhere b other).trans hc) there
          · exact ⟨b, hb, there⟩

end FirstHandler

/-! ## One more handler on a heap -/

namespace Heap

variable {h h' : Heap} {a b L : Address} {x : Value} {sel sel' : Selector} {f : Function}

/-- The registry at `L` is the first level of a value that can decide on a
selector. -/
def Reaches (h : Heap) (L : Address) (x : Value) (sel : Selector) : Prop :=
  ∃ before after, h.Levels x (before ++ L :: after) ∧ ∀ b ∈ before, h.handlerAt sel b = none

/-- The registry at `L` has got a handler, and may be a new level of some
value. -/
structure Gains (h h' : Heap) (L : Address) (sel : Selector) (f : Function) : Prop where
  here : h'.handlerAt sel L = some f
  elsewhere : ∀ b sel', b ≠ L ∨ sel' ≠ sel → h'.handlerAt sel' b = h.handlerAt sel' b
  path : ∀ x, (h'.classify x).path = (h.classify x).path ∨
    h.get? L = none ∧ (h'.classify x).path = L :: (h.classify x).path
  /-- Whose registry it is was settled before, or it is new, and no level of
  any other value. -/
  owner : ∀ a, h'.Owns a L → h.Owns a L ∨
    h.get? L = none ∧ ∀ x, x ≠ .object a → (h'.classify x).path = (h.classify x).path

theorem path_of_types (types : ∀ a, h'.typeAt? a = h.typeAt? a)
    (instances : ∀ a, x = .object a → h'.instanceAt? a = h.instanceAt? a) :
    (h'.classify x).path = (h.classify x).path := by
  cases x with
  | primitive | function => rfl
  | object a =>
      rw [path_object, path_object, instances a rfl]
      cases h.instanceAt? a with
      | none => rfl
      | some i => exact lookupPath_of_types types i

/-- No path depends on what a registry holds. -/
theorem path_add {r r' : Registry} {handler : Value} (hr : h.get? L = some (.registry r))
    (added : r.add sel handler = .ok r') (x : Value) :
    ((h.update L (.registry r')).classify x).path = (h.classify x).path := by
  obtain ⟨f, -, -, -, -, rfl⟩ := Registry.add_eq_ok added
  have same : SameBesides [] h
      (h.update L (.registry { r with handlers := r.handlers.insert sel f })) :=
    sameBesides_update (registryAt?_eq_some.mpr hr) List.not_mem_nil _
  rw [same.classify]

/-- An accepted handler. -/
theorem gains_add {r r' : Registry} {handler : Value} (hr : h.get? L = some (.registry r))
    (added : r.add sel handler = .ok r') :
    ∃ f, handler = .function f ∧ h.Gains (h.update L (.registry r')) L sel f := by
  have path := path_add hr added
  obtain ⟨f, rfl, -, -, -, rfl⟩ := Registry.add_eq_ok added
  let widened : Registry := { r with handlers := r.handlers.insert sel f }
  have there : (h.update L (.registry widened)).get? L = some (.registry widened) :=
    get?_update_self hr
  refine ⟨f, rfl, ?_, ?_, fun x => .inl (path x),
    fun a own => .inl (own.of_update (by simp))⟩
  · rw [handlerAt_of_registry there, OrderedMap.get?_insert, if_pos rfl]
  · intro b sel' other
    by_cases hb : b = L
    · subst hb
      have hsel : sel ≠ sel' := (other.resolve_left fun hb => hb rfl).symm
      rw [handlerAt_of_registry there, handlerAt_of_registry hr, OrderedMap.get?_insert,
        if_neg hsel]
    · exact handlerAt_congr (get?_update_of_ne _ hb)

/-! ## The first override -/

/-- What the first override of an instance does to the heap, before the handler
is in. -/
theorem get?_withOwnRegistry_eq {i : Instance} (hi : h.get? a = some (.inst i)) (b : Address) :
    (h.withOwnRegistry a i).get? b = h.get? b ∨
      (b = a ∧ (h.withOwnRegistry a i).get? b =
        some (.inst { i with registry := some ⟨h.size⟩ })) ∨
      h.get? b = none ∧ ∃ owner, (h.withOwnRegistry a i).get? b =
        some (.registry (.fresh owner true)) := by
  by_cases hb : b = a
  · subst hb
    exact .inr (.inl ⟨rfl, get?_withOwnRegistry_self hi⟩)
  · rw [withOwnRegistry, get?_update_of_ne _ hb, get?_allocate]
    by_cases last : b.index = h.size
    · rw [if_pos last]
      exact .inr (.inr ⟨get?_eq_none.mpr (Nat.le_of_eq last.symm), _, rfl⟩)
    · rw [if_neg last]
      exact .inl rfl

section FirstOverride

variable {i : Instance} (hi : h.get? a = some (.inst i))
include hi

theorem typeAt?_withOwnRegistry (b : Address) :
    (h.withOwnRegistry a i).typeAt? b = h.typeAt? b := by
  unfold typeAt?
  rcases get?_withOwnRegistry_eq hi b with same | ⟨rfl, new⟩ | ⟨old, owner, new⟩
  · rw [same]
  · rw [new, hi]
  · rw [new, old]

theorem instanceAt?_withOwnRegistry (hb : b ≠ a) :
    (h.withOwnRegistry a i).instanceAt? b = h.instanceAt? b := by
  unfold instanceAt?
  rcases get?_withOwnRegistry_eq hi b with same | ⟨rfl, -⟩ | ⟨old, owner, new⟩
  · rw [same]
  · exact absurd rfl hb
  · rw [new, old]

/-- The new registry is empty, and nothing was there before. -/
theorem handlerAt_withOwnRegistry (b : Address) (sel : Selector) :
    (h.withOwnRegistry a i).handlerAt sel b = h.handlerAt sel b := by
  unfold handlerAt registryAt?
  rcases get?_withOwnRegistry_eq hi b with same | ⟨rfl, new⟩ | ⟨old, owner, new⟩
  · rw [same]
  · rw [new, hi]
  · rw [new, old]
    rfl

/-- It goes in front of the levels of the instance. -/
theorem path_withOwnRegistry (bare : i.registry = none) (x : Value) :
    x ≠ .object a ∧ ((h.withOwnRegistry a i).classify x).path = (h.classify x).path ∨
      x = .object a ∧
        ((h.withOwnRegistry a i).classify x).path = ⟨h.size⟩ :: (h.classify x).path := by
  by_cases hx : x = .object a
  · subst hx
    refine .inr ⟨rfl, ?_⟩
    rw [path_object, path_object, instanceAt?_eq_some.mpr hi,
      instanceAt?_eq_some.mpr (get?_withOwnRegistry_self hi)]
    show (h.withOwnRegistry a i).lookupPath _ = _
    rw [lookupPath_of_types (typeAt?_withOwnRegistry hi)]
    simp [lookupPath, bare]
  · refine .inl ⟨hx, path_of_types (typeAt?_withOwnRegistry hi) fun b hb => ?_⟩
    exact instanceAt?_withOwnRegistry hi fun hba => hx (hba ▸ hb)

end FirstOverride

/-- An accepted first override. -/
theorem gains_first {i : Instance} {r' : Registry} {handler : Value} {owner : String}
    (hi : h.get? a = some (.inst i)) (bare : i.registry = none)
    (hr : (h.withOwnRegistry a i).get? ⟨h.size⟩ = some (.registry (.fresh owner true)))
    (added : (Registry.fresh owner true).add sel handler = .ok r') :
    ∃ f, handler = .function f ∧
      h.Gains ((h.withOwnRegistry a i).update ⟨h.size⟩ (.registry r')) ⟨h.size⟩ sel f := by
  obtain ⟨f, rfl, gains⟩ := gains_add hr added
  have new : h.get? ⟨h.size⟩ = none := get?_eq_none.mpr (Nat.le_refl _)
  refine ⟨f, rfl, gains.here, fun b sel' other => ?_, fun x => ?_, fun b own => ?_⟩
  · rw [gains.elsewhere b sel' other, handlerAt_withOwnRegistry hi]
  · rw [path_add hr added]
    rcases path_withOwnRegistry hi bare x with ⟨-, same⟩ | ⟨-, front⟩
    · exact .inl same
    · exact .inr ⟨new, front⟩
  · rcases (own.of_update (by simp)).of_withOwnRegistry with old | ⟨rfl, -⟩
    · exact .inl old
    · refine .inr ⟨new, fun x hx => ?_⟩
      rw [path_add hr added]
      rcases path_withOwnRegistry hi bare x with ⟨-, same⟩ | ⟨here, -⟩
      · exact same
      · exact absurd here hx

/-! ## What look-up makes of it -/

namespace Gains

variable (hg : h.Gains h' L sel f)
include hg

/-- The old handlers can be looked up along the new path. -/
theorem resolve_before (x : Value) (sel' : Selector) :
    h.resolve (h.classify x) sel' = (h'.classify x).path.findSome? (h.handlerAt sel') := by
  rw [resolve_eq]
  rcases hg.path x with same | ⟨new, front⟩
  · rw [same]
  · have nothing : h.handlerAt sel' L = none := by
      rw [handlerAt, registryAt?, new]
      rfl
    rw [front, List.findSome?_cons, nothing]

theorem resolve_reached {before after : List Address}
    (path : (h'.classify x).path = before ++ L :: after)
    (shadows : ∀ b ∈ before, h'.handlerAt sel b = none) :
    h'.resolve (h'.classify x) sel = some f := by
  rw [resolve_eq, path]
  exact findSome?_reached shadows hg.here

theorem resolve_unreached
    (shadowed : sel' = sel → ∀ before after, (h'.classify x).path = before ++ L :: after →
      ∃ b ∈ before, h'.handlerAt sel b ≠ none) :
    h'.resolve (h'.classify x) sel' = h.resolve (h.classify x) sel' := by
  rw [hg.resolve_before, resolve_eq]
  by_cases hsel : sel' = sel
  · subst hsel
    exact findSome?_unreached (fun b hb => hg.elsewhere b _ (.inl hb)) (shadowed rfl)
  · have same : h'.handlerAt sel' = h.handlerAt sel' :=
      funext fun b => hg.elsewhere b sel' (.inr hsel)
    rw [same]

end Gains

end Heap

/-! ## Registrations -/

/-- The text under which a command registers a handler. -/
def DefinitionCommand.registers? : DefinitionCommand → Option String
  | .register name | .override name | .addTo name => some name
  | _ => none

/-- The registry that a registration goes to: that of a type definition, the
own one of an instance, or one that is named itself. -/
inductive DefinitionCommand.GoesTo (h : Heap) : DefinitionCommand → Value → Address → Prop
  | register {name : String} {d : Address} {t : TypeDefinition} (there : h.typeAt? d = some t) :
      GoesTo h (.register name) (.object d) t.registry
  | override {name : String} {a L : Address} (own : h.Owns a L) :
      GoesTo h (.override name) (.object a) L
  | addTo {name : String} {L : Address} : GoesTo h (.addTo name) (.object L) L

namespace Action

variable {s s' : State} {L : Address} {sel : Selector} {name : String}
  {target handler v : Value} {c : DefinitionCommand}

theorem addHandler_eq_ok (run : addHandler L sel handler s = .ok () s') :
    ∃ r r', s.heap.get? L = some (.registry r) ∧ r.add sel handler = .ok r' ∧
      s'.heap = s.heap.update L (.registry r') := by
  obtain ⟨r, s₁, found, rest⟩ := bind_eq_ok run
  obtain ⟨there, rfl⟩ := demand_eq_ok (o := s.heap.registryAt? L) found
  obtain ⟨r', s₂, checked, written⟩ := bind_eq_ok rest
  obtain ⟨added, rfl⟩ := ofExcept_eq_ok checked
  cases written
  exact ⟨r, r', Heap.registryAt?_eq_some.mp there, added, rfl⟩

theorem addNamed_eq_ok (run : addNamed L name handler s = .ok () s') :
    ∃ sel, Selector.ofName? name = some sel ∧ addHandler L sel handler s = .ok () s' := by
  obtain ⟨sel, s₁, looked, added⟩ := bind_eq_ok run
  obtain ⟨found, rfl⟩ := ofExcept_eq_ok looked
  exact ⟨sel, findSelector_eq_ok.mp found, added⟩

/-- A handler added under a name, then null as the answer. -/
theorem addNamed_null
    (run : (do addNamed L name handler; return .null : Action Value) s = .ok v s') :
    ∃ sel r r', Selector.ofName? name = some sel ∧ s.heap.get? L = some (.registry r) ∧
      r.add sel handler = .ok r' ∧ s'.heap = s.heap.update L (.registry r') := by
  obtain ⟨⟨⟩, t, named, last⟩ := bind_eq_ok run
  cases last
  obtain ⟨sel, hsel, added⟩ := addNamed_eq_ok named
  obtain ⟨r, r', hr, hr', hs'⟩ := addHandler_eq_ok added
  exact ⟨sel, r, r', hsel, hr, hr', hs'⟩

/-- What the three ways of registering a handler come to. -/
def Registers (c : DefinitionCommand) (name : String) (target handler : Value) (s s' : State) :
    Prop :=
  (∃ a, target = .object a ∧ a.index < s.heap.size) ∧
    ∃ sel f L, Selector.ofName? name = some sel ∧ handler = .function f ∧
      c.GoesTo s'.heap target L ∧ s.heap.Gains s'.heap L sel f

theorem register_registers
    (run : definition (.register name) [target, handler] s = .ok v s') :
    Registers (.register name) name target handler s s' := by
  obtain ⟨⟨d, t⟩, s₁, found, rest⟩ := bind_eq_ok run
  obtain ⟨found, rfl⟩ := demand_eq_ok (o := s.heap.typeOf? target) found
  obtain ⟨rfl, ht⟩ := Heap.typeOf?_eq_some.mp found
  obtain ⟨sel, r, r', hsel, hr, added, heap⟩ := addNamed_null rest
  obtain ⟨f, hf, gains⟩ := Heap.gains_add hr added
  have other : d ≠ t.registry := by
    rintro same
    rw [same] at ht
    cases ht.symm.trans hr
  have there : s'.heap.typeAt? d = some t := by
    rw [heap, Heap.typeAt?_eq_some, Heap.get?_update_of_ne _ other, ht]
  exact ⟨⟨d, rfl, Heap.lt_size_of_get? ht⟩,
    sel, f, t.registry, hsel, hf, .register there, heap ▸ gains⟩

theorem addTo_registers
    (run : definition (.addTo name) [target, handler] s = .ok v s') :
    Registers (.addTo name) name target handler s s' := by
  obtain ⟨⟨L, r₀⟩, s₁, found, rest⟩ := bind_eq_ok run
  obtain ⟨found, rfl⟩ := demand_eq_ok (o := s.heap.registryOf? target) found
  obtain ⟨rfl, -⟩ := Heap.registryOf?_eq_some.mp found
  obtain ⟨sel, r, r', hsel, hr, added, heap⟩ := addNamed_null rest
  obtain ⟨f, hf, gains⟩ := Heap.gains_add hr added
  exact ⟨⟨L, rfl, Heap.lt_size_of_get? hr⟩, sel, f, L, hsel, hf, .addTo, heap ▸ gains⟩

theorem override_registers
    (run : definition (.override name) [target, handler] s = .ok v s') :
    Registers (.override name) name target handler s s' := by
  cases found : s.heap.instanceOf? target with
  | none => cases (override_refused found).symm.trans run
  | some x =>
      obtain ⟨a, i⟩ := x
      obtain ⟨rfl, hi⟩ := Heap.instanceOf?_eq_some.mp found
      refine ⟨⟨a, rfl, Heap.lt_size_of_get? hi⟩, ?_⟩
      cases own : i.registry with
      | none =>
          rw [override_bare ⟨found, own⟩] at run
          obtain ⟨sel, r, r', hsel, hr, added, heap⟩ := addNamed_null run
          have fresh := Heap.get?_withOwnRegistry_new hi
          cases hr.symm.trans fresh
          obtain ⟨f, hf, gains⟩ := Heap.gains_first hi own fresh added
          have other : a ≠ ⟨s.heap.size⟩ := by
            rintro rfl
            exact Nat.lt_irrefl _ (Heap.lt_size_of_get? hi)
          have owns : s'.heap.Owns a ⟨s.heap.size⟩ := by
            refine ⟨{ i with registry := some ⟨s.heap.size⟩ }, ?_, rfl⟩
            rw [heap, Heap.get?_update_of_ne _ other, Heap.get?_withOwnRegistry_self hi]
          exact ⟨sel, f, _, hsel, hf, .override owns, heap ▸ gains⟩
      | some L =>
          rw [override_owned found own] at run
          obtain ⟨sel, r, r', hsel, hr, added, heap⟩ := addNamed_null run
          obtain ⟨f, hf, gains⟩ := Heap.gains_add hr added
          have other : a ≠ L := by
            rintro rfl
            cases hi.symm.trans hr
          have owns : s'.heap.Owns a L := by
            refine ⟨i, ?_, own⟩
            rw [heap, Heap.get?_update_of_ne _ other, hi]
          exact ⟨sel, f, L, hsel, hf, .override owns, heap ▸ gains⟩

theorem definition_registers (registers : c.registers? = some name)
    (run : definition c [target, handler] s = .ok v s') :
    Registers c name target handler s s' := by
  cases c with
  | register => cases registers; exact register_registers run
  | override => cases registers; exact override_registers run
  | addTo => cases registers; exact addTo_registers run
  | _ => cases registers

end Action

/-! ## Look-up by levels -/

/-- What the registration of a handler for a selector with the registry at `L`
means for look-up. -/
structure State.Registration (s s' : State) (L : Address) (sel : Selector) (f : Function) :
    Prop where
  /-- Values on whose levels no earlier registry has the selector are given the
  new handler. -/
  reached : ∀ x, s'.heap.Reaches L x sel → s'.heap.resolve (s'.heap.classify x) sel = some f
  /-- All others, and all other selectors, are as before. -/
  unreached : ∀ x sel', ¬ (sel' = sel ∧ s'.heap.Reaches L x sel) →
    s'.heap.resolve (s'.heap.classify x) sel' = s.heap.resolve (s.heap.classify x) sel'
  /-- No other registry has changed. -/
  elsewhere : ∀ b sel', b ≠ L ∨ sel' ≠ sel → s'.heap.handlerAt sel' b = s.heap.handlerAt sel' b
  /-- The levels are the old ones, behind the registry where it is new. -/
  levels : ∀ x levels, s.heap.Levels x levels → s'.heap.Levels x levels ∨
    s.heap.get? L = none ∧ s'.heap.Levels x (L :: levels)
  /-- Where the registry is that of an instance, nothing else is reached. -/
  owned : ∀ a, s'.heap.Owns a L → ∀ x, x ≠ .object a → ∀ sel',
    s'.heap.resolve (s'.heap.classify x) sel' = s.heap.resolve (s.heap.classify x) sel'

/-- What look-up does in a state, and what registrations make of it. -/
structure State.LooksUpByLevels (s : State) : Prop where
  /-- Every value has a list of levels, and they are registries. -/
  levels : ∀ x, ∃ levels, s.heap.Levels x levels ∧
    ∀ L ∈ levels, ∃ r, s.heap.registryAt? L = some r
  /-- The first level that has a handler decides. -/
  first : ∀ x levels sel f, s.heap.Levels x levels →
    (s.heap.resolve (s.heap.classify x) sel = some f ↔
      ∃ before L after, levels = before ++ L :: after ∧
        (∀ b ∈ before, s.heap.handlerAt sel b = none) ∧ s.heap.handlerAt sel L = some f)
  /-- A registry that takes a handler. -/
  added : ∀ L sel handler s', Action.addHandler L sel handler s = .ok () s' →
    ∃ f, handler = .function f ∧ s.Registration s' L sel f
  /-- A command that registers a handler. -/
  registered : ∀ c name target handler v s', c.registers? = some name →
    Action.definition c [target, handler] s = .ok v s' →
      ∃ sel f L, Selector.ofName? name = some sel ∧ handler = .function f ∧
        c.GoesTo s'.heap target L ∧ s.Registration s' L sel f

section

variable {V : Vocabulary} {s s' : State} {L : Address} {sel : Selector} {f : Function}

theorem Heap.Gains.registration (hg : s.heap.Gains s'.heap L sel f) (hs : ReachableWithin V s)
    (steps : (Scope.whole V).Steps s s') : s.Registration s' L sel f := by
  have path : ∀ {x levels}, s'.heap.Levels x levels ↔ levels = (s'.heap.classify x).path :=
    hs.levels_iff steps
  refine ⟨?_, ?_, hg.elsewhere, ?_, ?_⟩
  · rintro x ⟨before, after, levels, shadows⟩
    exact hg.resolve_reached (path.mp levels).symm shadows
  · intro x sel' off
    refine hg.resolve_unreached fun hsel before after split => ?_
    by_contra shadows
    refine off ⟨hsel, before, after, path.mpr split.symm, fun b hb => ?_⟩
    by_contra there
    exact shadows ⟨b, hb, there⟩
  · intro x levels h
    cases (hs.levels_iff .refl).mp h
    rcases hg.path x with same | ⟨new, front⟩
    · exact .inl (path.mpr same.symm)
    · exact .inr ⟨new, path.mpr front.symm⟩
  · intro a own x hx sel'
    have off : L ∉ (s'.heap.classify x).path := by
      intro hL
      rcases hg.owner a own with old | ⟨new, others⟩
      · rcases hg.path x with same | ⟨new, -⟩
        · exact hx (hs.eq_owner_of_mem_path old (same ▸ hL))
        · obtain ⟨r, hr⟩ := hs.confines.heap.owned old
          cases hr.symm.trans new
      · obtain ⟨r, hr⟩ := hs.registry_of_mem_path (others x hx ▸ hL)
        cases hr.symm.trans new
    refine hg.resolve_unreached fun _ before after split => absurd ?_ off
    rw [split]
    exact List.mem_append_right _ List.mem_cons_self

end

/-- Look-up takes the first match along the levels of a value, and a
registration reaches exactly those values for which its level is the first. -/
theorem lookup_by_levels {s : State} (hs : Reachable s) : s.LooksUpByLevels where
  levels x := by
    refine ⟨_, (hs.levels_iff .refl).mpr rfl, fun L hL => ?_⟩
    obtain ⟨r, hr⟩ := hs.registry_of_mem_path hL
    exact ⟨r, Heap.registryAt?_eq_some.mpr hr⟩
  first x levels sel f h := by
    cases (hs.levels_iff .refl).mp h
    rw [Heap.resolve_eq, List.findSome?_eq_some_iff]
    constructor
    · rintro ⟨before, L, after, split, here, shadows⟩
      exact ⟨before, L, after, split, shadows, here⟩
    · rintro ⟨before, L, after, split, shadows, here⟩
      exact ⟨before, L, after, split, here, shadows⟩
  added L sel handler s' run := by
    obtain ⟨r, r', hr, added, heap⟩ := Action.addHandler_eq_ok run
    obtain ⟨f, rfl, gains⟩ := Heap.gains_add hr added
    have runs : Action.Runs (Scope.whole .full).Step s (Action.addHandler L sel (.function f))
        fun _ _ => True :=
      Action.runs_addHandler trivial (Expr.within_full f.body)
    exact ⟨f, rfl, Heap.Gains.registration (heap ▸ gains) hs (runs.reached run).1⟩
  registered c name target handler v s' registers run := by
    obtain ⟨⟨a, rfl, ha⟩, sel, f, L, hsel, rfl, goesTo, gains⟩ :=
      Action.definition_registers registers run
    have known : ∀ v ∈ [Value.object a, .function f], (Scope.whole .full).Knows s.heap v := by
      intro v hv
      rcases List.mem_pair.mp hv with rfl | rfl
      · exact ⟨trivial, ha⟩
      · exact Expr.within_full f.body
    have runs := Action.runs_definition hs.confines (fun _ _ => trivial) (c := c) known
    exact ⟨sel, f, L, hsel, rfl, goesTo, gains.registration hs (runs.reached run).1⟩

/-- A type, one derived from it, an instance of that one, a snapshot of the
instance, and then a handler of the instance's own. -/
def family : Expr :=
  .sequence [
    .assign "Shape" (.call (.definition (.define "Shape" ["add"]))
      [.handler "joined" (.variable "other"), .literal .null]),
    .assign "Square" (.call (.definition (.define "Square" [])) [.variable "Shape"]),
    .assign "square" (.call (.definition (.instantiate [])) [.variable "Square"]),
    .call (.definition .snapshot) [.variable "square"],
    .call (.definition (.override "add")) [.variable "square", .handler "own" (.variable "this")]]

/-- The instance has its own handler; the snapshot taken before has that of the
ancestor still. -/
theorem lookup_by_levels_family :
    (State.after 0 family).heap.Levels (.object ⟨4⟩) [⟨6⟩, ⟨2⟩, ⟨0⟩] ∧
      (State.after 0 family).heap.Levels (.object ⟨5⟩) [⟨2⟩, ⟨0⟩] ∧
      (State.after 0 family).LooksUpByLevels := by
  have reachable := reachable_after 0 (Expr.within_full family)
  exact ⟨(reachable.levels_iff .refl).mpr (by decide +kernel),
    (reachable.levels_iff .refl).mpr (by decide +kernel), lookup_by_levels reachable⟩

end OperatorDispatch
