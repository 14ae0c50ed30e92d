import OperatorDispatch.Proofs.Conduct
import OperatorDispatch.Proofs.Parallel

/-!
# The two positions of a step

A step before its operand calls the handler at once, and a step behind it takes a
snapshot first.  So the two runs of the handler start on the two sides of a gap, which
is as wide as the snapshot is large, and with the same receiver.  Nothing at hand leads
into the gap, so the second start is the first one displaced
(`ReachableWithin.displaced`); and as the handler runs in parallel from there, the two
positions end the same way and leave the same behind.

What was there before the step lies below the gap.  It is at its old address on both
sides, so that "the same" is said of it without a renaming, but for what it refers to
among the new objects.
-/

namespace OperatorDispatch

/-! ## Parents are older -/

namespace Heap.Older

variable {h : Heap}

theorem takeSnapshot (older : h.Older) (i : Instance) : (h.takeSnapshot i).2.Older := by
  intro a o p ho hp
  by_cases old : a.index < h.size
  · rw [get?_takeSnapshot_of_lt old] at ho
    exact older a o p ho hp
  · -- neither clones nor registries nor instances have parents
    exfalso
    obtain ⟨b, hb, q, hq, rfl⟩ | ⟨b, r, -, rfl⟩ | ⟨registry, -, rfl, -⟩ :=
      exists_of_get?_takeSnapshot (Nat.not_lt.mp old) ho
    · obtain ⟨q', hq'⟩ := copied?_of_mem_closure hb
      obtain ⟨hq', copied⟩ := copied?_eq_some.mp hq'
      cases hq.symm.trans hq'
      cases q with
      | typeDefinition t => cases copied
      | inst | registry | cell | list | dict | reading => cases hp
    · cases hp
    · cases hp

theorem change {S : Scope} {h' : Heap} (hc : S.Change h h') (older : h.Older) : h'.Older := by
  have plain {o : Object} (root : o.parent? = none) : (h.allocate o).2.Older :=
    older.allocate fun p hp => absurd (root.symm.trans hp) (by rintro ⟨⟩)
  cases hc with
  | @newContainer o container => cases o <;> first | exact plain rfl | cases container
  | newRegistry | copyRegistry | instantiate | newRecord => exact plain rfl
  | openType name parents =>
      refine (plain rfl).allocate fun p hp => ?_
      obtain ⟨-, t, ht⟩ := parents p hp
      rw [size_allocate]
      exact Nat.lt_succ_of_lt (lt_size_of_get? (typeAt?_eq_some.mp ht))
  | snapshot => exact older.takeSnapshot _
  | setCell | setList | setDict | setFields | addHandler | sealRegistry =>
      exact older.update _ rfl
  | ownRegistry => exact (plain rfl).update _ rfl

end Heap.Older

theorem ReachableWithin.older {V : Vocabulary} {s : State} (hs : ReachableWithin V s) :
    s.heap.Older := by
  refine invariant (P := fun s => s.heap.Older) ?_ (fun s s' hstep older => ?_) hs
  · intro a o p ho
    have empty : Heap.empty.get? a = none := Heap.get?_eq_none.mpr (Nat.zero_le _)
    exact absurd (ho.symm.trans empty) (by rintro ⟨⟩)
  · cases hstep with
    | heap change => exact older.change change
    | bind | sight | log | takeRows | span | increment | reset | limit | share | operators
    | number | settle => exact older

/-! ## What lies below a gap -/

/-- A reading that was there before stays as it is. -/
instance : Movable Object := ⟨fun
  | g, .inst i => .inst (across g i)
  | g, .typeDefinition t => .typeDefinition (across g t)
  | _, .registry r => .registry r
  | g, .cell v => .cell (across g v)
  | g, .list vs => .list (across g vs)
  | g, .dict es => .dict (across g es)
  | _, .reading r => .reading r⟩

theorem Object.matches_across (g : Gap) (o : Object) : o.Matches g (across g o) := by
  cases o with
  | inst i => exact .inst i
  | typeDefinition t => exact .typeDefinition t
  | registry r => exact .registry r
  | cell v => exact .cell v
  | list vs => exact .list vs
  | dict es => exact .dict es
  | reading r => exact .reading r r

section Below

variable {S : Scope} {g : Gap} {h : Heap} (below : h.size ≤ g.base)

include below

theorem Gap.shift_of_get? {a : Address} {o : Object} (ho : h.get? a = some o) : g.shift a = a :=
  Gap.shift_of_lt (Nat.lt_of_lt_of_le (Heap.lt_size_of_get? ho) below)

namespace Scope

theorem Knows.across_eq : ∀ {v : Value}, S.Knows h v → across g v = v
  | .primitive _, _ | .function _, _ => rfl
  | .object _, hv => congrArg Value.object (Gap.shift_of_lt (Nat.lt_of_lt_of_le hv.2 below))

theorem KnowsType.shift_eq {a : Address} (ha : S.KnowsType h a) : g.shift a = a := by
  obtain ⟨-, t, ht⟩ := ha
  exact Gap.shift_of_get? below (Heap.typeAt?_eq_some.mp ht)

theorem KnowsRegistry.shift_eq {a : Address} (ha : S.KnowsRegistry h a) : g.shift a = a := by
  obtain ⟨-, r, hr⟩ := ha
  exact Gap.shift_of_get? below (Heap.registryAt?_eq_some.mp hr)

theorem across_values_eq {vs : List Value} (hv : ∀ v ∈ vs, S.Knows h v) : across g vs = vs :=
  (List.map_congr_left fun v hmem => Knows.across_eq below (hv v hmem)).trans (List.map_id vs)

theorem across_entries_eq {m : OrderedMap String Value} (hm : ∀ v ∈ m.values, S.Knows h v) :
    across g m = m := by
  refine OrderedMap.ext ((List.map_congr_left fun e he => ?_).trans (List.map_id m.entries))
  exact congrArg (Prod.mk e.1) (Knows.across_eq below (hm _ (OrderedMap.mem_values_of_mem he)))

/-- Nothing that an object mentions is moved. -/
theorem Admits.across_eq {o : Object} (ho : S.Admits h o) : across g o = o := by
  have link {a : Option Address} (ha : ∀ b, a = some b → g.shift b = b) : across g a = a := by
    cases a with
    | none => rfl
    | some b => exact congrArg some (ha b rfl)
  cases o with
  | inst i =>
      obtain ⟨fields, type, registry⟩ := ho
      show Object.inst { i with
        type := across g i.type, fields := across g i.fields, registry := across g i.registry } = _
      rw [across_entries_eq below fields, link fun t ht => (type t ht).shift_eq below,
        link fun r hr => (registry r hr).shift_eq below]
  | typeDefinition t =>
      obtain ⟨registry, parent⟩ := ho
      show Object.typeDefinition { t with
        parent := across g t.parent, registry := g.shift t.registry } = _
      rw [link fun p hp => (parent p hp).shift_eq below, registry.shift_eq below]
  | cell v => exact congrArg Object.cell (Knows.across_eq below ho)
  | list vs => exact congrArg Object.list (across_values_eq below ho)
  | dict es => exact congrArg Object.dict (across_entries_eq below ho)
  | registry | reading => rfl

theorem KnowsEngine.across_eq : ∀ {engine : Engine}, S.KnowsEngine h engine →
    across g engine = engine
  | .own settings, he => by
      show Engine.own { settings with sentinel := across g settings.sentinel } = _
      rw [Knows.across_eq below he]
  | .shared _, _ => rfl

end Scope

end Below

/-! ## The start -/

/-- The gap between a heap and what comes of it by adding objects. -/
def Heap.gapTo (h h' : Heap) : Gap :=
  ⟨h.size, h'.size - h.size⟩

/-- More objects on the heap are out of reach of what was there. -/
theorem ReachableWithin.displaced {V : Vocabulary} {s : State} (hs : ReachableWithin V s) {h : Heap}
    (grown : s.heap.size ≤ h.size)
    (kept : ∀ a, a.index < s.heap.size → h.get? a = s.heap.get? a) :
    s.Displaced (s.heap.gapTo h) { s with heap := h } := by
  have below : s.heap.size ≤ (s.heap.gapTo h).base := Nat.le_refl _
  have confined := hs.confines
  have size : h.size = s.heap.size + (s.heap.gapTo h).width := (Nat.add_sub_cancel' grown).symm
  refine {
    heap := ⟨below, size, fun a => ?_, hs.older⟩
    bindings := (Scope.across_entries_eq below confined.bindings).symm
    sightings := List.forall₂_same.mpr fun x _ => .inl rfl
    dispatches := rfl
    journal := rfl
    ledger := rfl
    operators := rfl
    shared := ?_
    nextFunction := rfl }
  · cases ho : s.heap.get? a with
    | none =>
        have out := Heap.get?_eq_none.mp ho
        have out' : h.get? ((s.heap.gapTo h).shift a) = none := by
          rw [Heap.get?_eq_none, Gap.shift_of_le out, size]
          exact Nat.add_le_add_right out _
        rw [out']
        exact .none
    | some o =>
        have same := Object.matches_across (s.heap.gapTo h) o
        rw [Scope.Admits.across_eq below (confined.heap.object a o trivial ho)] at same
        rw [Gap.shift_of_get? below ho, kept a (Heap.lt_size_of_get? ho), ho]
        exact .some same
  · show s.shared = across (s.heap.gapTo h) s.shared
    cases hshared : s.shared with
    | none => rfl
    | some settings =>
        have known := Scope.Knows.across_eq below (confined.shared settings hshared)
        show some settings = some { settings with sentinel := across _ settings.sentinel }
        rw [known]

/-! ## The end -/

/-- What two runs from one state have made of it, where the second one has made the
objects of a gap besides: the same, and what was there before is still at its old
address on both sides. -/
structure State.Parted (s : State) (g : Gap) (t t' : State) : Prop where
  base : g.base = s.heap.size
  moved : t.Displaced g t'
  kept : ∀ a o, s.heap.get? a = some o →
    ∃ p, t.heap.get? a = some p ∧ t'.heap.get? a = some (across g p)

/-- The same work from one state: the runs give their two results or are interrupted in
the same way, and what they have made of the state is the same. -/
inductive State.EndsAlike (s : State) (v w : Value) :
    EStateM.Result Interruption State Value → EStateM.Result Interruption State Value → Prop
  | returned {g : Gap} {t t' : State} (parted : s.Parted g t t') :
      EndsAlike s v w (.ok v t) (.ok w t')
  | interrupted {g : Gap} {t t' : State} (e : Interruption) (parted : s.Parted g t t') :
      EndsAlike s v w (.error e t) (.error e t')

/-- What one object has become on the two sides is the same, a reading included: readings
stay as they are. -/
theorem Object.Becomes.across_eq {g : Gap} {n n' : Nat} {o p p' : Object} (hp : o.Becomes n p)
    (hp' : o.Becomes n' p') (matching : p.Matches g p') : p' = across g p := by
  cases matching with
  | reading r r' =>
      cases hp
      cases hp'
      rfl
  | inst | typeDefinition | registry | cell | list | dict => rfl

theorem State.Displaced.parted {s t t' : State} {g : Gap} (moved : t.Displaced g t')
    (base : g.base = s.heap.size) (later : s.heap.Later t.heap) (later' : s.heap.Later t'.heap) :
    s.Parted g t t' := by
  refine ⟨base, moved, fun a o ho => ?_⟩
  obtain ⟨p, hp, becomes⟩ := later.object a o ho
  obtain ⟨p', hp', becomes'⟩ := later'.object a o ho
  obtain ⟨q, hq, matching⟩ := moved.heap.exists_matching hp
  rw [Gap.shift_of_get? (Nat.le_of_eq base.symm) ho, hp'] at hq
  cases hq
  rw [becomes.across_eq becomes' matching] at hp'
  exact ⟨p, hp, hp'⟩

namespace Action

/-! ## The dispatch -/

/-- An ending with another value in place of its own. -/
def yielding (v : Value) : EStateM.Result Interruption State Value →
    EStateM.Result Interruption State Value
  | .ok _ t => .ok v t
  | .error e t => .error e t

/-- What a dispatch hands back does not bear on how it is closed. -/
theorem conclusion_answering (settings : Settings) (a : Application) (d : Decision) (v : Value)
    (result : EStateM.Result Interruption State Value) :
    conclusion settings a d (answering v result) =
      yielding v (conclusion settings a d (answering .null result)) := by
  have closed (r : DispatchRecord)
      {answer answer' : State → EStateM.Result Interruption State Value}
      (same : ∀ t, answer t = yielding v (answer' t)) (t : State) :
      concluded r answer t = yielding v (concluded r answer' t) := by
    unfold concluded
    split
    · exact same _
    · rfl
  have failed (r : DispatchRecord) (e : Interruption) (t : State) :
      concluded r (.error e) t = yielding v (concluded r (.error e) t) := by
    have kept (t : State) : EStateM.Result.error e t = yielding v (.error e t) := rfl
    exact closed r kept t
  cases result with
  | ok u t =>
      have returned (t : State) : EStateM.Result.ok v t = yielding v (.ok .null t) := rfl
      exact closed ⟨settings, a, d, .returned .handler⟩ returned t
  | error e t =>
      cases e with
      | raised fault => exact failed ⟨settings, a, d, .raised (settings.told fault)⟩ _ t
      | aborted text => exact failed ⟨settings, a, d, .aborted⟩ (.aborted text) t
      | exhausted => rfl

theorem heap_conclusion_answering (settings : Settings) (a : Application) (d : Decision)
    (v : Value) (result : EStateM.Result Interruption State Value) :
    (finalState (conclusion settings a d (answering v result))).heap =
      (finalState result).heap := by
  rw [heap_conclusion]
  cases result <;> rfl

section Dispatch

variable {s : State} {g : Gap} {settings : Settings} {a a' : Application}
  {d d' : Decision} {result result' : EStateM.Result Interruption State Value}

/-- Calls that did the same make dispatches that did the same. -/
theorem endsAlike_conclusion (v w : Value) (ended : EndTandem g result result')
    (alike : ∀ ending,
      DispatchRecord.Alike ⟨settings, a, d, ending⟩ ⟨settings, a', d', ending⟩)
    (base : g.base = s.heap.size) (later : s.heap.Later (finalState result).heap)
    (later' : s.heap.Later (finalState result').heap) :
    s.EndsAlike v w (conclusion settings a d (answering v result))
      (conclusion settings a' d' (answering w result')) := by
  have answered : EndTandem g (answering .null result) (answering .null result') := by
    cases ended with
    | ok u moved => exact .ok (Value.null, Outcome.handler) moved
    | error e moved => exact .error e moved
  rw [← heap_conclusion_answering settings a d .null] at later
  rw [← heap_conclusion_answering settings a' d' .null] at later'
  rw [conclusion_answering _ _ _ v, conclusion_answering _ _ _ w]
  rcases (answered.conclusion rfl alike).elim with
    ⟨x, t, t', h, h', moved⟩ | ⟨e, t, t', h, h', moved⟩
  · rw [h] at later ⊢
    rw [h'] at later' ⊢
    exact .returned (moved.parted base later later')
  · rw [h] at later ⊢
    rw [h'] at later' ⊢
    exact .interrupted e (moved.parted base later later')

end Dispatch

/-- A handler that runs once with the snapshot on the heap and once without it does the
same. -/
theorem endTandem_handler {s : State} (hs : Reachable s) {engine : Engine}
    (he : (Scope.whole .full).KnowsEngine s.heap engine) {a : Address} {i : Instance}
    (hi : s.heap.get? a = some (.inst i)) (depth : Nat) (f : Function) :
    EndTandem (s.heap.gapTo (s.heap.takeSnapshot i).2)
      (callAt engine depth f ⟨.object a, none⟩ s)
      (callAt engine depth f ⟨.object a, none⟩ { s with heap := (s.heap.takeSnapshot i).2 }) := by
  have below : s.heap.size ≤ (s.heap.gapTo (s.heap.takeSnapshot i).2).base := Nat.le_refl _
  have start := hs.displaced (Heap.later_takeSnapshot s.heap i).size_le fun _ hlt =>
    Heap.get?_takeSnapshot_of_lt hlt
  have run := parallel_callAt (s.heap.gapTo (s.heap.takeSnapshot i).2) engine depth f
    ⟨.object a, none⟩ _ _ start
  have there : across (s.heap.gapTo (s.heap.takeSnapshot i).2) (⟨.object a, none⟩ : Arguments) =
      ⟨.object a, none⟩ :=
    congrArg (fun b => (⟨.object b, none⟩ : Arguments)) (Gap.shift_of_get? below hi)
  rwa [Scope.KnowsEngine.across_eq below he, there] at run

/-! ## Both positions -/

/-- How a step on one operand goes in its two positions, from the same state. -/
inductive Positions (s : State) (engine : Engine) (depth : Nat) (settings : Settings)
    (o : Operator) (v : Value) (before after : Request) : Prop
  /-- There is no handler, and both fail with the same fault.  Nothing is called. -/
  | undefined {fault : Fault} {g : Gap} {t t' : State}
      (missing : s.heap.resolve (s.heap.classify v) o.selector = none) (parted : s.Parted g t t')
      (prefixed : ∀ call, serve call settings before s = .error (.raised fault) t)
      (postfixed : ∀ call, serve call settings after s = .error (.raised fault) t')
  /-- The same handler is called once on the operand, before it from the state at hand
  and behind it from the state with the snapshot.  Either both calls get through, and the
  results are the operand and the snapshot, or both dispatches end in the same way. -/
  | handled {f : Function} {a : Address} {i : Instance}
      (found : s.heap.resolve (s.heap.classify v) o.selector = some f)
      (operand : v = .object a) (stands : s.heap.get? a = some (.inst i))
      (fresh : s.heap.get? (s.heap.takeSnapshot i).1 = none)
      (prefixed : ∀ call, serve call settings before s =
        conclusion settings ⟨o, .step v false⟩ (.invoke f ⟨v, none⟩ .receiver)
          (answering v (call f ⟨v, none⟩ s)))
      (postfixed : ∀ call, serve call settings after s =
        conclusion settings ⟨o, .step v true⟩ (.invoke f ⟨v, none⟩ .snapshot)
          (answering (.object (s.heap.takeSnapshot i).1)
            (call f ⟨v, none⟩ { s with heap := (s.heap.takeSnapshot i).2 })))
      (same : s.EndsAlike v (.object (s.heap.takeSnapshot i).1)
        (serve (callAt engine depth) settings before s)
        (serve (callAt engine depth) settings after s))

theorem serve_stepBefore_eq {s : State} {v : Value} {o : Operator} {f : Function}
    (call : Function → Arguments → Action Value) (settings : Settings) {request : Request}
    (accepted : request.application s.operators = .ok ⟨o, .step v false⟩)
    (decided : (⟨o, .step v false⟩ : Application).decide s.heap = .invoke f ⟨v, none⟩ .receiver) :
    serve call settings request s =
      conclusion settings ⟨o, .step v false⟩ (.invoke f ⟨v, none⟩ .receiver)
        (answering v (call f ⟨v, none⟩ s)) := by
  have handsBack (result : EStateM.Result Interruption State Value) :
      responded ⟨o, .step v false⟩ .receiver v result = answering v result := by
    cases result <;> rfl
  exact (serve_consulting accepted decided rfl call).trans (congrArg _ (handsBack _))

/-- Steps are refused where there is no handler. -/
theorem fallback_of_isMutating {o : Operator} (ho : o.isMutating = true) :
    o.category.fallback = .refuse := by
  obtain ⟨literal, arity, selector, description, negated⟩ := o
  cases selector <;> first | rfl | cases ho

/-- What a step in either position is going to do to whatever is no primitive. -/
theorem decide_step {h : Heap} {v : Value} (hv : ∀ p, v ≠ .primitive p) (o : Operator)
    (after : Bool) :
    (⟨o, .step v after⟩ : Application).decide h =
      match h.resolve (h.classify v) o.selector with
      | some f => .invoke f ⟨v, none⟩ (if after then .snapshot else .receiver)
      | none => .fallBack o.category.fallback (h.classify v).typeName :=
  Decision.unary_eq h o hv _ _

theorem positions_undefined {s : State} (hs : Reachable s) (engine : Engine) (depth : Nat)
    (settings : Settings) {o : Operator} (ho : o.isMutating = true) {v : Value}
    (hv : ∀ p, v ≠ .primitive p)
    (missing : s.heap.resolve (s.heap.classify v) o.selector = none) {before after : Request}
    (hbefore : before.application s.operators = .ok ⟨o, .step v false⟩)
    (hafter : after.application s.operators = .ok ⟨o, .step v true⟩) :
    Positions s engine depth settings o v before after := by
  let fault : Fault := .operatorNotDefined o.category o.literal (s.heap.classify v).typeName
  let record (behind : Bool) : DispatchRecord :=
    ⟨settings, ⟨o, .step v behind⟩, .fallBack .refuse (s.heap.classify v).typeName, .raised fault⟩
  have decided (behind : Bool) : (⟨o, .step v behind⟩ : Application).decide s.heap =
      .fallBack .refuse (s.heap.classify v).typeName := by
    rw [decide_step hv, missing, fallback_of_isMutating ho]
  have applied (behind : Bool) (call : Function → Arguments → Action Value) :
      apply call settings ⟨o, .step v behind⟩ s =
        ofExcept (upheld s.ledger (record false) (.error fault)) (s.settle (record behind)) := by
    have ending : (⟨o, .step v behind⟩ : Application).ending? settings s.heap
        ((⟨o, .step v behind⟩ : Application).decide s.heap) = some (.error fault) := by
      rw [decided]
      rfl
    rw [apply_alone ending, decided]
    rfl
  obtain ⟨objection, failed⟩ : ∃ objection,
      upheld s.ledger (record false) (.error fault) = .error objection := by
    unfold upheld
    split <;> exact ⟨_, rfl⟩
  have same : (s.settle (record false)).Displaced (s.heap.gapTo s.heap)
      (s.settle (record true)) := {
    hs.displaced (Nat.le_refl _) fun _ _ => rfl with
    dispatches := by simp only [State.settle, List.map_append]; rfl
    journal := rfl
    ledger := rfl }
  have failing (behind : Bool) (call : Function → Arguments → Action Value) :
      apply call settings ⟨o, .step v behind⟩ s =
        .error (.raised objection) (s.settle (record behind)) := by
    rw [applied, failed]
    rfl
  exact .undefined missing (same.parted rfl (.refl _) (.refl _))
    (fun call => (serve_accepted hbefore).trans (failing false call))
    fun call => (serve_accepted hafter).trans (failing true call)

/-- A call takes nothing off the heap. -/
theorem later_callAt {s : State} (hs : (Scope.whole .full).Confines s) {engine : Engine}
    (he : (Scope.whole .full).KnowsEngine s.heap engine) (depth : Nat) (f : Function)
    {arguments : Arguments} (ha : (Scope.whole .full).KnowsArguments s.heap arguments) :
    s.heap.Later (finalState (callAt engine depth f arguments s)).heap :=
  Scope.Steps.later (serves_callAt (fun _ h => h) engine depth f arguments s hs he
    (Expr.within_full _) ha).steps

/-- On whatever is no primitive, a step does the same in front of its operand and behind
it.  Both positions call the same handler on the operand, or neither calls one.  They fail
in the same cases in the same way, and what they leave is the same up to the addresses of
what was made meanwhile; only the results differ, the operand itself and its snapshot. -/
theorem same_work_in_both_positions {s : State} (hs : Reachable s) {engine : Engine}
    (he : (Scope.whole .full).KnowsEngine s.heap engine) (depth : Nat) (settings : Settings)
    {literal : String} {sel : Selector} (htoken : (literal, sel) ∈ stepTokens) {v : Value}
    (hv : ∀ p, v ≠ .primitive p) {before after : Request}
    (hbefore : before ∈ Request.stepsBefore literal v)
    (hafter : after ∈ Request.stepsBehind literal v) :
    ∃ o, o.literal = literal ∧ o.selector = sel ∧
      Positions s engine depth settings o v before after := by
  have hc := hs.confines.heap
  obtain ⟨o, hlookup, hsel, hstep⟩ := lookup_of_mem_stepTokens hs htoken
  refine ⟨o, Request.lookup_literal hlookup, hsel, ?_⟩
  have before_accepted := Request.application_stepsBefore hbefore hlookup hstep
  have after_accepted := Request.application_stepsBehind hafter hlookup hstep
  cases hf : s.heap.resolve (s.heap.classify v) o.selector with
  | none =>
      exact positions_undefined hs engine depth settings hstep hv hf before_accepted after_accepted
  | some f =>
      cases v with
      | primitive | function => cases hf
      | object a =>
          obtain ⟨i, hi⟩ := Heap.exists_instance_of_resolve hf
          have postfixed := fun call => serve_stepBehind_eq call settings hc after_accepted hi hf
          have prefixed := fun call => serve_stepBefore_eq call settings before_accepted (f := f)
            (by rw [decide_step hv, hf]; rfl)
          refine .handled hf rfl hi ?_ prefixed postfixed ?_
          · rw [Heap.get?_eq_none]
            exact (Heap.takeSnapshot_index s.heap i).1
          · rw [prefixed, postfixed]
            have self : (Scope.whole .full).KnowsArguments s.heap ⟨.object a, none⟩ :=
              ⟨⟨trivial, Heap.lt_size_of_get? hi⟩, by rintro _ ⟨⟩⟩
            have taken : (Scope.whole .full).Step s { s with heap := (s.heap.takeSnapshot i).2 } :=
              .heap (.snapshot trivial hi)
            refine endsAlike_conclusion _ _ (endTandem_handler hs he hi depth f)
              (fun _ => ⟨rfl, fun _ => rfl⟩) rfl ?_ ?_
            · exact later_callAt hs.confines he depth f self
            · exact taken.later.trans (later_callAt (taken.confines hs.confines)
                (he.later taken.later) depth f (self.later taken.later))

theorem same_work_in_both_positions_counting :
    ∃ g t t' b, (State.after 0 counting).Parted g t t' ∧
      serve (callAt (.own .standard) 1) .standard (.unary "++" (some "prefix") (.object ⟨3⟩))
        (.after 0 counting) = .ok (.object ⟨3⟩) t ∧
      serve (callAt (.own .standard) 1) .standard (.unary "++" (some "postfix") (.object ⟨3⟩))
        (.after 0 counting) = .ok (.object b) t' := by
  have standard : (Scope.whole .full).KnowsEngine (State.after 0 counting).heap
      (.own .standard) := trivial
  have token : ("++", Selector.unaryAdd) ∈ stepTokens := List.mem_cons_self
  have object : ∀ p, Value.object ⟨3⟩ ≠ .primitive p := by rintro _ ⟨⟩
  obtain ⟨o, -, -, positions⟩ := same_work_in_both_positions
    (reachable_after 0 (Expr.within_full _)) standard 1 .standard token object
    List.mem_cons_self List.mem_cons_self
  have returns : (match serve (callAt (.own .standard) 1) .standard
      (.unary "++" (some "prefix") (.object ⟨3⟩)) (.after 0 counting) with
      | .ok _ _ => true
      | .error _ _ => false) = true := by
    decide +kernel
  cases positions with
  | undefined missing parted prefixed postfixed =>
      rw [prefixed] at returns
      cases returns
  | @handled f a i found operand stands fresh prefixed postfixed same =>
      revert same returns
      generalize serve _ _ (.unary "++" (some "prefix") _) _ = result
      generalize serve _ _ (.unary "++" (some "postfix") _) _ = result'
      intro returns same
      cases same with
      | returned parted => exact ⟨_, _, _, _, parted, rfl, rfl⟩
      | interrupted => cases returns

end Action

end OperatorDispatch
