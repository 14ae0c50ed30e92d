import OperatorDispatch.Proofs.Isolation
import OperatorDispatch.Proofs.Requests

/-!
# Steps behind their operand

A step behind its operand takes a snapshot, calls the handler, drops what the
handler answers and hands back the snapshot.  Nothing at hand when the handler
is called leads to an object of the snapshot: the receiver, the variables and
the settings are older than it.  So whatever the handler does, it stays in the
scope that leaves these objects out, and the frame of that scope keeps them as
they were taken.
-/

namespace OperatorDispatch

/-! ## The scope of the handler -/

/-- Everything but the objects of a snapshot. -/
def Scope.besides (h : Heap) (i : Instance) : Scope where
  known x := x.index < h.size ∨ (h.takeSnapshot i).2.size ≤ x.index
  writable x := x.index < h.size ∨ (h.takeSnapshot i).2.size ≤ x.index
  vocabulary := .full

namespace Scope

variable {s : State} {a : Address} {i : Instance}

theorem known_besides {h : Heap} (x : Address) (hx : x.index < h.size)
    (_ : (Scope.whole .full).known x) : (Scope.besides h i).known x :=
  .inl hx

/-- What was at hand before the snapshot was taken does not lead to it. -/
theorem confines_besides (hs : (Scope.whole .full).Confines s) :
    (Scope.besides s.heap i).Confines { s with heap := (s.heap.takeSnapshot i).2 } := by
  have hl := Heap.later_takeSnapshot s.heap i
  have value : ∀ v, (Scope.whole .full).Knows s.heap v →
      (Scope.besides s.heap i).Knows (s.heap.takeSnapshot i).2 v :=
    fun v hv => (hv.mono known_besides rfl).later hl
  refine ⟨⟨fun x hx => ⟨.inr hx, .inr hx⟩, ?_⟩, fun v hv => value v (hs.bindings v hv),
    fun t ht => value _ (hs.shared t ht)⟩
  intro x o hx ho
  have hlt : x.index < s.heap.size := hx.resolve_right (Nat.not_le.mpr (Heap.lt_size_of_get? ho))
  rw [Heap.get?_takeSnapshot_of_lt hlt] at ho
  exact ((hs.heap.object x o trivial ho).mono known_besides rfl).later hl

theorem knowsEngine_besides {h : Heap} : ∀ {engine : Engine},
    (Scope.whole .full).KnowsEngine h engine →
      (Scope.besides h i).KnowsEngine (h.takeSnapshot i).2 engine
  | .own _, he => (Knows.mono known_besides rfl he).later (Heap.later_takeSnapshot h i)
  | .shared _, _ => trivial

end Scope

/-! ## The dispatch -/

namespace Heap

/-- Only instances have handlers. -/
theorem exists_instance_of_resolve {h : Heap} {a : Address} {sel : Selector} {f : Function}
    (hf : h.resolve (h.classify (.object a)) sel = some f) :
    ∃ i, h.get? a = some (.inst i) := by
  cases ho : h.get? a with
  | none => simp [classify, ho, resolve] at hf
  | some o =>
      cases o with
      | inst i => exact ⟨i, rfl⟩
      | typeDefinition | registry | cell | list | dict | reading =>
          simp [classify, ho, resolve] at hf

end Heap

namespace Action

/-- The work of a dispatch that hands back `v` whatever the handler answers. -/
def answering (v : Value) : EStateM.Result Interruption State Value →
    EStateM.Result Interruption State (Value × Outcome)
  | .ok _ t => .ok (v, .handler) t
  | .error e t => .error e t

section Dispatch

variable {s : State} {a : Address} {i : Instance} {f : Function} {o : Operator}

theorem perform_snapshot (call : Function → Arguments → Action Value) (settings : Settings)
    (hc : (Scope.whole .full).Covers s.heap) (hi : s.heap.get? a = some (.inst i)) :
    perform call settings ⟨o, .step (.object a) true⟩ (.invoke f ⟨.object a, none⟩ .snapshot) s =
      answering (.object (s.heap.takeSnapshot i).1)
        (call f ⟨.object a, none⟩ { s with heap := (s.heap.takeSnapshot i).2 }) := by
  have admitted := hc.object a _ trivial hi
  have found : demand .unusable (s.heap.instanceOf? (.object a)) s = .ok (a, i) s := by
    rw [Heap.instanceOf?_eq_some.mpr ⟨rfl, hi⟩]
    rfl
  have taken := snapshot_eq (s := s) (i := i) fun r hr => (admitted.2.2 r hr).2
  have invoked : invoke call f ⟨.object a, none⟩ .snapshot s =
      answering (.object (s.heap.takeSnapshot i).1)
        (call f ⟨.object a, none⟩ { s with heap := (s.heap.takeSnapshot i).2 }) := by
    have continued := (bind_ok (f := fun x : Address × Instance => do
      let before ← snapshot x.2
      let _ ← call f ⟨.object a, none⟩
      return (Value.object before, Outcome.handler)) found).trans (bind_ok taken)
    refine Eq.trans continued ?_
    cases hcall : call f ⟨.object a, none⟩ { s with heap := (s.heap.takeSnapshot i).2 } with
    | ok u t => exact bind_ok hcall
    | error e t => exact bind_error hcall
  unfold perform
  cases hcall : call f ⟨.object a, none⟩ { s with heap := (s.heap.takeSnapshot i).2 } with
  | ok u t =>
      rw [hcall] at invoked
      exact bind_ok invoked
  | error e t =>
      rw [hcall] at invoked
      exact bind_error invoked

/-- The dispatch consults its caller once, with the receiver, and after the
snapshot.  Of what comes back only the state and the failures matter. -/
theorem serve_stepBehind_eq (call : Function → Arguments → Action Value)
    (settings : Settings) (hc : (Scope.whole .full).Covers s.heap) {request : Request}
    (accepted : request.application s.operators = .ok ⟨o, .step (.object a) true⟩)
    (hi : s.heap.get? a = some (.inst i))
    (hf : s.heap.resolve (s.heap.classify (.object a)) o.selector = some f) :
    serve call settings request s =
      conclusion settings ⟨o, .step (.object a) true⟩ (.invoke f ⟨.object a, none⟩ .snapshot)
        (answering (.object (s.heap.takeSnapshot i).1)
          (call f ⟨.object a, none⟩ { s with heap := (s.heap.takeSnapshot i).2 })) := by
  have decided : (⟨o, .step (.object a) true⟩ : Application).decide s.heap =
      .invoke f ⟨.object a, none⟩ .snapshot := by
    simp [Application.decide, Decision.unary, hf]
  rw [serve_accepted accepted, apply_eq, decided, perform_snapshot call settings hc hi]

end Dispatch

/-! ## The contract -/

/-- Where a step returns, the collector has not objected and the work has
returned; the heap is the one that the work left. -/
theorem concluded_eq_ok {r : DispatchRecord}
    {answer : State → EStateM.Result Interruption State Value} {s s' : State} {v : Value}
    (h : concluded r answer s = .ok v s') :
    answer (s.close r) = .ok v s' := by
  unfold concluded at h
  split at h
  · exact h
  · cases h

theorem conclusion_answering_eq_ok {settings : Settings} {app : Application} {d : Decision}
    {v w : Value} {result : EStateM.Result Interruption State Value} {s' : State}
    (h : conclusion settings app d (answering v result) = .ok w s') :
    w = v ∧ ∃ u t, result = .ok u t ∧ s'.heap = t.heap := by
  cases result with
  | ok u t =>
      have ended := concluded_eq_ok h
      cases ended
      exact ⟨rfl, u, t, rfl, rfl⟩
  | error e t =>
      cases e with
      | raised fault =>
          have ended := concluded_eq_ok (r := ⟨settings, app, d, .raised (settings.told fault)⟩) h
          cases ended
      | aborted text =>
          have ended := concluded_eq_ok (r := ⟨settings, app, d, .aborted⟩) h
          cases ended
      | exhausted => cases h

/-- The tokens of the language that step, with their selectors. -/
def stepTokens : List (String × Selector) :=
  [("++", .unaryAdd), ("--", .unarySubtract)]

theorem lookup_of_mem_stepTokens {V : Vocabulary} {s : State} (hs : ReachableWithin V s)
    {literal : String} {sel : Selector} (h : (literal, sel) ∈ stepTokens) :
    ∃ o, s.operators.lookup .unary literal = .ok o ∧ o.selector = sel ∧ o.isMutating = true := by
  simp only [stepTokens, List.mem_cons, Prod.mk.injEq, List.not_mem_nil, or_false] at h
  rcases h with ⟨rfl, rfl⟩ | ⟨rfl, rfl⟩
  · exact ⟨_, OperatorTables.lookup_of_find? (hs.find?_operators rfl), rfl, rfl⟩
  · exact ⟨_, OperatorTables.lookup_of_find? (hs.find?_operators rfl), rfl, rfl⟩

/-- Whatever the handler does, the objects of the snapshot stay as they were
taken. -/
theorem same_after_call {s t : State} (hs : Reachable s) {engine : Engine}
    (he : (Scope.whole .full).KnowsEngine s.heap engine) {a : Address} {i : Instance}
    (hi : s.heap.get? a = some (.inst i)) {depth : Nat} {f : Function} {u : Value}
    (hcall : callAt engine depth f ⟨.object a, none⟩
      { s with heap := (s.heap.takeSnapshot i).2 } = .ok u t) :
    (s.heap.takeSnapshot i).2.Later t.heap ∧
      ∀ x, s.heap.size ≤ x.index → x.index < (s.heap.takeSnapshot i).2.size →
        t.heap.get? x = (s.heap.takeSnapshot i).2.get? x := by
  have hlt := Heap.lt_size_of_get? hi
  have self : (Scope.besides s.heap i).Knows (s.heap.takeSnapshot i).2 (.object a) :=
    ⟨.inl hlt, Nat.lt_of_lt_of_le hlt (Heap.later_takeSnapshot s.heap i).size_le⟩
  have served := serves_callAt (S := Scope.besides s.heap i) (fun _ h => h) engine depth
  have run := served f ⟨.object a, none⟩ _ (Scope.confines_besides hs.confines)
    (Scope.knowsEngine_besides he) (Expr.within_full _) ⟨self, by simp⟩
  have steps : (Scope.besides s.heap i).Steps
      { s with heap := (s.heap.takeSnapshot i).2 } t := by
    have along := run.steps
    rwa [hcall] at along
  refine ⟨steps.later, fun x hle hin => steps.frame ?_ hin⟩
  rintro (h | h) <;> omega

/-- A step behind its operand that returns hands back a read-only instance of
the same type, from which all that is read afterwards is what was read from the
operand before.  The handler was called once, on the operand itself, and its
answer was dropped. -/
theorem postfix_contract {s s' : State} (hs : Reachable s) {engine : Engine}
    (he : (Scope.whole .full).KnowsEngine s.heap engine) {depth : Nat} {settings : Settings}
    {literal : String} {sel : Selector} (htoken : (literal, sel) ∈ stepTokens) {a : Address}
    {f : Function} (hf : s.heap.resolve (s.heap.classify (.object a)) sel = some f)
    {request : Request} (asked : request ∈ Request.stepsBehind literal (.object a)) {r : Value}
    (returned : serve (callAt engine depth) settings request s = .ok r s') :
    ∃ b i j, r = .object b ∧ s.heap.get? a = some (.inst i) ∧
      s'.heap.get? b = some (.inst j) ∧ j.readOnly = true ∧ j.type = i.type ∧
      j.fields.keys = i.fields.keys ∧
      (∀ path, path ≠ [] →
        s'.heap.contentAt (.object b) path = s.heap.contentAt (.object a) path) ∧
      ∃ o s₁, ∀ call, serve call settings request s =
        conclusion settings ⟨o, .step (.object a) true⟩ (.invoke f ⟨.object a, none⟩ .snapshot)
          (answering (.object b) (call f ⟨.object a, none⟩ s₁)) := by
  have hc := hs.confines.heap
  obtain ⟨i, hi⟩ := Heap.exists_instance_of_resolve hf
  obtain ⟨o, hlookup, rfl, hstep⟩ := lookup_of_mem_stepTokens hs htoken
  have accepted := Request.application_stepsBehind asked hlookup hstep
  have once := fun call => serve_stepBehind_eq call settings hc accepted hi hf
  obtain ⟨rfl, u, t, hcall, hheap⟩ :=
    conclusion_answering_eq_ok ((once (callAt engine depth)).symm.trans returned)
  obtain ⟨later, same⟩ := same_after_call hs he hi hcall
  have hb := Heap.takeSnapshot_index s.heap i
  obtain ⟨registry, hself, -⟩ := Heap.get?_takeSnapshot_self s.heap i
  have image := Heap.image_ofSnapshot hc trivial hi later same
  have kept := Heap.readsSame_of_image image (v := .object (s.heap.takeSnapshot i).1) (by
    rintro x ⟨⟩
    exact .inl hb)
  let j : Instance := ⟨i.type, i.fields.mapValues (.rename (s.heap.cloneOf i)), registry, true⟩
  refine ⟨_, i, j, rfl, hi, ?_, rfl, rfl, OrderedMap.keys_mapValues _ _, ?_, o, _, once⟩
  · rw [hheap, same _ hb.1 hb.2, hself]
    rfl
  · intro path hpath
    obtain ⟨p, ps, rfl⟩ := List.exists_cons_of_ne_nil hpath
    rw [hheap, (kept (p :: ps)).2, Heap.contentAt_takeSnapshot hc trivial hi]

/-- A counter with a list inside, which its handler writes to. -/
def counting : Expr :=
  .sequence [
    .assign "Counter" (.call (.definition (.define "Counter" ["unaryAdd"]))
      [.handler "step" (.call (.container .set)
        [.call (.container .get) [.variable "this", .literal (.text "items")],
          .literal (.integer 0), .literal (.integer 2)]), .literal .null]),
    .call (.definition (.instantiate ["items"]))
      [.variable "Counter", .call (.container .newList) [.literal (.integer 1)]]]

theorem postfix_contract_counting :
    ∃ b s', serve (callAt (.own .standard) 1) .standard (.unary "++" (some "postfix") (.object ⟨3⟩))
        (.after 0 counting) = .ok (.object b) s' ∧
      ∀ path, path ≠ [] → s'.heap.contentAt (.object b) path =
        (State.after 0 counting).heap.contentAt (.object ⟨3⟩) path := by
  have resolved : ((State.after 0 counting).heap.resolve
      ((State.after 0 counting).heap.classify (.object ⟨3⟩)) .unaryAdd).isSome = true := by
    decide +kernel
  obtain ⟨f, hf⟩ := Option.isSome_iff_exists.mp resolved
  have returns : (match serve (callAt (.own .standard) 1) .standard
      (.unary "++" (some "postfix") (.object ⟨3⟩)) (.after 0 counting) with
      | .ok _ _ => true
      | .error _ _ => false) = true := by
    decide +kernel
  split at returns
  · rename_i r s' returned
    have standard : (Scope.whole .full).KnowsEngine (State.after 0 counting).heap
        (.own .standard) := trivial
    obtain ⟨b, i, j, rfl, -, -, -, -, -, same, -⟩ := postfix_contract
      (reachable_after 0 (Expr.within_full _)) standard List.mem_cons_self hf
      List.mem_cons_self returned
    exact ⟨b, s', returned, same⟩
  · cases returns

end Action

end OperatorDispatch
