import OperatorDispatch.Engine
import OperatorDispatch.Proofs.Objects

/-!
# Scopes

What a stretch of a run may come across: the addresses that its values may
refer to, those among them that it may write to, and the vocabulary that its
code is written in.  A state is confined to a scope when nothing that can be
got hold of in it leads out: the variables, the sentinel of the shared settings
and every object at a known address mention known addresses and code of the
vocabulary only.

Two scopes carry most of the theory.  With every address known, being confined
says that the heap has no dangling reference and that links to types and
registries lead to types and registries.  With the addresses of some objects
left out, it says that the program cannot reach these objects.
-/

namespace OperatorDispatch

/-! ## Vocabularies -/

/-- The commands that code may use, and whether it may open spans. -/
structure Vocabulary where
  commands : Command → Bool
  spans : Bool

namespace Vocabulary

/-- No restriction. -/
def full : Vocabulary := ⟨fun _ => true, true⟩

@[simp] theorem full_commands (c : Command) : full.commands c = true := rfl

@[simp] theorem full_spans : full.spans = true := rfl

end Vocabulary

mutual

/-- Whether code, the bodies of its handlers included, keeps to a vocabulary. -/
def Expr.within (V : Vocabulary) : Expr → Bool
  | .literal _ | .variable _ | .raise _ _ | .abort _ => true
  | .assign _ e | .handler _ e | .trace e => e.within V
  | .sequence es => Expr.allWithin V es
  | .choose condition accept decline =>
    condition.within V && accept.within V && decline.within V
  | .attempt body fallback => body.within V && fallback.within V
  | .span _ _ attributes body => V.spans && Expr.allWithin V attributes && body.within V
  | .call c operands => V.commands c && Expr.allWithin V operands

def Expr.allWithin (V : Vocabulary) : List Expr → Bool
  | [] => true
  | e :: es => e.within V && Expr.allWithin V es

end

mutual

theorem Expr.within_full : ∀ e : Expr, e.within .full = true
  | .literal _ | .variable _ | .raise _ _ | .abort _ => rfl
  | .assign _ e | .handler _ e | .trace e => by
      simp only [Expr.within]
      exact Expr.within_full e
  | .sequence es => by
      simp only [Expr.within]
      exact Expr.allWithin_full es
  | .choose condition accept decline => by
      simp [Expr.within, Expr.within_full condition, Expr.within_full accept,
        Expr.within_full decline]
  | .attempt body fallback => by
      simp [Expr.within, Expr.within_full body, Expr.within_full fallback]
  | .span _ _ attributes body => by
      simp [Expr.within, Expr.allWithin_full attributes, Expr.within_full body]
  | .call _ operands => by
      simp [Expr.within, Expr.allWithin_full operands]

theorem Expr.allWithin_full : ∀ es : List Expr, Expr.allWithin .full es = true
  | [] => rfl
  | e :: es => by simp [Expr.allWithin, Expr.within_full e, Expr.allWithin_full es]

end

/-! ## Scopes -/

structure Scope where
  known : Address → Prop
  writable : Address → Prop
  vocabulary : Vocabulary

namespace Scope

/-- Everything is known and writable. -/
def whole (V : Vocabulary) : Scope := ⟨fun _ => True, fun _ => True, V⟩

variable (S : Scope)

/-- A value that a program in the scope may hold. -/
def Knows (h : Heap) : Value → Prop
  | .primitive _ => True
  | .function f => f.body.within S.vocabulary = true
  | .object a => S.known a ∧ a.index < h.size

/-- A value that a program in the scope may write to. -/
def MayWrite (v : Value) : Prop :=
  ∀ a, v = .object a → S.writable a

/-- A link to a type definition. -/
def KnowsType (h : Heap) (a : Address) : Prop :=
  S.known a ∧ ∃ t, h.typeAt? a = some t

/-- A link to a registry. -/
def KnowsRegistry (h : Heap) (a : Address) : Prop :=
  S.known a ∧ ∃ r, h.registryAt? a = some r

/-- An object that mentions nothing outside the scope. -/
def Admits (h : Heap) : Object → Prop
  | .inst i =>
    (∀ v ∈ i.fields.values, S.Knows h v) ∧ (∀ t, i.type = some t → S.KnowsType h t) ∧
      ∀ r, i.registry = some r → S.KnowsRegistry h r
  | .typeDefinition t =>
    S.KnowsRegistry h t.registry ∧ ∀ p, t.parent = some p → S.KnowsType h p
  | .registry r => ∀ f ∈ r.handlers.values, f.body.within S.vocabulary = true
  | .cell v => S.Knows h v
  | .list vs => ∀ v ∈ vs, S.Knows h v
  | .dict es => ∀ v ∈ es.values, S.Knows h v
  | .reading _ => True

/-- A heap on which no known object leads out of the scope.  Objects still to
come are in it. -/
structure Covers (h : Heap) : Prop where
  frontier : ∀ a, h.size ≤ a.index → S.known a ∧ S.writable a
  object : ∀ a o, S.known a → h.get? a = some o → S.Admits h o

/-- A state in which nothing at hand leads out of the scope. -/
structure Confines (s : State) : Prop where
  heap : S.Covers s.heap
  bindings : ∀ v ∈ s.bindings.values, S.Knows s.heap v
  shared : ∀ settings, s.shared = some settings → S.Knows s.heap settings.sentinel

/-- The arguments of a call that a program in the scope may make. -/
def KnowsArguments (h : Heap) (arguments : Arguments) : Prop :=
  S.Knows h arguments.this ∧ ∀ v, arguments.other = some v → S.Knows h v

/-- The sentinel of an engine's own settings is a value like any other. -/
def KnowsEngine (h : Heap) : Engine → Prop
  | .own settings => S.Knows h settings.sentinel
  | .shared _ => True

/-! ## Knowledge is kept -/

variable {S} {h h' : Heap}

theorem Knows.later (hl : h.Later h') : ∀ {v : Value}, S.Knows h v → S.Knows h' v
  | .primitive _, _ => trivial
  | .function _, hv => hv
  | .object _, hv => ⟨hv.1, Nat.lt_of_lt_of_le hv.2 hl.size_le⟩

theorem KnowsType.later (hl : h.Later h') {a : Address} (ha : S.KnowsType h a) :
    S.KnowsType h' a :=
  ⟨ha.1, ha.2.imp fun _ ht => hl.typeAt? ht⟩

theorem KnowsRegistry.later (hl : h.Later h') {a : Address} (ha : S.KnowsRegistry h a) :
    S.KnowsRegistry h' a := by
  obtain ⟨hk, r, hr⟩ := ha
  obtain ⟨r', hr', -⟩ := hl.registryAt? hr
  exact ⟨hk, r', hr'⟩

theorem Admits.later (hl : h.Later h') : ∀ {o : Object}, S.Admits h o → S.Admits h' o
  | .inst _, ho =>
      ⟨fun v hv => (ho.1 v hv).later hl, fun t ht => (ho.2.1 t ht).later hl,
        fun r hr => (ho.2.2 r hr).later hl⟩
  | .typeDefinition _, ho => ⟨ho.1.later hl, fun p hp => (ho.2 p hp).later hl⟩
  | .registry _, ho => ho
  | .cell _, ho => Knows.later hl ho
  | .list _, ho => fun v hv => (ho v hv).later hl
  | .dict _, ho => fun v hv => (ho v hv).later hl
  | .reading _, _ => trivial

theorem KnowsArguments.later (hl : h.Later h') {arguments : Arguments}
    (ha : S.KnowsArguments h arguments) : S.KnowsArguments h' arguments :=
  ⟨ha.1.later hl, fun v hv => (ha.2 v hv).later hl⟩

theorem KnowsEngine.later (hl : h.Later h') :
    ∀ {engine : Engine}, S.KnowsEngine h engine → S.KnowsEngine h' engine
  | .own _, he => Knows.later hl he
  | .shared _, _ => trivial

/-! ## From one scope to another -/

section Mono

variable {T : Scope} (hknown : ∀ a, a.index < h.size → S.known a → T.known a)

include hknown

theorem KnowsType.mono {a : Address} (ha : S.KnowsType h a) : T.KnowsType h a := by
  obtain ⟨hk, t, ht⟩ := ha
  exact ⟨hknown a (Heap.lt_size_of_get? (Heap.typeAt?_eq_some.mp ht)) hk, t, ht⟩

theorem KnowsRegistry.mono {a : Address} (ha : S.KnowsRegistry h a) : T.KnowsRegistry h a := by
  obtain ⟨hk, r, hr⟩ := ha
  exact ⟨hknown a (Heap.lt_size_of_get? (Heap.registryAt?_eq_some.mp hr)) hk, r, hr⟩

variable (hvocabulary : S.vocabulary = T.vocabulary)

include hvocabulary

theorem Knows.mono : ∀ {v : Value}, S.Knows h v → T.Knows h v
  | .primitive _, _ => trivial
  | .function f, hv => by
      have within : f.body.within S.vocabulary = true := hv
      rwa [hvocabulary] at within
  | .object a, hv => ⟨hknown a hv.2 hv.1, hv.2⟩

theorem Admits.mono : ∀ {o : Object}, S.Admits h o → T.Admits h o
  | .inst _, ho =>
      ⟨fun v hv => (ho.1 v hv).mono hknown hvocabulary, fun t ht => (ho.2.1 t ht).mono hknown,
        fun r hr => (ho.2.2 r hr).mono hknown⟩
  | .typeDefinition _, ho =>
      ⟨ho.1.mono hknown, fun p hp => (ho.2 p hp).mono hknown⟩
  | .registry _, ho => by
      intro f hf
      rw [← hvocabulary]
      exact ho f hf
  | .cell _, ho => Knows.mono hknown hvocabulary ho
  | .list _, ho => fun v hv => (ho v hv).mono hknown hvocabulary
  | .dict _, ho => fun v hv => (ho v hv).mono hknown hvocabulary
  | .reading _, _ => trivial

end Mono

/-- Where everything is known it does not matter what may be written to. -/
theorem Confines.of_whole {V : Vocabulary} {s : State} (hs : (Scope.whole V).Confines s)
    (hvocabulary : V = S.vocabulary) (hall : ∀ a, S.known a)
    (hw : ∀ a, s.heap.size ≤ a.index → S.writable a) : S.Confines s := by
  have known : ∀ a, a.index < s.heap.size → (Scope.whole V).known a → S.known a :=
    fun a _ _ => hall a
  refine ⟨⟨fun a ha => ⟨hall a, hw a ha⟩, fun a o _ ho => ?_⟩, fun v hv => ?_, fun t ht => ?_⟩
  · exact (hs.heap.object a o trivial ho).mono known hvocabulary
  · exact (hs.bindings v hv).mono known hvocabulary
  · exact (hs.shared t ht).mono known hvocabulary

end Scope

end OperatorDispatch
