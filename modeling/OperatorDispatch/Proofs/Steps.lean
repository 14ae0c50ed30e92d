import OperatorDispatch.Proofs.Copy
import OperatorDispatch.Proofs.Scope
import OperatorDispatch.Proofs.Settlement

/-!
# Steps

Everything that a run inside a scope can do to a state, one constructor for
each way, with all that the engine makes sure of before it does it.  `Change`
is the part on the heap and `Step` the part on states; a run is a chain of
steps.  What holds of every step is proved once, and holds of every run:

* nothing disappears or changes its kind (`Change.later`);
* what the scope may not write to stays as it is (`Change.frame`);
* a confined state stays confined, for which see `Confinement`.
-/

namespace OperatorDispatch

/-! ## Changes of the heap -/

/-- Whether an object is made by naming its contents. -/
def Object.isContainer : Object → Bool
  | .cell _ | .list _ | .dict _ | .reading _ => true
  | .inst _ | .typeDefinition _ | .registry _ => false

namespace Heap

/-- An open type definition with a registry of its own. -/
def withType (h : Heap) (name : String) (parent : Option Address) : Heap :=
  ((h.allocate (.registry (.fresh ("type '" ++ name ++ "'") false))).2.allocate
    (.typeDefinition ⟨name, parent, ⟨h.size⟩⟩)).2

/-- An instance given a registry of its own. -/
def withOwnRegistry (h : Heap) (a : Address) (i : Instance) : Heap :=
  (h.allocate (.registry (.fresh ("instance of '" ++ h.typeNameOf i ++ "'") true))).2.update a
    (.inst { i with registry := some ⟨h.size⟩ })

end Heap

/-- What a run inside a scope can do to the heap. -/
inductive Scope.Change (S : Scope) (h : Heap) : Heap → Prop
  | newContainer {o : Object} (container : o.isContainer = true) (admitted : S.Admits h o) :
      Change S h (h.allocate o).2
  | newRegistry (owner : String) (allowReplace : Bool) :
      Change S h (h.allocate (.registry (.fresh owner allowReplace))).2
  | copyRegistry {a : Address} {r : Registry} (known : S.known a)
      (there : h.get? a = some (.registry r)) (owner : Option String) :
      Change S h (h.allocate (.registry (r.copy owner))).2
  | openType (name : String) {parent : Option Address}
      (parents : ∀ p, parent = some p → S.KnowsType h p) :
      Change S h (h.withType name parent)
  | instantiate {a : Address} {t : TypeDefinition} {r : Registry} {fields : OrderedMap String Value}
      (known : S.known a) (there : h.get? a = some (.typeDefinition t))
      (registry : h.get? t.registry = some (.registry r)) (closed : r.isSealed = true)
      (values : ∀ v ∈ fields.values, S.Knows h v) :
      Change S h (h.allocate (.inst ⟨some a, fields, none, false⟩)).2
  | newRecord {fields : OrderedMap String Value} (values : ∀ v ∈ fields.values, S.Knows h v) :
      Change S h (h.allocate (.inst ⟨none, fields, none, false⟩)).2
  | snapshot {a : Address} {i : Instance} (known : S.known a)
      (there : h.get? a = some (.inst i)) :
      Change S h (h.takeSnapshot i).2
  | setCell {a : Address} {v w : Value} (writable : S.writable a)
      (there : h.get? a = some (.cell v)) (value : S.Knows h w) :
      Change S h (h.update a (.cell w))
  | setList {a : Address} {vs ws : List Value} (writable : S.writable a)
      (there : h.get? a = some (.list vs)) (values : ∀ w ∈ ws, S.Knows h w) :
      Change S h (h.update a (.list ws))
  | setDict {a : Address} {es fs : OrderedMap String Value} (writable : S.writable a)
      (there : h.get? a = some (.dict es)) (values : ∀ w ∈ fs.values, S.Knows h w) :
      Change S h (h.update a (.dict fs))
  | setFields {a : Address} {i : Instance} {fields : OrderedMap String Value}
      (writable : S.writable a) (there : h.get? a = some (.inst i)) (open_ : i.readOnly = false)
      (values : ∀ w ∈ fields.values, S.Knows h w) :
      Change S h (h.update a (.inst { i with fields }))
  | addHandler {a : Address} {r r' : Registry} {s : Selector} {handler : Value}
      (writable : S.writable a) (there : h.get? a = some (.registry r))
      (value : S.Knows h handler) (added : r.add s handler = .ok r') :
      Change S h (h.update a (.registry r'))
  | sealRegistry {a : Address} {r : Registry} (writable : S.writable a)
      (there : h.get? a = some (.registry r)) :
      Change S h (h.update a (.registry { r with isSealed := true }))
  | ownRegistry {a : Address} {i : Instance} (writable : S.writable a)
      (there : h.get? a = some (.inst i)) (bare : i.registry = none) :
      Change S h (h.withOwnRegistry a i)

/-! ## Steps of a state -/

/-- Whether a row is about a fallback. -/
def LogRow.isFallback : LogRow → Bool
  | .fallback .. => true
  | .registered .. | .sealedType .. => false

/-- What a run inside a scope can do to a state. -/
inductive Scope.Step (S : Scope) (s : State) : State → Prop
  | heap {h : Heap} (change : S.Change s.heap h) : Step S s { s with heap := h }
  | bind (name : String) {v : Value} (value : S.Knows s.heap v) :
      Step S s { s with bindings := s.bindings.insert name v }
  | sight (sightings : List Sighting) : Step S s { s with sightings }
  | log {row : LogRow} (plain : row.isFallback = false) :
      Step S s { s with journal := s.journal ++ [row] }
  | takeRows : Step S s { s with journal := [] }
  | span (allowed : S.vocabulary.spans = true) (span : Span) :
      Step S s { s with ledger := s.ledger.record span }
  | increment {name : String} {keys : List String}
      (allowed : S.vocabulary.commands (.telemetry (.increment name keys)) = true)
      (attributes : Attributes) (amount : Double) :
      Step S s { s with ledger := (s.ledger.increment ⟨name, attributes⟩ amount).1 }
  | reset (allowed : S.vocabulary.commands (.telemetry .reset) = true) :
      Step S s { s with ledger := s.ledger.reset }
  | limit {n : Int} {limit : Nat} (checked : checkLimit n = .ok limit) :
      Step S s { s with ledger := s.ledger.withLimit limit }
  | share {settings : Settings} (sentinel : S.Knows s.heap settings.sentinel) :
      Step S s { s with shared := some settings }
  | operators {o : Operator} {t : OperatorTables} (registered : s.operators.register? o = some t) :
      Step S s { s with operators := t }
  | number : Step S s { s with nextFunction := s.nextFunction + 1 }
  | settle {r : DispatchRecord} (genuine : r.Genuine) : Step S s (s.settle r)

/-- A stretch of a run inside a scope. -/
abbrev Scope.Steps (S : Scope) : State → State → Prop :=
  Relation.ReflTransGen S.Step

/-- What every step keeps, a run keeps. -/
theorem Scope.Steps.keeps {S : Scope} {P : State → Prop}
    (kept : ∀ s s', S.Step s s' → P s → P s') {s s' : State} (hs : S.Steps s s') (h : P s) :
    P s' := by
  induction hs with
  | refl => exact h
  | tail _ last ih => exact kept _ _ last ih

/-- A run deals with one collector. -/
theorem Scope.Step.collector {S : Scope} {s s' : State} (hstep : S.Step s s') :
    s'.ledger.collector = s.ledger.collector := by
  cases hstep with
  | increment allowed attributes amount => exact Ledger.collector_increment _ _ amount
  | @settle r genuine => exact Ledger.collector_enter _ r
  | heap | bind | sight | log | takeRows | span | reset | limit | share | operators | number => rfl

theorem Scope.Steps.collector {S : Scope} {s s' : State} (hs : S.Steps s s') :
    s'.ledger.collector = s.ledger.collector :=
  hs.keeps (P := fun t => t.ledger.collector = s.ledger.collector)
    (fun _ _ hstep same => hstep.collector.trans same) rfl

/-! ## Nothing disappears -/

namespace Registry

theorem add_eq_ok {r r' : Registry} {s : Selector} {handler : Value}
    (h : r.add s handler = .ok r') :
    ∃ f, handler = .function f ∧ r.isSealed = false ∧
      (s = .strictEquals → r.handlers.contains .equals = true) ∧
      (r.handlers.contains s = true → r.allowReplace = true) ∧
      r' = { r with handlers := r.handlers.insert s f } := by
  unfold add at h
  split at h
  · cases h
  · rename_i hsealed
    cases hf : handler.function? with
    | none => simp [hf] at h
    | some f =>
        simp only [hf] at h
        split at h
        · cases h
        · rename_i hequals
          split at h
          · cases h
          · rename_i hreplace
            cases h
            refine ⟨f, ?_, by simpa using hsealed, ?_, ?_, rfl⟩
            · cases handler <;> simp_all [Value.function?]
            · intro hs
              simpa [hs] using hequals
            · intro hc
              simpa [hc] using hreplace

/-- An entry under a new key goes to the end. -/
theorem entries_insert_of_not_contains {r : Registry} {s : Selector} {f : Function}
    (hs : r.handlers.contains s = false) :
    (r.handlers.insert s f).entries = r.handlers.entries ++ [(s, f)] := by
  have put : ∀ es : List (Selector × Function), Entries.find? s es = none →
      Entries.put s f es = es ++ [(s, f)] := by
    intro es
    induction es with
    | nil => intro _; rfl
    | cons e es ih => grind [Entries.find?, Entries.put]
  refine put _ ?_
  simpa [OrderedMap.contains, OrderedMap.get?] using hs

theorem becomes_add {r r' : Registry} {s : Selector} {handler : Value} (n : Nat)
    (h : r.add s handler = .ok r') : Object.Becomes n (.registry r) (.registry r') := by
  obtain ⟨f, -, hopen, -, hreplace, rfl⟩ := add_eq_ok h
  refine .registry rfl rfl ?_ ?_
  · intro hs
    simp [hs] at hopen
  · intro hr
    have hnew : r.handlers.contains s = false := by
      by_contra hc
      simp [hreplace (by simpa using hc)] at hr
    rw [entries_insert_of_not_contains hnew]
    exact List.prefix_append _ _

end Registry

namespace Heap

variable {h : Heap} {a : Address} {i : Instance}

theorem later_takeSnapshot (h : Heap) (i : Instance) : h.Later (h.takeSnapshot i).2 := by
  have clones : h.Later (h.withClones i) := .extend _ _
  unfold takeSnapshot
  split
  · exact clones.trans (.allocate _ _)
  · exact (clones.trans (.allocate _ _)).trans (.allocate _ _)

theorem later_withType (h : Heap) (name : String) (parent : Option Address) :
    h.Later (h.withType name parent) :=
  (Later.allocate _ _).trans (.allocate _ _)

theorem size_withOwnRegistry (h : Heap) (a : Address) (i : Instance) :
    (h.withOwnRegistry a i).size = h.size + 1 := by
  simp [withOwnRegistry]

theorem get?_withOwnRegistry_self (hi : h.get? a = some (.inst i)) :
    (h.withOwnRegistry a i).get? a = some (.inst { i with registry := some ⟨h.size⟩ }) :=
  get?_update_self ((get?_allocate_of_lt _ (lt_size_of_get? hi)).trans hi)

theorem get?_withOwnRegistry_of_ne {b : Address} (hb : b.index < h.size) (hba : b ≠ a) :
    (h.withOwnRegistry a i).get? b = h.get? b := by
  rw [withOwnRegistry, get?_update_of_ne _ hba, get?_allocate_of_lt _ hb]

theorem get?_withOwnRegistry_new (hi : h.get? a = some (.inst i)) :
    (h.withOwnRegistry a i).get? ⟨h.size⟩ =
      some (.registry (.fresh ("instance of '" ++ h.typeNameOf i ++ "'") true)) := by
  have hne : (⟨h.size⟩ : Address) ≠ a := by
    rintro rfl
    exact Nat.lt_irrefl _ (lt_size_of_get? hi)
  rw [withOwnRegistry, get?_update_of_ne _ hne, get?_allocate_self]

theorem later_withOwnRegistry (hi : h.get? a = some (.inst i)) (hr : i.registry = none) :
    h.Later (h.withOwnRegistry a i) := by
  refine ⟨by simp [withOwnRegistry], ?_⟩
  intro b o ho
  by_cases hba : b = a
  · subst hba
    cases ho.symm.trans hi
    refine ⟨_, get?_withOwnRegistry_self hi, .inst rfl rfl (fun _ => rfl) (.inr ⟨hr, ?_⟩)⟩
    rintro r ⟨⟩
    exact Nat.le_refl _
  · exact ⟨o, (get?_withOwnRegistry_of_ne (lt_size_of_get? ho) hba).trans ho, .refl _ o⟩

end Heap

namespace Scope

variable {S : Scope} {h h' : Heap} {s s' : State}

theorem Change.later (hc : S.Change h h') : h.Later h' := by
  cases hc with
  | newContainer | newRegistry | copyRegistry | instantiate | newRecord => exact .allocate _ _
  | openType name => exact Heap.later_withType _ _ _
  | snapshot => exact Heap.later_takeSnapshot _ _
  | setCell _ there => exact .update there (.cell _ _)
  | setList _ there => exact .update there (.list _ _)
  | setDict _ there => exact .update there (.dict _ _)
  | setFields _ there open_ =>
      refine .update there (.inst rfl rfl ?_ (.inl rfl))
      simp [open_]
  | addHandler _ there _ added => exact .update there (Registry.becomes_add _ added)
  | @sealRegistry _ r _ there =>
      refine .update there (.registry rfl rfl ?_ fun _ => List.prefix_rfl)
      intro hs
      cases r
      cases hs
      rfl
  | ownRegistry _ there bare => exact Heap.later_withOwnRegistry there bare

theorem Step.later (hs : S.Step s s') : s.heap.Later s'.heap := by
  cases hs with
  | heap change => exact change.later
  | bind | sight | log | takeRows | span | increment | reset | limit | share | operators | number
  | settle => exact .refl _

theorem Steps.later (hs : S.Steps s s') : s.heap.Later s'.heap := by
  induction hs with
  | refl => exact .refl _
  | tail _ last ih => exact ih.trans last.later

/-! ## What may not be written to stays as it is -/

/-- Objects that the scope may not write to do not change. -/
theorem Change.frame (hc : S.Change h h') {a : Address} (ha : ¬ S.writable a)
    (hlt : a.index < h.size) : h'.get? a = h.get? a := by
  have other : ∀ {b : Address} (o : Object), S.writable b → (h.update b o).get? a = h.get? a :=
    fun o hb => Heap.get?_update_of_ne o fun e => ha (e ▸ hb)
  cases hc with
  | newContainer | newRegistry | copyRegistry | instantiate | newRecord =>
      exact Heap.get?_allocate_of_lt _ hlt
  | openType name =>
      rw [Heap.withType, Heap.get?_allocate_of_lt _ (by simp; omega),
        Heap.get?_allocate_of_lt _ hlt]
  | snapshot => exact Heap.get?_takeSnapshot_of_lt hlt
  | setCell writable | setList writable | setDict writable | setFields writable
  | addHandler writable | sealRegistry writable => exact other _ writable
  | @ownRegistry b _ writable =>
      have hab : a ≠ b := fun e => ha (e ▸ writable)
      rw [Heap.withOwnRegistry, Heap.get?_update_of_ne _ hab, Heap.get?_allocate_of_lt _ hlt]

theorem Steps.frame (hs : S.Steps s s') {a : Address} (ha : ¬ S.writable a)
    (hlt : a.index < s.heap.size) : s'.heap.get? a = s.heap.get? a := by
  induction hs with
  | refl => rfl
  | tail before last ih =>
      have hlt' := Nat.lt_of_lt_of_le hlt (Steps.later before).size_le
      rw [← ih]
      cases last with
      | heap change => exact change.frame ha hlt'
      | bind | sight | log | takeRows | span | increment | reset | limit | share | operators
      | number | settle => rfl

end Scope

end OperatorDispatch
