import Mathlib.Data.List.Sort
import OperatorDispatch.Proofs.Registries

/-!
# Handlers declared with their type

`define` is handed all handlers of a type at once, as a map from texts in
whatever order the host wrote it down, and registers them one by one.  Each
registration can be refused, and the guard on `strictEquals` makes it matter
what was registered before.

The order of the map drops out in two steps.  Selectors have different ranks,
so entries under different selectors have one sorted order only, and two maps
with the same entries are registered in the same way.  And in that order
`equals` is the first of all: where it is in the map at all, it is there before
`strictEquals` comes up.  What is left are four conditions on the map
(`WellFormed`) that do not mention an order.
-/

namespace OperatorDispatch

/-! ## Keys -/

namespace OrderedMap

variable {κ α : Type} [DecidableEq κ] {m : OrderedMap κ α} {k : κ} {v : α}

theorem contains_iff_mem_keys : m.contains k = true ↔ k ∈ m.keys := by
  have find : ∀ es : List (κ × α), (Entries.find? k es).isSome = true ↔ k ∈ es.map Prod.fst := by
    intro es
    induction es with
    | nil => simp [Entries.find?]
    | cons e es ih => grind [Entries.find?]
  exact find m.entries

end OrderedMap

/-! ## Declaration order -/

theorem Selector.rank_inj {sel sel' : Selector} : sel.rank = sel'.rank ↔ sel = sel' :=
  List.idxOf_inj (mem_all sel)

/-- An entry comes no later than another one in declaration order. -/
def NoLater (e f : Selector × Value) : Prop :=
  e.1.rank ≤ f.1.rank

instance : DecidableRel NoLater := fun e f => inferInstanceAs (Decidable (e.1.rank ≤ f.1.rank))

instance : Std.Total NoLater :=
  ⟨fun e f => Nat.le_total e.1.rank f.1.rank⟩

instance : IsTrans (Selector × Value) NoLater :=
  ⟨fun _ _ _ => Nat.le_trans⟩

theorem insertBySelector_eq (e : Selector × Value) :
    ∀ es, insertBySelector e es = es.orderedInsert NoLater e
  | [] => rfl
  | f :: fs => by
      rw [insertBySelector, insertBySelector_eq e fs]
      rfl

theorem sortBySelector_eq (es : List (Selector × Value)) :
    sortBySelector es = es.insertionSort NoLater := by
  induction es with
  | nil => rfl
  | cons e es ih =>
      rw [List.insertionSort_cons, ← ih, ← insertBySelector_eq]
      rfl

theorem pairwise_sortBySelector (es : List (Selector × Value)) :
    (sortBySelector es).Pairwise NoLater := by
  rw [sortBySelector_eq]
  exact List.pairwise_insertionSort NoLater es

theorem sortBySelector_perm (es : List (Selector × Value)) : (sortBySelector es).Perm es := by
  rw [sortBySelector_eq]
  exact List.perm_insertionSort NoLater es

/-- Entries under different selectors are sorted into one list, whatever their
order was. -/
theorem sortBySelector_congr {es es' : List (Selector × Value)}
    (distinct : (es.map Prod.fst).Nodup) (same : es'.Perm es) :
    sortBySelector es' = sortBySelector es := by
  have both : (sortBySelector es').Perm (sortBySelector es) :=
    (sortBySelector_perm es').trans (same.trans (sortBySelector_perm es).symm)
  refine List.Perm.eq_of_pairwise ?_ (pairwise_sortBySelector es') (pairwise_sortBySelector es) both
  intro e f he hf hef hfe
  have he' : e ∈ es := (sortBySelector_perm es).mem_iff.mp (both.mem_iff.mp he)
  have hf' : f ∈ es := (sortBySelector_perm es).mem_iff.mp hf
  have tie : e.1 = f.1 := Selector.rank_inj.mp (Nat.le_antisymm hef hfe)
  exact List.inj_on_of_nodup_map distinct he' hf' tie

/-! ## Texts of selectors -/

/-- The entry under the selector that its text names. -/
def entryNamed? (e : String × Value) : Option (Selector × Value) :=
  (Selector.ofName? e.1).map (·, e.2)

namespace Action

theorem findSelectors_of_named : ∀ {es : List (String × Value)},
    (∀ e ∈ es, (Selector.ofName? e.1).isSome = true) →
      findSelectors es = .ok (es.filterMap entryNamed?)
  | [], _ => rfl
  | (name, v) :: es, named => by
      obtain ⟨sel, hsel⟩ := Option.isSome_iff_exists.mp (named _ List.mem_cons_self)
      have entry : entryNamed? (name, v) = some (sel, v) := by
        rw [entryNamed?, hsel, Option.map_some]
      have rest := findSelectors_of_named fun e he => named e (List.mem_cons_of_mem _ he)
      rw [findSelectors, findSelector_eq_ok.mpr hsel, rest, List.filterMap_cons_some entry]

/-- The first text that names no selector is where the look-up ends. -/
theorem named_of_findSelectors : ∀ {es : List (String × Value)} {fs : List (Selector × Value)},
    findSelectors es = .ok fs → ∀ e ∈ es, (Selector.ofName? e.1).isSome = true
  | [], _, _ => by simp
  | (name, v) :: es, fs, found => by
      unfold findSelectors at found
      split at found
      · cases found
      · rename_i sel hsel
        split at found
        · cases found
        · rename_i rest hrest
          refine List.forall_mem_cons.mpr ⟨?_, named_of_findSelectors hrest⟩
          rw [findSelector_eq_ok.mp hsel, Option.isSome_some]

end Action

/-! ## Handlers one after the other -/

/-- The entry of a registry, as it is handed in. -/
def Function.asGiven (e : Selector × Function) : Selector × Value :=
  (e.1, .function e.2)

namespace Registry

variable {r r' : Registry} {sel : Selector} {handler : Value} {es : List (Selector × Value)}

/-- Handlers can be added to the registry, but not replaced. -/
structure Growing (r : Registry) : Prop where
  isOpen : r.isSealed = false
  appends : r.allowReplace = false

/-- The registry with handlers added one after the other. -/
def addAll (r : Registry) : List (Selector × Value) → Except Fault Registry
  | [] => .ok r
  | (sel, handler) :: es =>
    match r.add sel handler with
    | .error fault => .error fault
    | .ok r' => r'.addAll es

theorem growing_add (hr : r.Growing) (added : r.add sel handler = .ok r') : r'.Growing := by
  obtain ⟨f, -, -, -, -, rfl⟩ := add_eq_ok added
  exact ⟨hr.isOpen, hr.appends⟩

/-- An accepted handler goes to the end of a registry that only grows. -/
theorem entries_add (hr : r.Growing) (added : r.add sel handler = .ok r') :
    r'.handlers.entries.map Function.asGiven =
      r.handlers.entries.map Function.asGiven ++ [(sel, handler)] := by
  obtain ⟨f, rfl, -, -, replaces, rfl⟩ := add_eq_ok added
  have new : r.handlers.contains sel = false := by
    by_contra old
    simp [hr.appends] at replaces
    simp [replaces] at old
  simp only [entries_insert_of_not_contains new, List.map_append, List.map_cons, List.map_nil,
    Function.asGiven]

theorem keys_of_entries (given : r.handlers.entries.map Function.asGiven = es) :
    r.handlers.keys = es.map Prod.fst := by
  rw [← given, List.map_map]
  rfl

/-- A registry that only grows takes a function for a selector it does not
have; `strictEquals` where it has `equals`. -/
theorem add_growing (hr : r.Growing) :
    (∃ r', r.add sel handler = .ok r') ↔
      (∃ f, handler = .function f) ∧ sel ∉ r.handlers.keys ∧
        (sel = .strictEquals → .equals ∈ r.handlers.keys) := by
  simp only [← OrderedMap.contains_iff_mem_keys]
  constructor
  · rintro ⟨r', added⟩
    obtain ⟨f, hf, -, guard, replaces, -⟩ := add_eq_ok added
    refine ⟨⟨f, hf⟩, fun old => ?_, guard⟩
    simp [hr.appends, old] at replaces
  · rintro ⟨⟨f, rfl⟩, new, guard⟩
    refine ⟨{ r with handlers := r.handlers.insert sel f }, ?_⟩
    simp only [add, hr.isOpen, Value.function?, new, Bool.false_eq_true, false_and, if_false]
    rw [if_neg]
    rintro ⟨strict, missing⟩
    simp [guard strict] at missing

theorem addAll_cons {f : Except Fault Registry} :
    r.addAll ((sel, handler) :: es) = f ↔
      (∃ fault, r.add sel handler = .error fault ∧ f = .error fault) ∨
        ∃ r', r.add sel handler = .ok r' ∧ r'.addAll es = f := by
  rw [addAll]
  cases r.add sel handler <;> simp [eq_comm]

/-- The handlers stand in the registry in the order in which they came. -/
theorem entries_addAll : ∀ {es : List (Selector × Value)} {r : Registry}, r.Growing →
    r.addAll es = .ok r' →
      r'.Growing ∧ r'.handlers.entries.map Function.asGiven =
        r.handlers.entries.map Function.asGiven ++ es
  | [], r, hr, added => by
      cases added
      exact ⟨hr, (List.append_nil _).symm⟩
  | (sel, handler) :: es, r, hr, added => by
      obtain ⟨fault, -, h⟩ | ⟨r₁, first, rest⟩ := addAll_cons.mp added
      · cases h
      · obtain ⟨hr', entries⟩ := entries_addAll (growing_add hr first) rest
        refine ⟨hr', ?_⟩
        rw [entries, entries_add hr first, List.append_assoc, List.singleton_append]

/-- Behind `strictEquals` there is no `equals`. -/
theorem equals_not_later {v : Value} (sorted : ((.strictEquals, v) :: es).Pairwise NoLater) :
    .equals ∉ es.map Prod.fst := by
  intro later
  obtain ⟨e, he, same⟩ := List.mem_map.mp later
  have ranks : Selector.strictEquals.rank ≤ e.1.rank := List.rel_of_pairwise_cons sorted he
  rw [same] at ranks
  revert ranks
  decide

/-- In declaration order no guard is met that the entries as a whole do not
meet. -/
theorem addAll_accepts : ∀ {es : List (Selector × Value)} {r : Registry}, r.Growing →
    es.Pairwise NoLater →
      ((∃ r', r.addAll es = .ok r') ↔
        (∀ e ∈ es, ∃ f, e.2 = .function f) ∧ (r.handlers.keys ++ es.map Prod.fst).Nodup ∧
          (.strictEquals ∈ es.map Prod.fst → .equals ∈ r.handlers.keys ++ es.map Prod.fst))
  | [], r, _, _ => by
      have nodup : r.handlers.keys.Nodup := r.handlers.nodup
      simp [addAll, nodup]
  | (sel, handler) :: es, r, hr, sorted => by
      have keys : ∀ {r₁}, r.add sel handler = .ok r₁ → r₁.handlers.keys ++ es.map Prod.fst =
          r.handlers.keys ++ ((sel, handler) :: es).map Prod.fst := by
        intro r₁ added
        rw [keys_of_entries (entries_add hr added), List.map_append, ← keys_of_entries rfl,
          List.append_assoc]
        rfl
      constructor
      · rintro ⟨r', added⟩
        obtain ⟨fault, -, h⟩ | ⟨r₁, first, rest⟩ := addAll_cons.mp added
        · cases h
        · have later := (addAll_accepts (growing_add hr first) sorted.of_cons).mp ⟨r', rest⟩
          have now := (add_growing hr).mp ⟨r₁, first⟩
          rw [keys first] at later
          refine ⟨List.forall_mem_cons.mpr ⟨now.1, later.1⟩, later.2.1, fun strict => ?_⟩
          rcases List.mem_cons.mp strict with strict | strict
          · exact List.mem_append_left _ (now.2.2 strict.symm)
          · exact later.2.2 strict
      · rintro ⟨callable, distinct, guard⟩
        obtain ⟨now, callable⟩ := List.forall_mem_cons.mp callable
        have new : sel ∉ r.handlers.keys := fun old =>
          List.disjoint_of_nodup_append distinct old List.mem_cons_self
        have guarded : sel = .strictEquals → .equals ∈ r.handlers.keys := by
          rintro rfl
          rcases List.mem_append.mp (guard List.mem_cons_self) with there | later
          · exact there
          · exact absurd ((List.mem_cons.mp later).resolve_left (by simp))
              (equals_not_later sorted)
        obtain ⟨r₁, first⟩ := (add_growing hr).mpr ⟨now, new, guarded⟩
        obtain ⟨r', rest⟩ := (addAll_accepts (growing_add hr first) sorted.of_cons).mpr
          ⟨callable, (keys first).symm ▸ distinct,
            fun strict => (keys first).symm ▸ guard (List.mem_cons_of_mem _ strict)⟩
        exact ⟨r', addAll_cons.mpr (.inr ⟨r₁, first, rest⟩)⟩

end Registry

/-! ## The run of a definition -/

namespace Heap

variable (h : Heap) (name : String) (parent : Option Address)

theorem typeAt?_withType :
    (h.withType name parent).typeAt? ⟨h.size + 1⟩ = some ⟨name, parent, ⟨h.size⟩⟩ := by
  have size := size_allocate h (.registry (.fresh ("type '" ++ name ++ "'") false))
  rw [typeAt?_eq_some, ← size]
  exact get?_allocate_self _ _

theorem registryAt?_withType : (h.withType name parent).registryAt? ⟨h.size⟩ =
    some (.fresh ("type '" ++ name ++ "'") false) := by
  rw [registryAt?_eq_some, withType, get?_allocate_of_lt _ (by simp), get?_allocate_self]

variable {h} in
theorem get?_withType_of_lt {a : Address} (ha : a.index < h.size) :
    (h.withType name parent).get? a = h.get? a := by
  rw [withType, get?_allocate_of_lt _ (by simp; omega), get?_allocate_of_lt _ ha]

end Heap

namespace Action

variable {s s' : State} {a : Address} {r r' : Registry} {es : List (Selector × Value)}
  {name : String} {parent : Option Address} {m : OrderedMap String Value}

/-- An accepted handler goes to the registry and nowhere else, and the others
follow. -/
theorem addHandlers_cons {sel : Selector} {handler : Value} (hr : s.heap.registryAt? a = some r)
    (first : r.add sel handler = .ok r') (es : List (Selector × Value)) :
    ∃ s', addHandlers a ((sel, handler) :: es) s = addHandlers a es s' ∧
      s'.heap.registryAt? a = some r' ∧ ∀ b, b ≠ a → s'.heap.get? b = s.heap.get? b := by
  have goesOn : addHandlers a ((sel, handler) :: es) s = addHandlers a es { s with
      heap := s.heap.update a (.registry r')
      journal := s.journal ++ [.registered sel r.owner] } := by
    rw [addHandlers, bind_ok (addHandler_ok hr first)]
  exact ⟨_, goesOn, Heap.registryAt?_update hr r', fun b hb => Heap.get?_update_of_ne _ hb⟩

theorem addHandlers_ok : ∀ {es : List (Selector × Value)} {s : State} {r : Registry},
    s.heap.registryAt? a = some r → r.addAll es = .ok r' →
      ∃ s', addHandlers a es s = .ok () s' ∧ s'.heap.registryAt? a = some r' ∧
        ∀ b, b ≠ a → s'.heap.get? b = s.heap.get? b
  | [], s, r, hr, added => by
      cases added
      exact ⟨s, rfl, hr, fun _ _ => rfl⟩
  | (sel, handler) :: es, s, r, hr, added => by
      obtain ⟨fault, -, h⟩ | ⟨r₁, first, rest⟩ := Registry.addAll_cons.mp added
      · cases h
      · obtain ⟨s₁, goesOn, there, kept₁⟩ := addHandlers_cons hr first es
        obtain ⟨s', run, hr', kept⟩ := addHandlers_ok there rest
        exact ⟨s', goesOn.trans run, hr', fun b hb => (kept b hb).trans (kept₁ b hb)⟩

/-- The first handler that is refused ends the registration. -/
theorem addHandlers_error {fault : Fault} : ∀ {es : List (Selector × Value)} {s : State}
    {r : Registry}, s.heap.registryAt? a = some r → r.addAll es = .error fault →
      ∃ s', addHandlers a es s = .error (.raised fault) s'
  | [], _, _, _, refused => by cases refused
  | (sel, handler) :: es, s, r, hr, refused => by
      obtain ⟨fault', first, h⟩ | ⟨r₁, first, rest⟩ := Registry.addAll_cons.mp refused
      · cases h
        rw [addHandlers]
        exact ⟨s, bind_error (addHandler_error hr first)⟩
      · obtain ⟨s₁, goesOn, there, -⟩ := addHandlers_cons hr first es
        obtain ⟨s', run⟩ := addHandlers_error there rest
        exact ⟨s', goesOn.trans run⟩

theorem sealRegistry_eq (hr : s.heap.registryAt? a = some r) :
    sealRegistry a s = .ok ()
      { s with heap := s.heap.update a (.registry { r with isSealed := true }) } := by
  rw [sealRegistry, bind_ok (registryAt_eq hr)]
  rfl

theorem sealType_open {t : TypeDefinition} (ht : s.heap.typeAt? a = some t)
    (hr : s.heap.registryAt? t.registry = some r) (isOpen : r.isSealed = false) :
    sealType a s = .ok () { s with
      heap := s.heap.update t.registry (.registry { r with isSealed := true })
      journal := s.journal ++ [.sealedType t.name r.handlers.size] } := by
  rw [sealType, bind_ok (show heap s = .ok s.heap s from rfl), ht, bind_ok (demand_some _ t s),
    bind_ok (registryAt_eq hr), isOpen, if_pos (by decide), bind_ok (sealRegistry_eq hr)]
  rfl

/-- A definition whose texts are all found: an open type, the handlers in
declaration order, the seal. -/
theorem define_of_found (name : String) (parent : Option Address) (s : State)
    (found : findSelectors m.entries = .ok es) :
    define name m parent s =
      (do addHandlers ⟨s.heap.size⟩ (sortBySelector es)
          sealType ⟨s.heap.size + 1⟩
          return ⟨s.heap.size + 1⟩ : Action Address)
        { s with heap := s.heap.withType name parent } := by
  have opened : openType name parent s =
      .ok ⟨s.heap.size + 1⟩ { s with heap := s.heap.withType name parent } := by
    rw [← Heap.size_allocate s.heap (.registry (.fresh ("type '" ++ name ++ "'") false))]
    rfl
  have there := Heap.typeAt?_withType s.heap name parent
  rw [define, bind_ok opened, found, bind_ok (show ofExcept (.ok es) _ = .ok es _ from rfl),
    bind_ok (show heap _ = .ok (s.heap.withType name parent) _ from rfl), there,
    bind_ok (demand_some _ _ _)]

/-- A text that names no selector ends the definition before any handler is
registered. -/
theorem define_of_not_found {fault : Fault} (unknown : findSelectors m.entries = .error fault) :
    define name m parent s =
      .error (.raised fault) { s with heap := s.heap.withType name parent } := by
  have opened : ∃ a, openType name parent s =
      .ok a { s with heap := s.heap.withType name parent } := ⟨_, rfl⟩
  obtain ⟨a, opened⟩ := opened
  rw [define, bind_ok opened, unknown]
  rfl

/-- A definition that goes through: the type, with its registry sealed, and
nothing else. -/
theorem define_of_accepted (parent : Option Address) (s : State)
    (found : findSelectors m.entries = .ok es)
    (added : (Registry.fresh ("type '" ++ name ++ "'") false).addAll (sortBySelector es) = .ok r) :
    ∃ s', define name m parent s = .ok ⟨s.heap.size + 1⟩ s' ∧
      s'.heap.typeAt? ⟨s.heap.size + 1⟩ = some ⟨name, parent, ⟨s.heap.size⟩⟩ ∧
      s'.heap.registryAt? ⟨s.heap.size⟩ = some { r with isSealed := true } ∧
      ∀ b : Address, b.index < s.heap.size → s'.heap.get? b = s.heap.get? b := by
  let s₁ : State := { s with heap := s.heap.withType name parent }
  obtain ⟨s₂, filled, hr, kept⟩ := addHandlers_ok (a := ⟨s.heap.size⟩) (s := s₁)
    (Heap.registryAt?_withType s.heap name parent) added
  have isOpen : r.isSealed = false := (Registry.entries_addAll ⟨rfl, rfl⟩ added).1.isOpen
  have ht : s₂.heap.typeAt? ⟨s.heap.size + 1⟩ = some ⟨name, parent, ⟨s.heap.size⟩⟩ := by
    rw [Heap.typeAt?_eq_some, kept _ (by simp), ← Heap.typeAt?_eq_some]
    exact Heap.typeAt?_withType s.heap name parent
  have elsewhere : ∀ (b : Address) (o : Object), b ≠ ⟨s.heap.size⟩ →
      (s₂.heap.update ⟨s.heap.size⟩ o).get? b = s₁.heap.get? b :=
    fun b o hb => (Heap.get?_update_of_ne o hb).trans (kept b hb)
  have run := (define_of_found name parent s found).trans
    ((bind_ok filled).trans (bind_ok (sealType_open ht hr isOpen)))
  refine ⟨_, run, ?_, ?_, ?_⟩
  · rw [Heap.typeAt?_eq_some, elsewhere _ _ (by simp), ← Heap.typeAt?_eq_some]
    exact Heap.typeAt?_withType s.heap name parent
  · exact Heap.registryAt?_update hr _
  · intro b hb
    have old : b ≠ ⟨s.heap.size⟩ := by
      rintro rfl
      exact Nat.lt_irrefl _ hb
    exact (elsewhere b _ old).trans (Heap.get?_withType_of_lt name parent hb)

/-- A definition ends where its first refused handler does. -/
theorem define_of_refused {fault : Fault} (found : findSelectors m.entries = .ok es)
    (refused : (Registry.fresh ("type '" ++ name ++ "'") false).addAll (sortBySelector es) =
      .error fault) :
    ∃ s', define name m parent s = .error (.raised fault) s' := by
  obtain ⟨s', run⟩ := addHandlers_error (a := ⟨s.heap.size⟩)
    (s := { s with heap := s.heap.withType name parent })
    (Heap.registryAt?_withType s.heap name parent) refused
  exact ⟨s', (define_of_found name parent s found).trans (bind_error run)⟩

end Action

/-! ## Maps of handlers -/

namespace OrderedMap

variable (m : OrderedMap String Value)

/-- What the keys of a map name. -/
def named : List (Option Selector) :=
  m.keys.map Selector.ofName?

/-- Each key names a selector, and no two keys the same one. -/
structure Unambiguous : Prop where
  all_named : none ∉ m.named
  distinct : m.named.Nodup

/-- A map from which a type can be defined. -/
structure WellFormed : Prop extends m.Unambiguous where
  callable : ∀ v ∈ m.values, ∃ f, v = .function f
  /-- Strict equality comes only together with equality. -/
  guarded : some .strictEquals ∈ m.named → some .equals ∈ m.named

variable {m}

theorem none_not_mem_named :
    none ∉ m.named ↔ ∀ e ∈ m.entries, (Selector.ofName? e.1).isSome = true := by
  simp only [named, keys, List.map_map, List.mem_map, not_exists, not_and, Function.comp_apply,
    Option.isSome_iff_ne_none, ne_eq]

theorem map_entryNamed? : ∀ {es : List (String × Value)},
    (∀ e ∈ es, (Selector.ofName? e.1).isSome = true) →
      (es.filterMap entryNamed?).map (fun e => (some e.1, e.2)) =
        es.map fun e => (Selector.ofName? e.1, e.2)
  | [], _ => rfl
  | (name, v) :: es, named => by
      obtain ⟨sel, hsel⟩ := Option.isSome_iff_exists.mp (named _ List.mem_cons_self)
      have entry : entryNamed? (name, v) = some (sel, v) := by
        rw [entryNamed?, hsel, Option.map_some]
      have rest := map_entryNamed? fun e he => named e (List.mem_cons_of_mem _ he)
      rw [List.filterMap_cons_some entry, List.map_cons, List.map_cons, rest, hsel]

/-- The handlers of a map, under their selectors in declaration order. -/
def declared (m : OrderedMap String Value) : List (Selector × Value) :=
  sortBySelector (m.entries.filterMap entryNamed?)

theorem pairwise_declared : m.declared.Pairwise NoLater :=
  pairwise_sortBySelector _

variable (named : none ∉ m.named)
include named

theorem declared_perm : (m.declared.map fun e => (some e.1, e.2)).Perm
    (m.entries.map fun e => (Selector.ofName? e.1, e.2)) := by
  rw [← map_entryNamed? (none_not_mem_named.mp named)]
  exact (sortBySelector_perm _).map _

theorem declared_selectors_perm : ((m.declared.map Prod.fst).map some).Perm m.named := by
  have both := (declared_perm named).map Prod.fst
  simpa only [List.map_map, Function.comp_def, OrderedMap.named, keys] using both

theorem declared_handlers_perm : (m.declared.map Prod.snd).Perm m.values := by
  have both := (declared_perm named).map Prod.snd
  simpa only [List.map_map, Function.comp_def, values] using both

theorem mem_declared_selectors {sel : Selector} :
    sel ∈ m.declared.map Prod.fst ↔ some sel ∈ m.named := by
  rw [← (declared_selectors_perm named).mem_iff,
    List.mem_map_of_injective (Option.some_injective _)]

theorem mem_declared {sel : Selector} {v : Value} :
    (sel, v) ∈ m.declared ↔ ∃ text, (text, v) ∈ m.entries ∧ Selector.ofName? text = some sel := by
  have both := (declared_perm named).mem_iff (a := (some sel, v))
  simp only [List.mem_map, Prod.mk.injEq, Option.some.injEq, Prod.exists] at both
  grind

/-- An empty registry takes the handlers of the well-formed maps. -/
theorem wellFormed_iff (owner : String) :
    m.WellFormed ↔ ∃ r, (Registry.fresh owner false).addAll m.declared = .ok r := by
  have callable : (∀ e ∈ m.declared, ∃ f, e.2 = .function f) ↔
      ∀ v ∈ m.values, ∃ f, v = .function f := by
    simp only [← (declared_handlers_perm named).mem_iff, List.forall_mem_map]
  have distinct : (m.declared.map Prod.fst).Nodup ↔ m.named.Nodup := by
    rw [← (declared_selectors_perm named).nodup_iff, List.nodup_map_iff (Option.some_injective _)]
  rw [Registry.addAll_accepts ⟨rfl, rfl⟩ pairwise_declared]
  show _ ↔ _ ∧ ([] ++ m.declared.map Prod.fst).Nodup ∧ (_ → _ ∈ [] ++ m.declared.map Prod.fst)
  rw [List.nil_append, callable, distinct, mem_declared_selectors named,
    mem_declared_selectors named]
  exact ⟨fun h => ⟨h.callable, h.distinct, h.guarded⟩, fun h => ⟨⟨named, h.2.1⟩, h.1, h.2.2⟩⟩

end OrderedMap

/-! ## Exactly the well-formed maps, in any order -/

/-- The registry of a type that was defined from the map. -/
structure Registry.DeclaredBy (m : OrderedMap String Value) (r : Registry) : Prop where
  isSealed : r.isSealed = true
  /-- In declaration order, no selector twice. -/
  ordered : r.handlers.keys.Pairwise fun sel sel' => sel.rank < sel'.rank
  /-- The handlers are those of the map. -/
  exact : ∀ sel f, (sel, f) ∈ r.handlers.entries ↔
    ∃ text, (text, .function f) ∈ m.entries ∧ Selector.ofName? text = some sel

theorem Registry.declaredBy {m : OrderedMap String Value} {owner : String} {r : Registry}
    (named : none ∉ m.named) (added : (fresh owner false).addAll m.declared = .ok r) :
    Registry.DeclaredBy m { r with isSealed := true } := by
  have given : r.handlers.entries.map Function.asGiven = m.declared :=
    (entries_addAll ⟨rfl, rfl⟩ added).2
  have keys : r.handlers.keys = m.declared.map Prod.fst := keys_of_entries given
  refine ⟨rfl, ?_, fun sel f => ?_⟩
  · have sorted : r.handlers.keys.Pairwise fun sel sel' => sel.rank ≤ sel'.rank := by
      rw [keys, List.pairwise_map]
      exact OrderedMap.pairwise_declared
    refine (sorted.and r.handlers.nodup).imp fun {sel sel'} h => ?_
    exact Nat.lt_of_le_of_ne h.1 fun tie => h.2 (Selector.rank_inj.mp tie)
  · rw [← OrderedMap.mem_declared named, ← given, List.mem_map]
    constructor
    · intro he
      exact ⟨(sel, f), he, rfl⟩
    · rintro ⟨⟨sel', f'⟩, he, same⟩
      cases same
      exact he

/-- How the definition of a type from a map of handlers goes. -/
structure DefinedFrom (name : String) (parent : Option Address) (m : OrderedMap String Value) :
    Prop where
  /-- It succeeds just where the map is well-formed. -/
  accepted : ∀ s, (∃ a s', Action.define name m parent s = .ok a s') ↔ m.WellFormed
  /-- Otherwise it raises a fault. -/
  refused : ∀ s, ¬m.WellFormed →
    ∃ fault s', Action.define name m parent s = .error (.raised fault) s'
  /-- It leaves a sealed type with the handlers of the map, and what was there
  before as it was. -/
  complete : ∀ s a s', Action.define name m parent s = .ok a s' →
    ∃ t r, s'.heap.typeAt? a = some t ∧ t.name = name ∧ t.parent = parent ∧
      s'.heap.registryAt? t.registry = some r ∧ r.DeclaredBy m ∧
      ∀ b : Address, b.index < s.heap.size → s'.heap.get? b = s.heap.get? b
  /-- Where the map is unambiguous, the order of its entries does not matter,
  neither for the definition nor for the fault. -/
  unordered : m.Unambiguous → ∀ m' : OrderedMap String Value, m'.entries.Perm m.entries →
    Action.define name m' parent = Action.define name m parent

theorem OrderedMap.Unambiguous.define_congr {m m' : OrderedMap String Value}
    (hm : m.Unambiguous) (same : m'.entries.Perm m.entries) (name : String)
    (parent : Option Address) :
    Action.define name m' parent = Action.define name m parent := by
  have named := none_not_mem_named.mp hm.all_named
  have found : Action.findSelectors m.entries = .ok (m.entries.filterMap entryNamed?) :=
    Action.findSelectors_of_named named
  have found' : Action.findSelectors m'.entries = .ok (m'.entries.filterMap entryNamed?) :=
    Action.findSelectors_of_named fun e he => named e (same.mem_iff.mp he)
  have distinct : ((m.entries.filterMap entryNamed?).map Prod.fst).Nodup := by
    rw [← ((sortBySelector_perm _).map Prod.fst).nodup_iff,
      ← List.nodup_map_iff (Option.some_injective _)]
    exact (declared_selectors_perm hm.all_named).nodup_iff.mpr hm.distinct
  funext s
  rw [Action.define_of_found _ _ _ found, Action.define_of_found _ _ _ found',
    sortBySelector_congr distinct (same.filterMap entryNamed?)]

section

variable {m : OrderedMap String Value} (name : String) (parent : Option Address) (s : State)

theorem OrderedMap.WellFormed.define_ok (hm : m.WellFormed) :
    ∃ t r s', Action.define name m parent s = .ok ⟨s.heap.size + 1⟩ s' ∧
      s'.heap.typeAt? ⟨s.heap.size + 1⟩ = some t ∧ t.name = name ∧ t.parent = parent ∧
      s'.heap.registryAt? t.registry = some r ∧ r.DeclaredBy m ∧
      ∀ b : Address, b.index < s.heap.size → s'.heap.get? b = s.heap.get? b := by
  have found := Action.findSelectors_of_named (none_not_mem_named.mp hm.all_named)
  obtain ⟨r, added⟩ := (wellFormed_iff hm.all_named ("type '" ++ name ++ "'")).mp hm
  obtain ⟨s', run, ht, hr, kept⟩ := Action.define_of_accepted parent s found added
  exact ⟨_, _, s', run, ht, rfl, rfl, hr, Registry.declaredBy hm.all_named added, kept⟩

theorem OrderedMap.define_error (hm : ¬m.WellFormed) :
    ∃ fault s', Action.define name m parent s = .error (.raised fault) s' := by
  cases found : Action.findSelectors m.entries with
  | error fault => exact ⟨fault, _, Action.define_of_not_found found⟩
  | ok es =>
      have named := Action.named_of_findSelectors found
      cases found.symm.trans (Action.findSelectors_of_named named)
      cases added : (Registry.fresh ("type '" ++ name ++ "'") false).addAll m.declared with
      | error fault => exact ⟨fault, Action.define_of_refused found added⟩
      | ok r => exact absurd ((wellFormed_iff (none_not_mem_named.mpr named) _).mpr ⟨r, added⟩) hm

end

/-- A definition takes exactly the well-formed maps, and in any order. -/
theorem define_takes_any_order (name : String) (parent : Option Address)
    (m : OrderedMap String Value) : DefinedFrom name parent m where
  accepted s := by
    constructor
    · rintro ⟨a, s', run⟩
      by_contra hm
      obtain ⟨fault, s'', failed⟩ := OrderedMap.define_error name parent s hm
      cases run.symm.trans failed
    · intro hm
      obtain ⟨t, r, s', run, -⟩ := hm.define_ok name parent s
      exact ⟨_, s', run⟩
  refused s hm := OrderedMap.define_error name parent s hm
  complete s a s' run := by
    by_cases hm : m.WellFormed
    · obtain ⟨t, r, s'', run', declared⟩ := hm.define_ok name parent s
      cases run.symm.trans run'
      exact ⟨t, r, declared⟩
    · obtain ⟨fault, s'', failed⟩ := OrderedMap.define_error name parent s hm
      cases run.symm.trans failed
  unordered hm m' same := hm.define_congr same name parent

/-- Both equalities, the strict one first, in two spellings. -/
def strictFirst : OrderedMap String Value :=
  .ofList [("strictEquals", .function ⟨0, "same", .literal .null⟩),
    ("EQUALS", .function ⟨1, "alike", .literal .null⟩)]

/-- Both equalities, the strict one last. -/
def strictLast : OrderedMap String Value :=
  .ofList [("EQUALS", .function ⟨1, "alike", .literal .null⟩),
    ("strictEquals", .function ⟨0, "same", .literal .null⟩)]

/-- Strict equality may be written before equality. -/
theorem define_takes_any_order_equalities :
    strictFirst.WellFormed ∧
      (∃ a s', Action.define "Point" strictFirst none (State.initial .standard) = .ok a s') ∧
      Action.define "Point" strictLast none = Action.define "Point" strictFirst none := by
  have defined := define_takes_any_order "Point" none strictFirst
  have wellFormed : strictFirst.WellFormed := {
    all_named := by decide +kernel
    distinct := by decide +kernel
    callable := by simp [strictFirst, OrderedMap.ofList, OrderedMap.values, OrderedMap.insert,
      OrderedMap.empty, Entries.put]
    guarded := by decide +kernel }
  exact ⟨wellFormed, (defined.accepted (State.initial .standard)).mpr wellFormed,
    defined.unordered wellFormed.toUnambiguous strictLast (List.Perm.swap _ _ _)⟩

end OperatorDispatch
