import OperatorDispatch.Proofs.Positions

/-!
# Delegation chains

The delegation chain of a type definition is read off the heap, from parent to parent,
and nothing in the shape of a heap keeps such a walk from going on for ever.  `chain`
bounds it by the address that it starts from.  `Walk` is the same without a bound: it
relates a type definition to what a walk of its parents comes by, and does so only if
the walk ends, at a definition without a parent.

What makes it end is an invariant of the heap: parents are older than their children
(`Heap.Older`), and a definition never changes.  So along a walk the addresses descend.
The walk is the chain (`walk_iff`), it comes by no definition twice, and of two
definitions that stand on the chains of each other neither is older.
-/

namespace OperatorDispatch

namespace Heap

/-! ## Walks -/

/-- What a walk of the parents of a type definition comes by, up to the definition
where it ends. -/
inductive Walk (h : Heap) : Address → List Address → Prop
  | root {a : Address} {t : TypeDefinition} (there : h.typeAt? a = some t)
      (top : t.parent = none) : Walk h a [a]
  | child {a parent : Address} {t : TypeDefinition} {rest : List Address}
      (there : h.typeAt? a = some t) (derived : t.parent = some parent)
      (further : Walk h parent rest) : Walk h a (a :: rest)

namespace Walk

variable {h h' : Heap} {a b : Address} {l : List Address}

theorem unique (hl : h.Walk a l) : ∀ {l' : List Address}, h.Walk a l' → l' = l := by
  induction hl with
  | root there top =>
      intro l' hl'
      cases hl' with
      | root => rfl
      | child there' derived => cases there.symm.trans there'; cases top.symm.trans derived
  | child there derived _ ih =>
      intro l' hl'
      cases hl' with
      | root there' top => cases there.symm.trans there'; cases top.symm.trans derived
      | child there' derived' further' =>
          cases there.symm.trans there'
          cases derived.symm.trans derived'
          rw [ih further']

/-- Definitions stay what they are, and so do the walks along them. -/
theorem later (hl : h.Walk a l) (later : h.Later h') : h'.Walk a l := by
  induction hl with
  | root there top => exact .root (later.typeAt? there) top
  | child there derived _ ih => exact .child (later.typeAt? there) derived ih

theorem head? (hl : h.Walk a l) : l.head? = some a := by
  cases hl <;> rfl

theorem getLast? (hl : h.Walk a l) :
    ∃ b t, l.getLast? = some b ∧ h.typeAt? b = some t ∧ t.parent = none := by
  induction hl with
  | root there top => exact ⟨_, _, rfl, there, top⟩
  | child _ _ _ ih =>
      obtain ⟨b, t, last, root⟩ := ih
      refine ⟨b, t, ?_, root⟩
      rw [List.getLast?_cons, last, Option.getD_some]

/-- From each definition that a walk comes by, the rest of it is the walk. -/
theorem suffix (hl : h.Walk a l) (hb : b ∈ l) : ∃ l', h.Walk b l' ∧ l' <:+ l := by
  induction hl with
  | root there top =>
      obtain rfl := List.mem_singleton.mp hb
      exact ⟨_, .root there top, List.suffix_rfl⟩
  | child there derived further ih =>
      rcases List.mem_cons.mp hb with rfl | hb
      · exact ⟨_, .child there derived further, List.suffix_rfl⟩
      · obtain ⟨l', walk, suffix⟩ := ih hb
        exact ⟨l', walk, suffix.trans (List.suffix_cons _ _)⟩

/-! ## The way down -/

section Older

variable (older : h.Older)

include older

/-- A walk does not come by anything younger than where it starts. -/
theorem index_le (hl : h.Walk a l) (hb : b ∈ l) : b.index ≤ a.index := by
  induction hl with
  | root => exact (List.mem_singleton.mp hb) ▸ Nat.le_refl _
  | child there derived _ ih =>
      rcases List.mem_cons.mp hb with rfl | hb
      · exact Nat.le_refl _
      · have below := older _ _ _ (typeAt?_eq_some.mp there) derived
        exact Nat.le_of_lt (Nat.lt_of_le_of_lt (ih hb) below)

theorem descends (hl : h.Walk a l) : l.Pairwise fun x y => y.index < x.index := by
  induction hl with
  | root => exact List.pairwise_singleton _ _
  | child there derived further ih =>
      refine List.pairwise_cons.mpr ⟨fun b hb => ?_, ih⟩
      have below := older _ _ _ (typeAt?_eq_some.mp there) derived
      exact Nat.lt_of_le_of_lt (further.index_le older hb) below

theorem nodup (hl : h.Walk a l) : l.Nodup := by
  refine (hl.descends older).imp fun {x y} below same => ?_
  rw [same] at below
  exact Nat.lt_irrefl _ below

end Older

end Walk

/-! ## The chain is the walk -/

section Chain

variable {S : Scope} {V : Vocabulary} {h : Heap} {a b c : Address} {t : TypeDefinition}

/-- Fuel beyond the address of a type definition takes the walk to its end. -/
theorem walk_chainFrom (hc : S.Covers h) (older : h.Older) :
    ∀ (fuel : Nat) {a : Address}, a.index < fuel → S.KnowsType h a →
      h.Walk a (h.chainFrom fuel a)
  | 0, _, hlt, _ => absurd hlt (Nat.not_lt_zero _)
  | fuel + 1, a, hlt, ⟨known, t, ht⟩ => by
      have there := typeAt?_eq_some.mp ht
      simp only [chainFrom, ht]
      cases hp : t.parent with
      | none => exact .root ht hp
      | some p =>
          have below : p.index < a.index := older a _ p there hp
          exact .child ht hp (walk_chainFrom hc older fuel (by omega)
            ((hc.object a _ known there).2 p hp))

theorem exists_type_of_mem_chain (hb : b ∈ h.chain a) : ∃ t, h.typeAt? a = some t := by
  cases ht : h.typeAt? a with
  | none => simp [chain, chainFrom, ht] at hb
  | some t => exact ⟨t, rfl⟩

theorem isSubtype_iff : h.isSubtype a b = true ↔ b ∈ h.chain a := by
  rw [isSubtype, List.contains_iff_mem]

variable (hc : (Scope.whole V).Covers h) (older : h.Older)

include hc older

theorem walk_chain (ht : h.typeAt? a = some t) : h.Walk a (h.chain a) :=
  walk_chainFrom hc older _ (Nat.lt_succ_self _) ⟨trivial, t, ht⟩

theorem walk_iff (ht : h.typeAt? a = some t) {l : List Address} :
    h.Walk a l ↔ l = h.chain a := by
  have walk := walk_chain hc older ht
  constructor
  · exact fun hl => walk.unique hl
  · rintro rfl
    exact walk

/-- The chain of a definition, said of the chain of its parent. -/
theorem chain_eq (ht : h.typeAt? a = some t) :
    h.chain a = a :: t.parent.elim [] h.chain := by
  have walk := walk_chain hc older ht
  generalize h.chain a = l at walk
  cases walk with
  | root there top =>
      cases there.symm.trans ht
      rw [top, Option.elim_none]
  | child there derived further =>
      cases there.symm.trans ht
      obtain ⟨-, p, hp⟩ := (hc.object a _ trivial (typeAt?_eq_some.mp ht)).2 _ derived
      rw [derived, Option.elim_some, (walk_iff hc older hp).mp further]

/-- The chain of an ancestor is the end of the chain. -/
theorem chain_suffix (hb : b ∈ h.chain a) : h.chain b <:+ h.chain a := by
  obtain ⟨t, ht⟩ := exists_type_of_mem_chain hb
  obtain ⟨l, walk, suffix⟩ := (walk_chain hc older ht).suffix hb
  obtain ⟨t', ht'⟩ := typeAt?_of_mem_chainFrom hb
  rwa [(walk_iff hc older ht').mp walk] at suffix

theorem index_le_of_mem_chain (hb : b ∈ h.chain a) : b.index ≤ a.index := by
  obtain ⟨t, ht⟩ := exists_type_of_mem_chain hb
  exact (walk_chain hc older ht).index_le older hb

theorem isSubtype_refl (ht : h.typeAt? a = some t) : h.isSubtype a a = true := by
  rw [isSubtype_iff, chain_eq hc older ht]
  exact List.mem_cons_self

theorem isSubtype_trans (hab : h.isSubtype a b = true) (hbc : h.isSubtype b c = true) :
    h.isSubtype a c = true := by
  rw [isSubtype_iff] at *
  exact (chain_suffix hc older hab).subset hbc

theorem isSubtype_antisymm (hab : h.isSubtype a b = true) (hba : h.isSubtype b a = true) :
    a = b := by
  rw [isSubtype_iff] at hab hba
  have low := index_le_of_mem_chain hc older hab
  have high := index_le_of_mem_chain hc older hba
  exact congrArg Address.mk (Nat.le_antisymm high low)

end Chain

end Heap

/-! ## Chains in runs -/

/-- What is to be said of the chain of a type definition. -/
structure State.Delegates (s : State) (a : Address) (t : TypeDefinition) : Prop where
  /-- The walk of its parents ends, and the chain is what it comes by. -/
  walk_iff : ∀ l, s.heap.Walk a l ↔ l = s.heap.chain a
  nodup : (s.heap.chain a).Nodup
  first : (s.heap.chain a).head? = some a
  last : ∃ b root, (s.heap.chain a).getLast? = some b ∧ s.heap.typeAt? b = some root ∧
    root.parent = none
  alone : t.parent = none → s.heap.chain a = [a]
  derived : ∀ p, t.parent = some p → s.heap.chain a = a :: s.heap.chain p
  later : ∀ s', s.LeadsTo .full s' → s'.heap.chain a = s.heap.chain a

/-- Type definitions, told apart by their addresses, are ordered by delegation. -/
structure State.SubtypesOrdered (s : State) : Prop where
  refl : ∀ a t, s.heap.typeAt? a = some t → s.heap.isSubtype a a = true
  trans : ∀ a b c, s.heap.isSubtype a b = true → s.heap.isSubtype b c = true →
    s.heap.isSubtype a c = true
  antisymm : ∀ a b, s.heap.isSubtype a b = true → s.heap.isSubtype b a = true → a = b

/-- Delegation chains are finite and stay as they are, and they order the type
definitions. -/
theorem delegation_ordered {s : State} (hs : Reachable s) :
    (∀ a t, s.heap.typeAt? a = some t → s.Delegates a t) ∧ s.SubtypesOrdered := by
  have hc := hs.confines.heap
  have older := hs.older
  refine ⟨fun a t ht => ?_, fun a t => Heap.isSubtype_refl hc older,
    fun a b c => Heap.isSubtype_trans hc older, fun a b => Heap.isSubtype_antisymm hc older⟩
  have walk := Heap.walk_chain hc older ht
  have chain := Heap.chain_eq hc older ht
  refine ⟨fun l => Heap.walk_iff hc older ht, walk.nodup older, walk.head?, walk.getLast?,
    fun top => ?_, fun p derived => ?_, fun s' leads => ?_⟩
  · rw [chain, top, Option.elim_none]
  · rw [chain, derived, Option.elim_some]
  · have later := (hs.steps_of_leadsTo leads).later
    have hs' := hs.leadsTo leads
    exact ((Heap.walk_iff hs'.confines.heap hs'.older (later.typeAt? ht)).mp
      (walk.later later)).symm

/-- Three definitions of one name, the second derived from the first. -/
def namesakes : Expr :=
  .sequence [
    .assign "base" (.call (.definition (.openType "Shape")) [.literal .null]),
    .assign "derived" (.call (.definition (.openType "Shape")) [.variable "base"]),
    .call (.definition (.openType "Shape")) [.literal .null]]

theorem chain_namesakes : (State.after 0 namesakes).heap.chain ⟨3⟩ = [⟨3⟩, ⟨1⟩] := by
  decide +kernel

theorem name_namesakes : ∀ a ∈ [1, 3, 5],
    ((State.after 0 namesakes).heap.typeAt? ⟨a⟩).map (·.name) = some "Shape" := by
  decide +kernel

theorem delegation_ordered_namesakes :
    Reachable (.after 0 namesakes) ∧ (State.after 0 namesakes).heap.Walk ⟨3⟩ [⟨3⟩, ⟨1⟩] ∧
      (∀ s', (State.after 0 namesakes).LeadsTo .full s' → s'.heap.chain ⟨3⟩ = [⟨3⟩, ⟨1⟩]) ∧
      (State.after 0 namesakes).heap.isSubtype ⟨1⟩ ⟨3⟩ = false ∧
      (State.after 0 namesakes).heap.isSubtype ⟨3⟩ ⟨5⟩ = false := by
  have hs : Reachable (.after 0 namesakes) := reachable_after 0 (Expr.within_full namesakes)
  obtain ⟨chains, ordered⟩ := delegation_ordered hs
  obtain ⟨t, ht, -⟩ := Option.map_eq_some_iff.mp (name_namesakes 3 (by decide))
  have delegates := chains ⟨3⟩ t ht
  have up : (State.after 0 namesakes).heap.isSubtype ⟨3⟩ ⟨1⟩ = true := by
    rw [Heap.isSubtype_iff, chain_namesakes]
    decide
  refine ⟨hs, (delegates.walk_iff _).mpr chain_namesakes.symm, fun s' leads => ?_, ?_, ?_⟩
  · exact (delegates.later s' leads).trans chain_namesakes
  · rw [← Bool.not_eq_true]
    intro down
    exact absurd (ordered.antisymm _ _ up down) (by decide)
  · rw [← Bool.not_eq_true, Heap.isSubtype_iff, chain_namesakes]
    decide

end OperatorDispatch
