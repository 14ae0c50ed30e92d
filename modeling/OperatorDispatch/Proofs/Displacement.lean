import Mathlib.Logic.Basic
import OperatorDispatch.Command
import OperatorDispatch.Proofs.Objects

/-!
# Heaps with a gap between them

Two runs of the same code, one of which has made some objects more before the code
starts, go through heaps that differ in these objects and in the addresses of all
that come after them: what was there before is where it was, and everything new is
higher by the number of the extra objects.  A `Gap` says where the extra objects lie
and how many there are, and `across` puts data in its place on the other side.

Nothing that the engine reads off a heap can tell the two sides apart: `across`
commutes with every look-up.  Three facts carry this.  Addresses that differ stay
different (`Gap.shift_inj`).  A delegation chain ends before its fuel does, whatever
the fuel, because a parent is older than its children (`Heap.Displaced.older`).  And of a
reading nobody looks at the content, so readings need not correspond at all.
-/

namespace OperatorDispatch

/-! ## Gaps -/

/-- A number of objects above the first ones, which one of two heaps has besides those
of the other. -/
structure Gap where
  base : Nat
  width : Nat

namespace Gap

/-- The address on the other side. -/
def shift (g : Gap) (a : Address) : Address :=
  if a.index < g.base then a else ⟨a.index + g.width⟩

variable {g : Gap} {a b : Address}

theorem shift_of_lt (h : a.index < g.base) : g.shift a = a :=
  if_pos h

theorem shift_of_le (h : g.base ≤ a.index) : g.shift a = ⟨a.index + g.width⟩ :=
  if_neg (Nat.not_lt.mpr h)

theorem le_shift (g : Gap) (a : Address) : a.index ≤ (g.shift a).index := by
  unfold shift
  split
  · exact Nat.le_refl _
  · exact Nat.le_add_right _ _

theorem shift_inj : g.shift a = g.shift b ↔ a = b := by
  obtain ⟨m⟩ := a
  obtain ⟨n⟩ := b
  unfold shift
  split <;> split <;> simp only [Address.mk.injEq] at * <;> omega

theorem shift_beq (g : Gap) (a b : Address) : (g.shift a == g.shift b) = (a == b) := by
  rw [Bool.eq_iff_iff, beq_iff_eq, beq_iff_eq, shift_inj]

theorem contains_map_shift (g : Gap) (a : Address) (l : List Address) :
    (l.map g.shift).contains (g.shift a) = l.contains a := by
  induction l with
  | nil => rfl
  | cons b l ih => simp only [List.map_cons, List.contains_cons, ih, shift_beq]

end Gap

/-! ## Data with addresses in it -/

/-- Data that has a place on either side of a gap. -/
class Movable (α : Type) where
  across : Gap → α → α

export Movable (across)

/-- Data without addresses. -/
@[reducible] def Movable.plain (α : Type) : Movable α := ⟨fun _ x => x⟩

section Instances

variable {α β κ : Type} [Movable α] [Movable β]

instance : Movable Unit := .plain _
instance : Movable Bool := .plain _
instance : Movable Nat := .plain _
instance : Movable Int := .plain _
instance : Movable String := .plain _
instance : Movable Selector := .plain _
instance : Movable Primitive := .plain _
instance : Movable Function := .plain _
instance : Movable Registry := .plain _
instance : Movable Outcome := .plain _

instance : Movable Address := ⟨Gap.shift⟩
instance : Movable Value := ⟨fun g v => v.rename g.shift⟩
instance : Movable (Option α) := ⟨fun g o => o.map (across g)⟩
instance : Movable (List α) := ⟨fun g l => l.map (across g)⟩
instance : Movable (α × β) := ⟨fun g x => (across g x.1, across g x.2)⟩
instance : Movable (Except Fault α) := ⟨fun g r => r.map (across g)⟩
instance : Movable (OrderedMap κ α) := ⟨fun g m => m.mapValues (across g)⟩

instance : Movable Instance := ⟨fun g i =>
  { i with type := across g i.type, fields := across g i.fields, registry := across g i.registry }⟩

instance : Movable TypeDefinition := ⟨fun g t =>
  { t with parent := across g t.parent, registry := across g t.registry }⟩

instance : Movable Arguments := ⟨fun g x => ⟨across g x.this, across g x.other⟩⟩

instance : Movable Settings := ⟨fun g s => { s with sentinel := across g s.sentinel }⟩

instance : Movable Engine := ⟨fun
  | g, .own settings => .own (across g settings)
  | _, .shared environment => .shared environment⟩

instance : Movable Taggable := ⟨fun g t =>
  { t with value := across g t.value, type := across g t.type, path := across g t.path }⟩

instance : Movable Operand := ⟨fun
  | _, .primitive p => .primitive p
  | g, .taggable t => .taggable (across g t)⟩

instance : Movable Form := ⟨fun
  | g, .binary lhs rhs => .binary (across g lhs) (across g rhs)
  | g, .unary operand => .unary (across g operand)
  | g, .step operand after => .step (across g operand) after⟩

instance : Movable Application := ⟨fun g a => { a with form := across g a.form }⟩

instance : Movable Decision := ⟨fun
  | g, .answer v outcome => .answer (across g v) outcome
  | _, .fallBack fallback typeName => .fallBack fallback typeName
  | _, .fail fault => .fail fault
  | g, .invoke f arguments use => .invoke f (across g arguments) use⟩

end Instances

/-! ## Values -/

namespace Value

variable (g : Gap) (v w : Value)

theorem address?_across : (across g v).address? = across g v.address? := by
  cases v <;> rfl

theorem function?_across : (across g v).function? = v.function? := by
  cases v <;> rfl

theorem key?_across : (across g v).key? = v.key? := by
  cases v <;> rfl

theorem same_across : (across g v).same (across g w) = v.same w := by
  cases v <;> cases w <;> first | rfl | exact g.shift_beq _ _

theorem identical_across : (across g v).identical (across g w) = v.identical w := by
  cases v <;> cases w <;> first | rfl | exact g.shift_beq _ _

theorem references_across : (across g v).references = across g v.references := by
  cases v <;> rfl

end Value

theorem getLastD_across (g : Gap) (vs : List Value) :
    (across g vs).getLast?.getD .null = across g (vs.getLast?.getD .null) := by
  show (vs.map (across g)).getLast?.getD .null = _
  rw [List.getLast?_map]
  cases vs.getLast? <;> rfl

theorem dropLast_across (g : Gap) (vs : List Value) :
    (across g vs).dropLast = across g vs.dropLast :=
  (List.map_dropLast ..).symm

theorem listIndex?_across (g : Gap) (length : Nat) (v : Value) :
    listIndex? length (across g v) = listIndex? length v := by
  cases v <;> rfl

/-! ## Maps -/

namespace OrderedMap

variable {κ α β : Type} [DecidableEq κ]

theorem insert_mapValues (f : α → β) (m : OrderedMap κ α) (k : κ) (v : α) :
    (m.mapValues f).insert k (f v) = (m.insert k v).mapValues f := by
  refine ext ?_
  show Entries.put k (f v) (m.entries.map _) = (Entries.put k v m.entries).map _
  induction m.entries with
  | nil => rfl
  | cons e es ih => by_cases h : e.1 = k <;> simp [Entries.put, h, ih]

theorem erase_mapValues (f : α → β) (m : OrderedMap κ α) (k : κ) :
    (m.mapValues f).erase k = (m.erase k).mapValues f := by
  refine ext ?_
  simp only [erase, mapValues, List.filter_map]
  rfl

theorem contains_mapValues (f : α → β) (m : OrderedMap κ α) (k : κ) :
    (m.mapValues f).contains k = m.contains k := by
  simp only [contains, get?_mapValues, Option.isSome_map]

theorem ofList_map (f : α → β) (es : List (κ × α)) :
    ofList (es.map fun e => (e.1, f e.2)) = (ofList es).mapValues f := by
  suffices ∀ m : OrderedMap κ α,
      (es.map fun e => (e.1, f e.2)).foldl (fun m e => m.insert e.1 e.2) (m.mapValues f) =
        (es.foldl (fun m e => m.insert e.1 e.2) m).mapValues f from this empty
  induction es with
  | nil => exact fun _ => rfl
  | cons e es ih =>
      intro m
      simp only [List.map_cons, List.foldl_cons, insert_mapValues, ih]

end OrderedMap

theorem entriesFrom_across (g : Gap) (keys : List String) (vs : List Value) :
    Action.entriesFrom keys (across g vs) = across g (Action.entriesFrom keys vs) := by
  have zipped : keys.zip (across g vs) = (keys.zip vs).map fun e => (e.1, across g e.2) := by
    show keys.zip (vs.map (across g)) = _
    rw [List.zip_map_right]
    rfl
  unfold Action.entriesFrom
  rw [zipped]
  exact OrderedMap.ofList_map (across g) (keys.zip vs)

/-! ## Heaps -/

/-- The same object on the two sides.  Readings may say what they like. -/
inductive Object.Matches (g : Gap) : Object → Object → Prop
  | inst (i : Instance) : Matches g (.inst i) (.inst (across g i))
  | typeDefinition (t : TypeDefinition) :
      Matches g (.typeDefinition t) (.typeDefinition (across g t))
  | registry (r : Registry) : Matches g (.registry r) (.registry r)
  | cell (v : Value) : Matches g (.cell v) (.cell (across g v))
  | list (vs : List Value) : Matches g (.list vs) (.list (across g vs))
  | dict (es : OrderedMap String Value) : Matches g (.dict es) (.dict (across g es))
  | reading (r r' : Reading) : Matches g (.reading r) (.reading r')

/-- The parent of a type definition. -/
def Object.parent? : Object → Option Address
  | .typeDefinition t => t.parent
  | .inst _ | .registry _ | .cell _ | .list _ | .dict _ | .reading _ => none

/-- Parents are older than their children. -/
def Heap.Older (h : Heap) : Prop :=
  ∀ a o p, h.get? a = some o → o.parent? = some p → p.index < a.index

namespace Heap.Older

variable {h : Heap} {o : Object}

theorem allocate (older : h.Older) (parent : ∀ p, o.parent? = some p → p.index < h.size) :
    (h.allocate o).2.Older := by
  intro a p q hp hq
  rw [get?_allocate] at hp
  split at hp
  · rename_i last
    cases hp
    rw [last]
    exact parent q hq
  · exact older a p q hp hq

theorem update (older : h.Older) (a : Address) (root : o.parent? = none) :
    (h.update a o).Older := by
  intro b p q hp hq
  rw [get?_update] at hp
  split at hp
  · cases hp
    rw [root] at hq
    cases hq
  · exact older b p q hp hq

end Heap.Older

/-- The second heap holds the objects of the first one on the other side of the gap. -/
structure Heap.Displaced (g : Gap) (h h' : Heap) : Prop where
  base : g.base ≤ h.size
  size : h'.size = h.size + g.width
  get? : ∀ a, Option.Rel (Object.Matches g) (h.get? a) (h'.get? (g.shift a))
  older : h.Older

namespace Heap.Displaced

variable {g : Gap} {h h' : Heap} {a : Address} {o o' : Object}

/-- What is at an address and what is at its place on the other side can be looked at
together. -/
@[elab_as_elim]
theorem lookup {motive : Option Object → Option Object → Prop} (moved : h.Displaced g h')
    (a : Address) (none : motive none none)
    (some : ∀ o o', o.Matches g o' → motive (some o) (some o')) :
    motive (h.get? a) (h'.get? (g.shift a)) := by
  have related := moved.get? a
  revert related
  generalize h.get? a = x
  generalize h'.get? (g.shift a) = y
  intro related
  cases related with
  | none => exact none
  | some matching => exact some _ _ matching

theorem exists_matching (moved : h.Displaced g h') (ho : h.get? a = some o) :
    ∃ o', h'.get? (g.shift a) = some o' ∧ o.Matches g o' := by
  have related := moved.get? a
  rw [ho] at related
  generalize h'.get? (g.shift a) = x at related
  obtain ⟨matching⟩ := related
  exact ⟨_, rfl, matching⟩

theorem shift_frontier (moved : h.Displaced g h') : g.shift ⟨h.size⟩ = ⟨h'.size⟩ :=
  (Gap.shift_of_le moved.base).trans (congrArg Address.mk moved.size.symm)

theorem index_shift_eq_iff (moved : h.Displaced g h') :
    (g.shift a).index = h'.size ↔ a.index = h.size := by
  have same := Gap.shift_inj (g := g) (a := a) (b := ⟨h.size⟩)
  rw [moved.shift_frontier] at same
  constructor
  · exact fun e => congrArg Address.index (same.mp (congrArg Address.mk e))
  · exact fun e => congrArg Address.index (same.mpr (congrArg Address.mk e))

theorem index_shift_lt_iff (moved : h.Displaced g h') :
    (g.shift a).index < h'.size ↔ a.index < h.size := by
  have base := moved.base
  have size := moved.size
  by_cases below : a.index < g.base
  · rw [Gap.shift_of_lt below]
    omega
  · rw [Gap.shift_of_le (Nat.not_lt.mp below), size]
    exact Nat.add_lt_add_iff_right

theorem allocate (moved : h.Displaced g h') (matching : o.Matches g o')
    (parent : ∀ p, o.parent? = some p → p.index < h.size) :
    (h.allocate o).2.Displaced g (h'.allocate o').2 where
  base := Nat.le_trans moved.base (by rw [size_allocate]; exact Nat.le_succ _)
  size := by rw [size_allocate, size_allocate, moved.size]; omega
  get? := by
    intro a
    rw [get?_allocate, get?_allocate]
    simp only [moved.index_shift_eq_iff]
    split
    · exact .some matching
    · exact moved.get? a
  older := moved.older.allocate parent

theorem update (moved : h.Displaced g h') (matching : o.Matches g o') (root : o.parent? = none) :
    (h.update a o).Displaced g (h'.update (g.shift a) o') where
  base := by rw [size_update]; exact moved.base
  size := by rw [size_update, size_update, moved.size]
  get? := by
    intro b
    rw [get?_update, get?_update]
    simp only [Gap.shift_inj, moved.index_shift_lt_iff]
    split
    · exact .some matching
    · exact moved.get? b
  older := moved.older.update a root

/-! ### Objects of one kind -/

theorem instanceAt? (moved : h.Displaced g h') (a : Address) :
    h'.instanceAt? (g.shift a) = across g (h.instanceAt? a) := by
  unfold Heap.instanceAt?
  refine moved.lookup a rfl fun o o' matching => ?_
  cases matching <;> rfl

theorem typeAt? (moved : h.Displaced g h') (a : Address) :
    h'.typeAt? (g.shift a) = across g (h.typeAt? a) := by
  unfold Heap.typeAt?
  refine moved.lookup a rfl fun o o' matching => ?_
  cases matching <;> rfl

theorem registryAt? (moved : h.Displaced g h') (a : Address) :
    h'.registryAt? (g.shift a) = h.registryAt? a := by
  unfold Heap.registryAt?
  refine moved.lookup a rfl fun o o' matching => ?_
  cases matching <;> rfl

theorem cellAt? (moved : h.Displaced g h') (a : Address) :
    h'.cellAt? (g.shift a) = across g (h.cellAt? a) := by
  unfold Heap.cellAt?
  refine moved.lookup a rfl fun o o' matching => ?_
  cases matching <;> rfl

variable (moved : h.Displaced g h') (v : Value)

include moved

theorem instanceOf? : h'.instanceOf? (across g v) = across g (h.instanceOf? v) := by
  cases v with
  | primitive | function => rfl
  | object a =>
      have found := moved.instanceAt? a
      show (h'.instanceAt? (g.shift a)).map _ = across g ((h.instanceAt? a).map _)
      rw [found]
      cases h.instanceAt? a <;> rfl

theorem typeOf? : h'.typeOf? (across g v) = across g (h.typeOf? v) := by
  cases v with
  | primitive | function => rfl
  | object a =>
      have found := moved.typeAt? a
      show (h'.typeAt? (g.shift a)).map _ = across g ((h.typeAt? a).map _)
      rw [found]
      cases h.typeAt? a <;> rfl

theorem registryOf? : h'.registryOf? (across g v) = across g (h.registryOf? v) := by
  cases v with
  | primitive | function => rfl
  | object a =>
      have found := moved.registryAt? a
      show (h'.registryAt? (g.shift a)).map _ = across g ((h.registryAt? a).map _)
      rw [found]
      cases h.registryAt? a <;> rfl

theorem cellOf? : h'.cellOf? (across g v) = across g (h.cellOf? v) := by
  cases v with
  | primitive | function => rfl
  | object a =>
      have found := moved.cellAt? a
      show (h'.cellAt? (g.shift a)).map _ = across g ((h.cellAt? a).map _)
      rw [found]
      cases h.cellAt? a <;> rfl

/-! ### Names and truth -/

theorem typeNameOf (i : Instance) : h'.typeNameOf (across g i) = h.typeNameOf i := by
  have found : (across g i).type.bind h'.typeAt? = across g (i.type.bind h.typeAt?) := by
    show (across g i.type).bind h'.typeAt? = _
    cases i.type with
    | none => rfl
    | some t => exact moved.typeAt? t
  unfold Heap.typeNameOf
  rw [found]
  cases i.type.bind h.typeAt? <;> rfl

theorem objectName (matching : o.Matches g o') : h'.objectName o' = h.objectName o := by
  cases matching with
  | inst i => exact moved.typeNameOf i
  | typeDefinition | registry | cell | list | dict | reading => rfl

omit moved in
theorem truthyObject (matching : o.Matches g o') : Heap.truthyObject o' = Heap.truthyObject o := by
  cases matching with
  | inst i =>
      show (!(i.fields.entries.map _).isEmpty) = !i.fields.entries.isEmpty
      rw [List.isEmpty_map]
  | list vs =>
      show (!(vs.map _).isEmpty) = !vs.isEmpty
      rw [List.isEmpty_map]
  | dict es =>
      show (!(es.entries.map _).isEmpty) = !es.entries.isEmpty
      rw [List.isEmpty_map]
  | typeDefinition | registry | cell | reading => rfl

theorem truthy : h'.truthy (across g v) = h.truthy v := by
  cases v with
  | primitive | function => rfl
  | object a =>
      show h'.truthy (Value.object (g.shift a)) = _
      unfold Heap.truthy
      dsimp only
      exact moved.lookup a rfl fun o o' matching => truthyObject matching

theorem kindName : h'.kindName (across g v) = h.kindName v := by
  cases v with
  | primitive p => cases p <;> rfl
  | function => rfl
  | object a =>
      show h'.kindName (Value.object (g.shift a)) = _
      unfold Heap.kindName
      dsimp only
      exact moved.lookup a rfl fun o o' matching => moved.objectName matching

/-! ### Chains -/

/-- A chain ends before its fuel does. -/
theorem chainFrom : ∀ (fuel fuel' : Nat) (a : Address), a.index < fuel → a.index < fuel' →
    h'.chainFrom fuel' (g.shift a) = across g (h.chainFrom fuel a) := by
  intro fuel
  induction fuel with
  | zero => intro _ _ hlt; exact absurd hlt (Nat.not_lt_zero _)
  | succ fuel ih =>
      intro fuel' a hlt hlt'
      obtain ⟨fuel', rfl⟩ := Nat.exists_eq_succ_of_ne_zero (Nat.ne_zero_of_lt hlt')
      simp only [Heap.chainFrom, moved.typeAt? a]
      cases ht : h.typeAt? a with
      | none => rfl
      | some t =>
          obtain ⟨name, parent, registry⟩ := t
          cases parent with
          | none => rfl
          | some p =>
              have older := moved.older a _ p (typeAt?_eq_some.mp ht) rfl
              show g.shift a :: h'.chainFrom fuel' (g.shift p) = _
              rw [ih fuel' p (by omega) (by omega)]
              rfl

theorem chain (a : Address) : h'.chain (g.shift a) = across g (h.chain a) :=
  moved.chainFrom _ _ a (Nat.lt_succ_self _) (Nat.lt_succ_of_le (g.le_shift a))

theorem isSubtype (a b : Address) : h'.isSubtype (g.shift a) (g.shift b) = h.isSubtype a b := by
  unfold Heap.isSubtype
  rw [moved.chain]
  exact g.contains_map_shift b _

theorem chainRegistries (chain : List Address) :
    h'.chainRegistries (across g chain) = across g (h.chainRegistries chain) := by
  induction chain with
  | nil => rfl
  | cons a chain ih =>
      show List.filterMap _ (g.shift a :: across g chain) = across g (List.filterMap _ (a :: chain))
      simp only [List.filterMap_cons, moved.typeAt? a]
      cases h.typeAt? a with
      | none => exact ih
      | some t => exact congrArg (List.cons _) ih

theorem lookupPath (i : Instance) : h'.lookupPath (across g i) = across g (h.lookupPath i) := by
  obtain ⟨type, fields, registry, readOnly⟩ := i
  have own : (across g registry).toList = registry.toList.map g.shift := by
    cases registry <;> rfl
  cases type with
  | none =>
      show (across g registry).toList ++ [] = (registry.toList ++ []).map g.shift
      rw [own, List.append_nil, List.append_nil]
  | some t =>
      show (across g registry).toList ++ h'.chainRegistries (h'.chain (g.shift t)) =
        (registry.toList ++ h.chainRegistries (h.chain t)).map g.shift
      rw [own, moved.chain, moved.chainRegistries, List.map_append]
      rfl

/-! ### Operands -/

theorem classify : h'.classify (across g v) = across g (h.classify v) := by
  cases v with
  | primitive | function => rfl
  | object a =>
      show h'.classify (Value.object (g.shift a)) = _
      unfold Heap.classify
      dsimp only
      refine moved.lookup a rfl fun o o' matching => ?_
      cases matching with
      | inst i =>
          refine congrArg Operand.taggable ?_
          rw [moved.typeNameOf, moved.lookupPath]
          rfl
      | typeDefinition | registry | cell | list | dict | reading => rfl

theorem handlerAt (s : Selector) (a : Address) :
    h'.handlerAt s (g.shift a) = h.handlerAt s a := by
  unfold Heap.handlerAt
  rw [moved.registryAt?]

theorem resolve (operand : Operand) (s : Selector) :
    h'.resolve (across g operand) s = h.resolve operand s := by
  cases operand with
  | primitive => rfl
  | taggable t =>
      show (t.path.map g.shift).findSome? (h'.handlerAt s) = t.path.findSome? (h.handlerAt s)
      rw [List.findSome?_map]
      exact congrArg (t.path.findSome? ·) (funext (moved.handlerAt s))

end Heap.Displaced

/-! ## Decisions -/

theorem nominallyCompatible_across (g : Gap) (lhs : Taggable) (rhs : Operand) :
    nominallyCompatible (across g lhs) (across g rhs) = nominallyCompatible lhs rhs := by
  cases rhs with
  | primitive => rfl
  | taggable rhs =>
      show ((across g lhs.type).isNone || across g rhs.type == across g lhs.type) =
        (lhs.type.isNone || rhs.type == lhs.type)
      cases lhs.type with
      | none => rfl
      | some t =>
          cases rhs.type with
          | none => rfl
          | some u => exact g.shift_beq u t

theorem Operand.typeName_across (g : Gap) (operand : Operand) :
    (across g operand).typeName = operand.typeName := by
  cases operand <;> rfl

namespace Decision

variable {g : Gap} {h h' : Heap} (moved : h.Displaced g h') (o : Operator) (lhs rhs : Value)

/-- An operator other than an equality where the left operand may carry handlers. -/
theorem binary_eq (h : Heap) (o : Operator) {lhs : Value} (hl : ∀ p, lhs ≠ .primitive p)
    (rhs : Value) :
    binary h o lhs rhs =
      match h.resolve (h.classify lhs) o.selector with
      | some f => .invoke f ⟨lhs, some rhs⟩ .answer
      | none => .fallBack o.category.fallback (h.classify lhs).typeName := by
  cases lhs with
  | primitive p => exact absurd rfl (hl p)
  | function | object => rfl

theorem unary_eq (h : Heap) (o : Operator) {operand : Value}
    (hv : ∀ p, operand ≠ .primitive p) (native : Primitive → Primitive) (use : Use) :
    unary h o operand native use =
      match h.resolve (h.classify operand) o.selector with
      | some f => .invoke f ⟨operand, none⟩ use
      | none => .fallBack o.category.fallback (h.classify operand).typeName := by
  cases operand with
  | primitive p => exact absurd rfl (hv p)
  | function | object => rfl

theorem ofNative_across (g : Gap) (c : Category) (typeName : String)
    (result : Primitive → Primitive) (r : Except NativeFault Primitive) :
    across g (ofNative c typeName result r) = ofNative c typeName result r := by
  unfold ofNative
  split <;> rfl

include moved

theorem equality_across :
    equality h' (across g lhs) (across g rhs) = across g (equality h lhs rhs) := by
  unfold equality
  rw [Value.identical_across, moved.classify, moved.resolve]
  split
  · rfl
  · cases h.resolve (h.classify lhs) .equals with
    | some f => rfl
    | none => cases lhs <;> cases rhs <;> rfl

theorem derivedEquality_across :
    derivedEquality h' (across g lhs) (across g rhs) = across g (derivedEquality h lhs rhs) := by
  unfold derivedEquality
  rw [moved.classify, moved.classify, moved.resolve]
  cases h.classify lhs with
  | primitive => cases lhs <;> cases rhs <;> rfl
  | taggable left =>
      cases h.resolve (.taggable left) .equals with
      | none => cases lhs <;> cases rhs <;> rfl
      | some f =>
          show (if nominallyCompatible (across g left) (across g (h.classify rhs)) then _
            else _) = _
          rw [nominallyCompatible_across]
          dsimp only
          split <;> rfl

theorem strictEquality_across :
    strictEquality h' (across g lhs) (across g rhs) = across g (strictEquality h lhs rhs) := by
  unfold strictEquality
  rw [Value.identical_across, moved.classify, moved.resolve, derivedEquality_across moved]
  split
  · rfl
  · cases h.resolve (h.classify lhs) .strictEquals <;> rfl

/-- An operator on two operands that are not both primitives. -/
theorem binary_across :
    binary h' o (across g lhs) (across g rhs) = across g (binary h o lhs rhs) := by
  have asked (hl : ∀ p, lhs ≠ .primitive p) (hl' : ∀ p, across g lhs ≠ .primitive p) :
      binary h' o (across g lhs) (across g rhs) = across g (binary h o lhs rhs) := by
    rw [binary_eq h o hl, binary_eq h' o hl', moved.classify, moved.resolve,
      Operand.typeName_across]
    cases h.resolve (h.classify lhs) o.selector <;> rfl
  cases lhs with
  | primitive p =>
      cases rhs with
      | primitive q => exact (ofNative_across _ _ _ _ _).symm
      | function | object => rfl
  | function | object => exact asked (by rintro _ ⟨⟩) (by rintro _ ⟨⟩)

theorem unary_across (operand : Value) (native : Primitive → Primitive) (use : Use) :
    unary h' o (across g operand) native use = across g (unary h o operand native use) := by
  have asked (hv : ∀ p, operand ≠ .primitive p) (hv' : ∀ p, across g operand ≠ .primitive p) :
      unary h' o (across g operand) native use = across g (unary h o operand native use) := by
    rw [unary_eq h o hv, unary_eq h' o hv', moved.classify, moved.resolve,
      Operand.typeName_across]
    cases h.resolve (h.classify operand) o.selector <;> rfl
  cases operand with
  | primitive p => exact (ofNative_across _ _ _ _ _).symm
  | function | object => exact asked (by rintro _ ⟨⟩) (by rintro _ ⟨⟩)

end Decision

theorem stepNative_across (g : Gap) (after : Bool) (operand : Value) :
    stepNative after (across g operand) = stepNative after operand := by
  cases operand <;> rfl

namespace Application

variable {g : Gap} {h h' : Heap}

/-- The two sides decide alike. -/
theorem decide_across (moved : h.Displaced g h') (a : Application) :
    (across g a).decide h' = across g (a.decide h) := by
  obtain ⟨o, form⟩ := a
  cases form with
  | binary lhs rhs =>
      obtain ⟨literal, arity, selector, description, negated⟩ := o
      cases selector with
      | equals => exact Decision.equality_across moved lhs rhs
      | strictEquals => exact Decision.strictEquality_across moved lhs rhs
      | _ => exact Decision.binary_across moved _ lhs rhs
  | unary operand => exact Decision.unary_across moved o operand _ _
  | step operand after =>
      show Decision.unary h' o (across g operand) (stepNative after (across g operand)) _ = _
      rw [stepNative_across, Decision.unary_across moved]
      rfl

end Application

end OperatorDispatch
