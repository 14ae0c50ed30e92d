import OperatorDispatch.Proofs.Copy
import OperatorDispatch.Proofs.Descriptions
import OperatorDispatch.Proofs.Displacement

/-!
# Copies and descriptions across a gap

The engine follows references in two places, to find what has to be copied and to
describe a value.  Both searches take their fuel from the size of the heap, and the
two sides of a gap are of different sizes.  So the searches are compared at one and
the same fuel first, where they go in step; more of it than enough does not matter, in a
closure by the references still to be followed (`closureFrom_add`), in a description by
the objects that it is not inside of yet (`Heap.describeFrom_congr`).
-/

namespace OperatorDispatch

namespace Heap

variable {h : Heap}

/-! ## Fuel of a closure -/

/-- More fuel than enough makes no difference. -/
theorem closureFrom_add (h : Heap) (more : Nat) :
    ∀ (fuel : Nat) (pending seen : List Address), pending.length + h.unseen seen < fuel →
      h.closureFrom (fuel + more) pending seen = h.closureFrom fuel pending seen := by
  intro fuel
  induction fuel with
  | zero => intro _ _ enough; exact absurd enough (Nat.not_lt_zero _)
  | succ fuel ih =>
      intro pending seen enough
      rw [Nat.succ_add]
      cases pending with
      | nil => rfl
      | cons a pending =>
          simp only [List.length_cons] at enough
          simp only [closureFrom]
          cases ho : h.copied? a with
          | none => exact ih _ _ (by omega)
          | some o =>
              dsimp only
              split
              · exact ih _ _ (by omega)
              · rename_i new
                have weight := unseen_append (copied?_eq_some.mp ho).1 (by simpa using new)
                exact ih _ _ (by simp only [List.length_append]; omega)

theorem closure_eq_closureFrom (h : Heap) (roots : List Address) (more : Nat) :
    h.closure roots = h.closureFrom (roots.length + h.referenceCount + 1 + more) roots [] := by
  refine (closureFrom_add h more _ roots [] ?_).symm
  rw [unseen_nil]
  exact Nat.lt_succ_self _

end Heap

instance : Movable Nesting := ⟨fun g n => ⟨across g n.guarded, across g n.unguarded⟩⟩

/-! ## Renaming on both sides -/

theorem flatMap_references_across (g : Gap) (vs : List Value) :
    (across g vs).flatMap Value.references = across g (vs.flatMap Value.references) := by
  induction vs with
  | nil => rfl
  | cons v vs ih =>
      show (across g v).references ++ (across g vs).flatMap Value.references =
        List.map g.shift (v.references ++ _)
      rw [ih, Value.references_across, List.map_append]
      rfl

theorem fieldReferences_across (g : Gap) (m : OrderedMap String Value) :
    (across g m).values.flatMap Value.references =
      across g (m.values.flatMap Value.references) := by
  rw [← flatMap_references_across]
  exact congrArg (List.flatMap Value.references) (OrderedMap.values_mapValues (across g) m)

namespace Object.Matches

variable {g : Gap} {o o' : Object}

theorem references (matching : o.Matches g o') : o'.references = across g o.references := by
  cases matching with
  | inst i =>
      show (across g i.fields).values.flatMap _ ++ (across g i.registry).toList =
        List.map g.shift (i.fields.values.flatMap _ ++ i.registry.toList)
      rw [fieldReferences_across, List.map_append]
      cases i.registry <;> rfl
  | cell v => exact Value.references_across g v
  | list vs => exact flatMap_references_across g vs
  | dict es => exact fieldReferences_across g es
  | typeDefinition | registry | reading => rfl

theorem isCopied (matching : o.Matches g o') : o'.isCopied = o.isCopied := by
  cases matching <;> rfl

variable {φ φ' : Address → Address} (step : ∀ a, φ' (g.shift a) = g.shift (φ a))

include step

theorem rename_value (v : Value) : (across g v).rename φ' = across g (v.rename φ) := by
  cases v with
  | primitive | function => rfl
  | object a => exact congrArg Value.object (step a)

theorem rename_map {κ : Type} (m : OrderedMap κ Value) :
    (across g m).mapValues (Value.rename φ') = across g (m.mapValues (Value.rename φ)) := by
  refine OrderedMap.ext ?_
  show (m.entries.map _).map _ = (m.entries.map _).map _
  rw [List.map_map, List.map_map]
  exact List.map_congr_left fun e _ => congrArg (Prod.mk e.1) (rename_value step e.2)

/-- Renaming on one side is renaming in step on the other. -/
theorem rename (matching : o.Matches g o') : (o.rename φ).Matches g (o'.rename φ') := by
  cases matching with
  | inst i =>
      have registry : (across g i.registry).map φ' = across g (i.registry.map φ) := by
        cases i.registry with
        | none => rfl
        | some r => exact congrArg some (step r)
      have same : (Object.inst (across g i)).rename φ' = .inst (across g { i with
          fields := i.fields.mapValues (Value.rename φ), registry := i.registry.map φ }) := by
        show Object.inst ⟨across g i.type, (across g i.fields).mapValues _,
          (across g i.registry).map φ', i.readOnly⟩ = _
        rw [rename_map step, registry]
        rfl
      rw [same]
      exact .inst _
  | cell v =>
      show Matches g (.cell (v.rename φ)) (.cell ((across g v).rename φ'))
      rw [rename_value step]
      exact .cell _
  | list vs =>
      have same : (across g vs).map (Value.rename φ') = across g (vs.map (Value.rename φ)) := by
        show (vs.map _).map _ = (vs.map _).map _
        rw [List.map_map, List.map_map]
        exact List.map_congr_left fun v _ => rename_value step v
      show Matches g (.list (vs.map _)) (.list ((across g vs).map _))
      rw [same]
      exact .list _
  | dict es =>
      show Matches g (.dict (es.mapValues _)) (.dict ((across g es).mapValues _))
      rw [rename_map step]
      exact .dict _
  | typeDefinition t => exact .typeDefinition t
  | registry r => exact .registry r
  | reading r r' => exact .reading r r'

end Object.Matches

namespace Heap.Displaced

variable {g : Gap} {h h' : Heap} (moved : h.Displaced g h')

include moved

/-! ## Closures -/

theorem closureFrom (fuel : Nat) : ∀ pending seen : List Address,
    h'.closureFrom fuel (across g pending) (across g seen) =
      across g (h.closureFrom fuel pending seen) := by
  induction fuel with
  | zero => exact fun _ _ => rfl
  | succ fuel ih =>
      intro pending seen
      cases pending with
      | nil => rfl
      | cons a pending =>
          show Heap.closureFrom h' (fuel + 1) (g.shift a :: across g pending) _ = _
          simp only [Heap.closureFrom, copied?]
          refine moved.lookup a (ih pending seen) fun o o' matching => ?_
          have contained : (across g seen).contains (g.shift a) = seen.contains a :=
            g.contains_map_shift a seen
          have pushed : o'.references ++ across g pending = across g (o.references ++ pending) := by
            rw [matching.references]
            exact List.map_append.symm
          have noted : across g seen ++ [g.shift a] = across g (seen ++ [a]) := by
            show _ = List.map g.shift (seen ++ [a])
            rw [List.map_append]
            rfl
          dsimp only
          rw [matching.isCopied, contained, noted]
          cases o.isCopied with
          | false => exact ih pending seen
          | true =>
              simp only [if_true, pushed]
              split
              · exact ih pending seen
              · exact ih _ _

theorem closure (roots : List Address) :
    h'.closure (across g roots) = across g (h.closure roots) := by
  -- both searches with the fuel of the two together
  have fuel := Nat.add_comm ((across g roots).length + h'.referenceCount + 1)
    (roots.length + h.referenceCount + 1)
  rw [closure_eq_closureFrom h' _ (roots.length + h.referenceCount + 1), fuel,
    closure_eq_closureFrom h _ ((across g roots).length + h'.referenceCount + 1)]
  exact moved.closureFrom _ roots []

/-! ## Clones -/

theorem cloneAddress (cloned : List Address) (a : Address) :
    Heap.cloneAddress h'.size (across g cloned) (g.shift a) =
      g.shift (Heap.cloneAddress h.size cloned a) := by
  have position : (cloned.map g.shift).idxOf (g.shift a) = cloned.idxOf a := by
    induction cloned with
    | nil => rfl
    | cons b cloned ih => simp only [List.map_cons, List.idxOf_cons, g.shift_beq, ih]
  show (if (cloned.map g.shift).contains (g.shift a) then _ else _) = _
  rw [g.contains_map_shift]
  unfold Heap.cloneAddress
  split
  · rw [Gap.shift_of_le (Nat.le_trans moved.base (Nat.le_add_right _ _))]
    show (⟨h'.size + (cloned.map g.shift).idxOf (g.shift a)⟩ : Address) = ⟨_⟩
    rw [position, moved.size, Nat.add_right_comm]
  · rfl

theorem clones (cloned : List Address) :
    List.Forall₂ (Object.Matches g) (h.clones cloned) (h'.clones (across g cloned)) := by
  have step := moved.cloneAddress cloned
  unfold Heap.clones
  generalize Heap.cloneAddress h.size cloned = φ at step
  generalize Heap.cloneAddress h'.size (across g cloned) = φ' at step
  induction cloned with
  | nil => exact .nil
  | cons a cloned ih =>
      show List.Forall₂ _ (List.filterMap _ (a :: cloned))
        (List.filterMap _ (g.shift a :: across g cloned))
      simp only [List.filterMap_cons]
      refine moved.lookup a ih fun o o' matching => ?_
      exact .cons (matching.rename step) ih

/-- The fields of a snapshot, and what has to come with them. -/
theorem cloneFields (fields : OrderedMap String Value) :
    (h'.cloneFields (across g fields)).1 = across g (h.cloneFields fields).1 ∧
      List.Forall₂ (Object.Matches g) (h.cloneFields fields).2
        (h'.cloneFields (across g fields)).2 := by
  have cloned : h'.closure ((across g fields).values.flatMap Value.references) =
      across g (h.closure (fields.values.flatMap Value.references)) := by
    rw [fieldReferences_across, moved.closure]
  unfold Heap.cloneFields
  dsimp only
  rw [cloned]
  exact ⟨Object.Matches.rename_map (moved.cloneAddress _) fields, moved.clones _⟩

theorem extend {os os' : List Object} (matching : List.Forall₂ (Object.Matches g) os os')
    (roots : ∀ o ∈ os, o.parent? = none) : (h.extend os).Displaced g (h'.extend os') := by
  have one (h : Heap) (o : Object) (os : List Object) :
      h.extend (o :: os) = (h.allocate o).2.extend os := by
    simp [Heap.extend, Heap.allocate]
  have none (h : Heap) : h.extend [] = h := by simp [Heap.extend]
  induction matching generalizing h h' with
  | nil =>
      rw [none, none]
      exact moved
  | @cons o o' os os' first rest ih =>
      rw [one, one]
      refine ih (moved.allocate first ?_) fun p hp => roots p (List.mem_cons_of_mem _ hp)
      intro p hp
      rw [roots o List.mem_cons_self] at hp
      cases hp

/-! ## Descriptions -/

omit moved in
theorem mapM_map {α β γ : Type} {f : α → β} {F : α → Except NativeFault γ}
    {F' : β → Except NativeFault γ} {l : List α} (same : ∀ x ∈ l, F' (f x) = F x) :
    (l.map f).mapM F' = l.mapM F := by
  induction l with
  | nil => rfl
  | cons x l ih =>
      simp only [List.map_cons, List.mapM_cons, same x List.mem_cons_self,
        ih fun y hy => same y (List.mem_cons_of_mem _ hy)]

/-- Objects are described alike where their contents are. -/
theorem describeObject {o o' : Object} {content content' : Value → Except NativeFault String}
    (same : ∀ v, content' (across g v) = content v) (matching : o.Matches g o') :
    h'.describeObject content' o' = h.describeObject content o := by
  have entries (m : OrderedMap String Value) (F : String → String → String) :
      (across g m).entries.mapM (fun e => (content' e.2).map (F e.1)) =
        m.entries.mapM fun e => (content e.2).map (F e.1) :=
    mapM_map fun e _ => congrArg (Except.map (F e.1)) (same e.2)
  cases matching with
  | inst i =>
      simp only [Heap.describeObject, moved.typeNameOf]
      exact congrArg (· >>= _) (entries i.fields fun k s => k ++ "=" ++ s)
  | cell v => simp only [Heap.describeObject, same]
  | list vs =>
      simp only [Heap.describeObject]
      exact congrArg (· >>= _) (mapM_map fun v _ => same v)
  | dict es =>
      simp only [Heap.describeObject]
      exact congrArg (· >>= _) (entries es fun k s => quoted k ++ ": " ++ s)
  | typeDefinition t =>
      have found : (across g t).parent.bind h'.typeAt? = across g (t.parent.bind h.typeAt?) := by
        show (across g t.parent).bind h'.typeAt? = _
        cases t.parent with
        | none => rfl
        | some p => exact moved.typeAt? p
      simp only [Heap.describeObject, found]
      cases t.parent.bind h.typeAt? <;> rfl
  | registry | reading => simp only [Heap.describeObject]

/-- At one depth, descriptions go in step. -/
theorem describeFrom (depth : Nat) : ∀ (n : Nesting) (v : Value),
    h'.describeFrom depth (across g n) (across g v) = h.describeFrom depth n v := by
  induction depth with
  | zero => intro n v; cases v <;> rfl
  | succ depth ih =>
      intro n v
      cases v with
      | primitive p =>
          show Heap.describeFrom h' (depth + 1) _ (.primitive p) = _
          simp only [Heap.describeFrom]
      | function f =>
          show Heap.describeFrom h' (depth + 1) _ (.function f) = _
          simp only [Heap.describeFrom]
      | object a =>
          show Heap.describeFrom h' (depth + 1) _ (.object (g.shift a)) = _
          have guarded : (across g n).guarded.contains (g.shift a) = n.guarded.contains a :=
            g.contains_map_shift a n.guarded
          have unguarded : (across g n).unguarded.contains (g.shift a) = n.unguarded.contains a :=
            g.contains_map_shift a n.unguarded
          simp only [Heap.describeFrom, guarded, unguarded]
          refine moved.lookup a rfl fun o o' matching => ?_
          have dots : o'.dots? = o.dots? := by cases matching <;> rfl
          have same (n : Nesting) := moved.describeObject (ih n) matching
          simp only [dots]
          cases o.dots? with
          | some text =>
              dsimp only
              split
              · rfl
              · exact same ⟨a :: n.guarded, []⟩
          | none =>
              dsimp only
              split
              · rfl
              · exact same ⟨n.guarded, a :: n.unguarded⟩

theorem describe (v : Value) : h'.describe (across g v) = h.describe v := by
  have wider : (h.size + 1) * (h.size + 1) ≤ (h'.size + 1) * (h'.size + 1) := by
    have size := moved.size
    exact Nat.mul_le_mul (by omega) (by omega)
  have enough := h.room_nil_lt
  exact (moved.describeFrom _ ⟨[], []⟩ v).trans
    (describeFrom_congr _ _ v (nests_nil h) (Nat.lt_of_lt_of_le enough wider) enough)

theorem plainText (v : Value) : h'.plainText (across g v) = h.plainText v := by
  cases v with
  | primitive p => rfl
  | function f => exact moved.describe (.function f)
  | object a => exact moved.describe (.object a)

theorem joinText (v : Value) : h'.joinText (across g v) = h.joinText v := by
  cases v with
  | primitive p => rfl
  | function f => exact moved.describe (.function f)
  | object a => exact moved.describe (.object a)

theorem keyText (key : Value) : h'.keyText (across g key) = h.keyText key := by
  rw [Heap.keyText, Heap.keyText, moved.plainText]

end Heap.Displaced

end OperatorDispatch
