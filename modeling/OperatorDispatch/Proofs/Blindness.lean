import OperatorDispatch.Proofs.Alike
import OperatorDispatch.Proofs.Plain

/-!
# What never looks at the ledger

Whatever does not dispatch is blind to the ledger: containers, definitions and
snapshots, inspection, native operations and the operator tables.  All but the
operator tables are plain, and a plain action is blind because its parts are.
Dispatches, which write to the ledger, are the subject of `Observation`.
-/

namespace OperatorDispatch
namespace Action

variable {spans : Prop}

theorem Plain.blind {α : Type} {m : Action α} (hm : Plain m) : Blind spans m := by
  induction hm with
  | pure x => exact blind_pure x
  | throw e => exact blind_throw e
  | heap => exact blind_heap
  | allocate => exact blind_allocate _
  | write a => exact blind_write a _
  | extend => exact blind_extend _
  | log => exact blind_log _
  | bind _ _ first rest => exact blind_bind first rest

theorem blind_newObject (o : Object) : Blind spans (newObject o) :=
  blind_bind (blind_allocate o) fun _ => blind_pure _

theorem blind_container (c : ContainerCommand) (vs : List Value) : Blind spans (container c vs) :=
  (plain_container c vs).blind

theorem blind_snapshot (i : Instance) : Blind spans (snapshot i) :=
  (plain_snapshot i).blind

theorem blind_definition (c : DefinitionCommand) (vs : List Value) :
    Blind spans (definition c vs) :=
  (plain_definition c vs).blind

theorem blind_inspection (c : InspectionCommand) (vs : List Value) :
    Blind spans (inspection c vs) :=
  (plain_inspection c vs).blind

theorem blind_native (sel : Selector) (vs : List Value) : Blind spans (native sel vs) :=
  (plain_native sel vs).blind

theorem blind_registerOperator (o : Operator) : Blind spans (registerOperator o) := by
  intro s s' hs
  have read : ∀ u, (get : Action State) u = .ok u u := fun _ => rfl
  unfold registerOperator
  rw [bind_ok (read s), bind_ok (read s'), hs.operators]
  cases s.operators.register? o with
  | some t => exact blind_setOperators t s s' hs
  | none => exact blind_raise _ s s' hs

end Action

end OperatorDispatch
