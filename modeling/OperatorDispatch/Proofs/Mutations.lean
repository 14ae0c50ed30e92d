import OperatorDispatch.Command
import OperatorDispatch.Proofs.Actions
import OperatorDispatch.Proofs.Objects

/-!
# Mutations of an instance

Seven operations change the fields of an instance: one field is set, deleted or
popped, the first one is popped, all are cleared, one is set where it is
missing, and many are merged in.  They look up first, and come down to binding
and dropping single fields.

The `plan` of a mutation says from the fields alone which fields it binds and
drops, in which order, and what it hands back.  On a writable instance a
mutation carries out its plan, and nothing else (`Mutation.run_writable`).
-/

namespace OperatorDispatch

/-! ## Writes -/

/-- A write to one field. -/
inductive FieldWrite where
  | bind (key : String) (v : Value)
  | drop (key : String)

namespace FieldWrite

def apply (fields : OrderedMap String Value) : FieldWrite → OrderedMap String Value
  | bind k v => fields.insert k v
  | drop k => fields.erase k

/-- The writes one after the other. -/
def applyAll (ws : List FieldWrite) (fields : OrderedMap String Value) :
    OrderedMap String Value :=
  ws.foldl apply fields

variable {ws : List FieldWrite} {w : FieldWrite} {fields : OrderedMap String Value}

@[simp] theorem applyAll_nil : applyAll [] fields = fields :=
  rfl

@[simp] theorem applyAll_cons : applyAll (w :: ws) fields = applyAll ws (apply fields w) :=
  rfl

end FieldWrite

/-! ## Plans -/

/-- What a mutation hands back. -/
inductive Answer where
  | value (v : Value)
  /-- A new pair of a key and its value. -/
  | entry (key : String) (v : Value)
  | fault (fault : Fault)

def Answer.give : Answer → Action Value
  | value v => pure v
  | entry k v => Action.newObject (.list [.text k, v])
  | fault f => Action.raise f

/-- What a mutation is going to write, and what it hands back then. -/
structure Plan where
  writes : List FieldWrite
  answer : Answer

inductive Mutation where
  | set (key : String) (v : Value)
  | delete (key : String)
  | pop (key : String) (default : Option Value)
  | popItem
  | clear
  | setDefault (key : String) (default : Value)
  | merge (source : Value)

/-- The entries of a map or the fields of an instance. -/
def Heap.entries? (h : Heap) (v : Value) : Option (List (String × Value)) :=
  match v.address?.bind h.get? with
  | some (.inst i) => some i.fields.entries
  | some (.dict es) => some es.entries
  | _ => none

namespace Mutation

/-- The mutation of what a value is. -/
def run : Mutation → Value → Action Value
  | set k v, o => Action.container .set [o, .text k, v]
  | delete k, o => Action.container .delete [o, .text k]
  | pop k default, o => Action.container .pop ([o, .text k] ++ default.toList)
  | popItem, o => Action.container .popItem [o]
  | clear, o => Action.container .clear [o]
  | setDefault k default, o => Action.container .setDefault [o, .text k, default]
  | merge source, o => Action.container .merge [o, source]

theorem run_pop (k : String) (default : Option Value) (o : Value) (s : State) :
    (pop k default).run o s = Action.popField o (.text k) default s := by
  cases default <;> rfl

/-- The plan of a mutation of an instance with the given fields. -/
def plan (h : Heap) (fields : OrderedMap String Value) : Mutation → Plan
  | set k v => ⟨[.bind k v], .value .null⟩
  | delete k =>
    if fields.contains k then ⟨[.drop k], .value .null⟩ else ⟨[], .fault (.missingKey (.legible k))⟩
  | pop k default =>
    match fields.get? k, default with
    | some v, _ => ⟨[.drop k], .value v⟩
    | none, some d => ⟨[], .value d⟩
    | none, none => ⟨[], .fault (.missingKey (.legible k))⟩
  | popItem =>
    match fields.entries with
    | [] => ⟨[], .fault .emptyMapping⟩
    | (k, v) :: _ => ⟨[.drop k], .entry k v⟩
  | clear => ⟨fields.keys.map .drop, .value .null⟩
  | setDefault k default =>
    match fields.get? k with
    | some v => ⟨[], .value v⟩
    | none => ⟨[.bind k default], .value default⟩
  | merge source =>
    match h.entries? source with
    | some es => ⟨es.map fun e => .bind e.1 e.2, .value .null⟩
    | none => ⟨[], .fault .unusable⟩

section

variable {h : Heap} {fields : OrderedMap String Value} {k : String} {v : Value}

theorem plan_pop_there (there : fields.get? k = some v) (default : Option Value) :
    (pop k default).plan h fields = ⟨[.drop k], .value v⟩ := by
  simp only [plan, there]

theorem plan_pop_missing (missing : fields.get? k = none) :
    (pop k none).plan h fields = ⟨[], .fault (.missingKey (.legible k))⟩ := by
  simp only [plan, missing]

theorem plan_pop_default (missing : fields.get? k = none) (default : Value) :
    (pop k (some default)).plan h fields = ⟨[], .value default⟩ := by
  simp only [plan, missing]

end

end Mutation

/-! ## Writing over what was written -/

namespace Heap

variable {h : Heap} {a : Address} {o o' : Object}

theorem ext_get? {h h' : Heap} (same : ∀ b, h'.get? b = h.get? b) : h' = h := by
  obtain ⟨objects⟩ := h
  obtain ⟨objects'⟩ := h'
  exact congrArg Heap.mk (Array.ext_getElem? fun n => same ⟨n⟩)

theorem update_self (ho : h.get? a = some o) : h.update a o = h := by
  refine ext_get? fun b => ?_
  rw [get?_update]
  split
  · rename_i here
    rw [← here.1, ho]
  · rfl

theorem update_update : (h.update a o).update a o' = h.update a o' := by
  refine ext_get? fun b => ?_
  rw [get?_update, get?_update, get?_update, size_update]
  split <;> simp_all

end Heap

namespace State

variable {s : State} {a : Address} {i : Instance}

/-- The state with other fields in an instance. -/
def withFields (s : State) (a : Address) (i : Instance) (fields : OrderedMap String Value) :
    State :=
  { s with heap := s.heap.update a (.inst { i with fields }) }

theorem withFields_get? (hi : s.heap.get? a = some (.inst i)) (fields : OrderedMap String Value) :
    (s.withFields a i fields).heap.get? a = some (.inst { i with fields }) :=
  Heap.get?_update_self hi

theorem withFields_self (hi : s.heap.get? a = some (.inst i)) :
    s.withFields a i i.fields = s := by
  rw [withFields, Heap.update_self hi]

theorem withFields_withFields (fields fields' : OrderedMap String Value) :
    (s.withFields a i fields).withFields a { i with fields } fields' =
      s.withFields a i fields' := by
  simp only [withFields, Heap.update_update]

end State

namespace Action

variable {s : State} {a : Address} {i : Instance} {k : String} {v : Value}
  {fields : OrderedMap String Value}

/-! ## Single fields -/

section There

variable (hi : s.heap.get? a = some (.inst i))
include hi

theorem instanceOf_eq : instanceOf (.object a) s = .ok (a, i) s := by
  have found := Heap.instanceOf?_eq_some.mpr ⟨rfl, hi⟩
  simp only [instanceOf, bind, EStateM.bind, heap, found, demand_some]

theorem objectOf_eq : objectOf (.object a) s = .ok (a, .inst i) s := by
  simp only [objectOf, bind, EStateM.bind, heap, Value.address?, hi, demand_some]
  rfl

omit hi in
theorem writeFields_writable (open_ : i.readOnly = false) :
    writeFields a i fields s = .ok () (s.withFields a i fields) := by
  rw [writeFields, if_neg (by simp [open_])]
  rfl

theorem setField_writable (open_ : i.readOnly = false) :
    setField (.object a) k v s = .ok () (s.withFields a i (i.fields.insert k v)) := by
  rw [setField, bind_ok (instanceOf_eq hi)]
  exact writeFields_writable open_

theorem setField_readOnly (closed : i.readOnly = true) :
    setField (.object a) k v s = .error (.raised (.readOnly (s.heap.typeNameOf i))) s := by
  rw [setField, bind_ok (instanceOf_eq hi)]
  simp only [writeFields, if_pos closed]
  rfl

theorem deleteField_writable (open_ : i.readOnly = false) (there : i.fields.contains k = true) :
    deleteField (.object a) (.text k) s = .ok () (s.withFields a i (i.fields.erase k)) := by
  rw [deleteField, bind_ok (instanceOf_eq hi)]
  simp only [if_neg (show ¬ i.readOnly = true by simp [open_]), Value.text, Value.key?,
    if_pos there]
  exact writeFields_writable open_

theorem deleteField_missing (open_ : i.readOnly = false) (missing : i.fields.contains k = false) :
    deleteField (.object a) (.text k) s = .error (.raised (.missingKey (.legible k))) s := by
  rw [deleteField, bind_ok (instanceOf_eq hi)]
  simp only [if_neg (show ¬ i.readOnly = true by simp [open_]), Value.text, Value.key?, missing]
  rfl

/-- The refusal comes before the look-up. -/
theorem deleteField_readOnly (closed : i.readOnly = true) (key : Value) :
    deleteField (.object a) key s = .error (.raised (.readOnly (s.heap.typeNameOf i))) s := by
  rw [deleteField, bind_ok (instanceOf_eq hi)]
  simp only [if_pos closed]
  rfl

theorem setItem_eq (key : String) (v : Value) :
    setItem (.object a) (.text key) v s = setField (.object a) key v s := by
  rw [setItem, bind_ok (objectOf_eq hi)]
  rfl

theorem deleteItem_eq (key : Value) :
    deleteItem (.object a) key s = deleteField (.object a) key s := by
  rw [deleteItem, bind_ok (objectOf_eq hi)]

/-! ## Look-ups first -/

theorem popField_there (default : Option Value) (there : i.fields.get? k = some v) :
    popField (.object a) (.text k) default s =
      (do deleteField (.object a) (.text k); return v : Action Value) s := by
  rw [popField, bind_ok (instanceOf_eq hi)]
  simp only [Value.text, Value.key?, Option.bind_some, there]

theorem popField_missing (missing : i.fields.get? k = none) :
    popField (.object a) (.text k) none s = .error (.raised (.missingKey (.legible k))) s := by
  rw [popField, bind_ok (instanceOf_eq hi)]
  simp only [Value.text, Value.key?, Option.bind_some, missing]
  rfl

theorem popField_default (missing : i.fields.get? k = none) (default : Value) :
    popField (.object a) (.text k) (some default) s = .ok default s := by
  rw [popField, bind_ok (instanceOf_eq hi)]
  simp only [Value.text, Value.key?, Option.bind_some, missing]
  rfl

theorem popFirst_empty (empty : i.fields.entries = []) :
    popFirst (.object a) s = .error (.raised .emptyMapping) s := by
  rw [popFirst, bind_ok (instanceOf_eq hi)]
  simp only [empty]
  rfl

theorem popFirst_head {es : List (String × Value)} (entries : i.fields.entries = (k, v) :: es) :
    popFirst (.object a) s =
      (do deleteField (.object a) (.text k); return (k, v) : Action (String × Value)) s := by
  rw [popFirst, bind_ok (instanceOf_eq hi)]
  simp only [entries]

theorem setDefault_there (there : i.fields.get? k = some v) (default : Value) :
    setDefault (.object a) (.text k) default s = .ok v s := by
  rw [setDefault, bind_ok (instanceOf_eq hi)]
  simp only [Value.text, Value.key?, there]
  rfl

theorem setDefault_missing (missing : i.fields.get? k = none) (default : Value) :
    setDefault (.object a) (.text k) default s =
      (do setField (.object a) k default; return default : Action Value) s := by
  rw [setDefault, bind_ok (instanceOf_eq hi)]
  simp only [Value.text, Value.key?, missing]

end There

/-! ## Many fields -/

theorem setFields_writable : ∀ {es : List (String × Value)} {s : State} {i : Instance},
    s.heap.get? a = some (.inst i) → i.readOnly = false →
      setFields (.object a) es s = .ok () (s.withFields a i
        (FieldWrite.applyAll (es.map fun e => .bind e.1 e.2) i.fields))
  | [], s, i, hi, _ => by
      rw [List.map_nil, FieldWrite.applyAll_nil, State.withFields_self hi]
      rfl
  | (k, v) :: es, s, i, hi, open_ => by
      have written := State.withFields_get? hi (i.fields.insert k v)
      rw [setFields, bind_ok (setField_writable hi open_), setFields_writable written open_,
        State.withFields_withFields]
      rfl

/-- The first field is dropped and the others follow. -/
theorem erase_head {fields : OrderedMap String Value} {es : List (String × Value)}
    (entries : fields.entries = (k, v) :: es) :
    fields.contains k = true ∧ (fields.erase k).entries = es := by
  have nodup := fields.nodup
  rw [entries, List.map_cons, List.nodup_cons] at nodup
  constructor
  · simp [OrderedMap.contains, OrderedMap.get?, entries, Entries.find?]
  · show fields.entries.filter _ = es
    rw [entries, List.filter_cons_of_neg (by simp), List.filter_eq_self]
    intro e he
    have other : e.1 ≠ k := by
      rintro rfl
      exact nodup.1 (show e.1 ∈ es.map Prod.fst from List.mem_map_of_mem he)
    simpa using other

theorem clearFields_writable : ∀ {es : List (String × Value)} {s : State} {i : Instance},
    s.heap.get? a = some (.inst i) → i.readOnly = false → i.fields.entries = es →
      clearFields (.object a) es s = .ok () (s.withFields a i
        (FieldWrite.applyAll (es.map fun e => .drop e.1) i.fields))
  | [], s, i, hi, _, _ => by
      rw [List.map_nil, FieldWrite.applyAll_nil, State.withFields_self hi]
      rfl
  | (k, v) :: es, s, i, hi, open_, entries => by
      obtain ⟨there, others⟩ := erase_head entries
      have rest := clearFields_writable (State.withFields_get? hi (i.fields.erase k)) open_ others
      rw [clearFields, bind_ok (deleteField_writable hi open_ there), rest,
        State.withFields_withFields]
      rfl

theorem entriesOf_eq (source : Value) :
    entriesOf source s = demand .unusable (s.heap.entries? source) s := by
  unfold entriesOf objectOf Heap.entries?
  cases source with
  | primitive | function => rfl
  | object b =>
      simp only [Value.address?, Option.bind_some, bind, EStateM.bind, heap, demand_some]
      cases s.heap.get? b with
      | none => rfl
      | some o => cases o <;> rfl

theorem entriesOf_some {source : Value} {es : List (String × Value)}
    (found : s.heap.entries? source = some es) : entriesOf source s = .ok es s := by
  rw [entriesOf_eq, found]
  rfl

theorem entriesOf_none {source : Value} (missing : s.heap.entries? source = none) :
    entriesOf source s = .error (.raised .unusable) s := by
  rw [entriesOf_eq, missing]
  rfl

end Action

/-! ## Mutations carry out their plans -/

/-- The writes of a plan on an instance, and its answer. -/
def Plan.carryOut (p : Plan) (a : Address) (i : Instance) : Action Value := fun s =>
  p.answer.give (s.withFields a i (FieldWrite.applyAll p.writes i.fields))

section

variable {s : State} {a : Address} {i : Instance}

/-- Without writes there is the answer only. -/
theorem Plan.carryOut_idle (hi : s.heap.get? a = some (.inst i)) (answer : Answer) :
    (⟨[], answer⟩ : Plan).carryOut a i s = answer.give s := by
  rw [carryOut, FieldWrite.applyAll_nil, State.withFields_self hi]

open OperatorDispatch.Action

theorem Mutation.run_clear (hi : s.heap.get? a = some (.inst i)) :
    clear.run (.object a) s =
      (do clearFields (.object a) i.fields.entries; return .null : Action Value) s :=
  bind_ok (instanceOf_eq hi)

theorem Mutation.run_merge (hi : s.heap.get? a = some (.inst i)) (source : Value) :
    (merge source).run (.object a) s =
      (do setFields (.object a) (← entriesOf source); return .null : Action Value) s :=
  bind_ok (instanceOf_eq hi)

/-- A mutation of a writable instance writes what it plans to, and nothing
else. -/
theorem Mutation.run_writable (hi : s.heap.get? a = some (.inst i)) (open_ : i.readOnly = false)
    (m : Mutation) : m.run (.object a) s = (m.plan s.heap i.fields).carryOut a i s := by
  cases m with
  | set k v => exact bind_ok ((setItem_eq hi k v).trans (setField_writable hi open_))
  | delete k =>
      cases there : i.fields.contains k with
      | true =>
          rw [plan, if_pos there]
          exact bind_ok ((deleteItem_eq hi (.text k)).trans (deleteField_writable hi open_ there))
      | false =>
          rw [plan, there, if_neg (by simp), Plan.carryOut_idle hi]
          exact bind_error ((deleteItem_eq hi (.text k)).trans (deleteField_missing hi open_ there))
  | pop k default =>
      cases there : i.fields.get? k with
      | some v =>
          have contained : i.fields.contains k = true := by rw [OrderedMap.contains, there]; rfl
          rw [plan_pop_there there]
          exact (run_pop k default _ s).trans ((popField_there hi default there).trans
            (bind_ok (deleteField_writable hi open_ contained)))
      | none =>
          cases default with
          | none =>
              rw [plan_pop_missing there, Plan.carryOut_idle hi]
              exact popField_missing hi there
          | some d =>
              rw [plan_pop_default there, Plan.carryOut_idle hi]
              exact popField_default hi there d
  | popItem =>
      cases entries : i.fields.entries with
      | nil =>
          rw [plan, entries, Plan.carryOut_idle hi]
          exact bind_error (popFirst_empty hi entries)
      | cons e es =>
          obtain ⟨k, v⟩ := e
          have deleted := deleteField_writable hi open_ (erase_head entries).1
          rw [plan, entries]
          exact bind_ok ((popFirst_head hi entries).trans (bind_ok deleted))
  | clear =>
      have keys : i.fields.keys.map FieldWrite.drop = i.fields.entries.map fun e => .drop e.1 :=
        List.map_map
      rw [run_clear hi, plan, keys]
      exact bind_ok (clearFields_writable hi open_ rfl)
  | setDefault k default =>
      cases there : i.fields.get? k with
      | some v =>
          rw [plan, there, Plan.carryOut_idle hi]
          exact setDefault_there hi there default
      | none =>
          rw [plan, there]
          exact (setDefault_missing hi there default).trans (bind_ok (setField_writable hi open_))
  | merge source =>
      rw [run_merge hi, plan]
      cases entries : s.heap.entries? source with
      | none =>
          rw [Plan.carryOut_idle hi]
          exact bind_error (entriesOf_none entries)
      | some es =>
          exact (bind_ok (entriesOf_some entries)).trans (bind_ok (setFields_writable hi open_))

end

end OperatorDispatch
