import OperatorDispatch.Proofs.Settlement
import OperatorDispatch.Proofs.Tandem.Definitions

/-!
# Inspection, arithmetic and telemetry in tandem

What a program can find out about its values, and about what has been recorded, is the
same on the two sides of a gap.  A reading is made on both sides of what is there to
read; that it may hold other addresses is of no consequence, since no command looks
into it.
-/

namespace OperatorDispatch
namespace Action

variable {g : Gap}

/-! ## Inspection -/

theorem sameType_across {h h' : Heap} (moved : h.Displaced g h') (v w : Value) :
    sameType h' (across g v) (across g w) = sameType h v w := by
  unfold sameType
  rw [moved.instanceOf?, moved.instanceOf?]
  cases h.instanceOf? v with
  | none => rfl
  | some x =>
      cases h.instanceOf? w with
      | none => rfl
      | some y =>
          show (across g x.2.type == across g y.2.type) = (x.2.type == y.2.type)
          cases x.2.type with
          | none => cases y.2.type <;> rfl
          | some t =>
              cases y.2.type with
              | none => rfl
              | some u => exact g.shift_beq t u

theorem tandem_inspection (c : InspectionCommand) (vs : List Value) :
    Tandem g (inspection c vs) (inspection c (across g vs)) := by
  have unusable : Tandem g (raise .unusable : Action Value) (raise .unusable) := tandem_raise _
  have boolean (b b' : Bool) (same : b' = b) :
      Tandem g (pure (Value.boolean b)) (pure (Value.boolean b')) := by
    rw [same]
    exact tandem_pure (Value.boolean b)
  cases c with
  | describe =>
      match vs with
      | [v] =>
          refine tandem_heap_bind fun h h' moved => ?_
          show Tandem g _ (ofExcept ((h'.describe (across g v)).mapError .native) >>= _)
          rw [moved.describe]
          exact tandem_ofExcept_same fun text => tandem_pure (Value.text text)
      | [] | _ :: _ :: _ => exact unusable
  | same =>
      match vs with
      | [v, w] => exact boolean _ _ (Value.same_across g v w)
      | [] | [_] | _ :: _ :: _ :: _ => exact unusable
  | sameType =>
      match vs with
      | [v, w] => exact tandem_heap_bind fun h h' moved => boolean _ _ (sameType_across moved v w)
      | [] | [_] | _ :: _ :: _ :: _ => exact unusable
  | isInstance =>
      match vs with
      | [v] =>
          refine tandem_heap_bind fun h h' moved => boolean _ _ ?_
          show (h'.instanceOf? (across g v)).isSome = _
          rw [moved.instanceOf?]
          cases h.instanceOf? v <;> rfl
      | [] | _ :: _ :: _ => exact unusable
  | isSubtype =>
      match vs with
      | [v, w] =>
          refine tandem_typeOf_bind v fun a t => tandem_typeOf_bind w fun b u => ?_
          exact tandem_heap_bind fun h h' moved => boolean _ _ (moved.isSubtype a b)
      | [] | [_] | _ :: _ :: _ :: _ => exact unusable
  | chain =>
      match vs with
      | [v] =>
          refine tandem_typeOf_bind v fun a t => tandem_heap_bind fun h h' moved => ?_
          exact tandem_newObject (.reading _ _) rfl
      | [] | _ :: _ :: _ => exact unusable
  | classify =>
      match vs with
      | [v] => exact tandem_heap_bind fun h h' moved => tandem_newObject (.reading _ _) rfl
      | [] | _ :: _ :: _ => exact unusable
  | resolve name =>
      match vs with
      | [v] =>
          refine tandem_ofExcept_same fun sel => ?_
          refine tandem_heap_bind fun h h' moved => tandem_heap_bind fun k k' moved' => ?_
          rw [moved'.classify, moved.resolve]
          cases h.resolve (k.classify v) sel with
          | some f => exact tandem_pure (Value.function f)
          | none => exact tandem_pure Value.null
      | [] | _ :: _ :: _ => exact unusable
  | compatible =>
      match vs with
      | [v, w] =>
          refine tandem_heap_bind fun h h' moved => ?_
          rw [moved.classify]
          cases h.classify v with
          | primitive => exact unusable
          | taggable t =>
              refine tandem_heap_bind fun h h' moved => boolean _ _ ?_
              rw [moved.classify]
              exact nominallyCompatible_across g t _
      | [] | [_] | _ :: _ :: _ :: _ => exact unusable
  | typeRegistry =>
      match vs with
      | [v] => exact tandem_typeOf_bind v fun a t => tandem_pure (Value.object t.registry)
      | [] | _ :: _ :: _ => exact unusable
  | instanceRegistry =>
      match vs with
      | [v] =>
          refine tandem_instanceOf_bind v fun a i => ?_
          show Tandem g _ (pure (orNull (across g i.registry)))
          dsimp only
          cases i.registry with
          | none => exact tandem_pure Value.null
          | some r => exact tandem_pure (Value.object r)
      | [] | _ :: _ :: _ => exact unusable
  | registryHas name =>
      match vs with
      | [v] =>
          refine tandem_registryOf_bind v fun a r => tandem_ofExcept_same fun sel => ?_
          exact boolean _ _ rfl
      | [] | _ :: _ :: _ => exact unusable

/-! ## Native operations -/

theorem nativeOperand_across {h h' : Heap} (moved : h.Displaced g h') (joining : Bool) (v : Value) :
    nativeOperand h' joining (across g v) = nativeOperand h joining v := by
  cases v with
  | primitive p => rfl
  | function f =>
      have joined : h'.joinText (.function f) = h.joinText (.function f) :=
        moved.joinText (.function f)
      show nativeOperand h' joining (Value.function f) = _
      unfold nativeOperand
      dsimp only
      rw [joined]
  | object a =>
      have joined : h'.joinText (.object (g.shift a)) = h.joinText (.object a) :=
        moved.joinText (.object a)
      show nativeOperand h' joining (Value.object (g.shift a)) = _
      unfold nativeOperand
      dsimp only
      rw [joined]

theorem tandem_ofNative (r : Except NativeFault Primitive) :
    Tandem g (ofNative r) (ofNative r) := by
  cases r with
  | ok p => exact tandem_pure (Value.primitive p)
  | error fault => exact tandem_raise _

theorem tandem_native (sel : Selector) (vs : List Value) :
    Tandem g (native sel vs) (native sel (across g vs)) := by
  have unusable : Tandem g (raise .unusable : Action Value) (raise .unusable) := tandem_raise _
  have operand (joining : Bool) (v : Value) {f f' : Primitive → Action Value}
      (hf : ∀ p, Tandem g (f p) (f' p)) :
      Tandem g (do let p ← ofExcept (nativeOperand (← heap) joining v); f p)
        (do let p ← ofExcept (nativeOperand (← heap) joining (across g v)); f' p) := by
    refine tandem_heap_bind fun h h' moved => ?_
    rw [nativeOperand_across moved]
    exact tandem_ofExcept_same hf
  have text (v : Value) : isText (across g v) = isText v := by
    cases v <;> rfl
  unfold native
  cases sel.isUnary with
  | true =>
      match vs with
      | [v] => exact operand false v fun p => tandem_ofNative _
      | [] | _ :: _ :: _ => exact unusable
  | false =>
      match vs with
      | [v, w] =>
          show Tandem g _ (do
            let p ← ofExcept (nativeOperand (← heap)
              (sel == .add && (isText (across g v) || isText (across g w))) (across g v))
            let q ← ofExcept (nativeOperand (← heap)
              (sel == .add && (isText (across g v) || isText (across g w))) (across g w))
            ofNative (Native.binary sel p q))
          rw [text, text]
          exact operand _ v fun p => operand _ w fun q => tandem_ofNative _
      | [] | [_] | _ :: _ :: _ :: _ => exact unusable

/-! ## Telemetry -/

section Telemetry

variable {h h' : Heap} (moved : h.Displaced g h')

theorem amountFrom_across (g : Gap) (v : Value) : amountFrom (across g v) = amountFrom v := by
  cases v <;> rfl

theorem integerFrom_across (g : Gap) (v : Value) : integerFrom (across g v) = integerFrom v := by
  cases v <;> rfl

include moved

theorem attributesFrom_across (entries : OrderedMap String Value) :
    attributesFrom h' (across g entries) = attributesFrom h entries := by
  unfold attributesFrom
  congr 1
  refine Heap.Displaced.mapM_map fun e _ => ?_
  obtain ⟨k, v⟩ := e
  have written := congrArg (Except.map fun s => some (k, s)) (moved.plainText v)
  cases v with
  | primitive p => cases p <;> rfl
  | function | object => exact written

omit moved in
/-- A name that no setting has. -/
theorem settingsFrom_unknown {name : String}
    (unknown : name ∉ ["trace_spans", "record_metrics", "nan_sentinel", "ledger_limit"])
    (h : Heap) (v : Value) (rest : List (String × Value)) :
    settingsFrom h ((name, v) :: rest) = (settingsFrom h rest).bind fun _ => .error .unusable := by
  simp only [List.mem_cons, List.not_mem_nil, or_false, not_or] at unknown
  obtain ⟨spans, metrics, sentinel, limit⟩ := unknown
  rw [settingsFrom]
  cases settingsFrom h rest with
  | error fault => rfl
  | ok settings =>
      dsimp only [Except.bind]
      split
      · exact absurd rfl spans
      · exact absurd rfl metrics
      · exact absurd rfl sentinel
      · exact absurd rfl limit
      · rfl

theorem settingsFrom_across (es : List (String × Value)) :
    settingsFrom h' (across g es) = across g (settingsFrom h es) := by
  induction es with
  | nil => rfl
  | cons e rest ih =>
      obtain ⟨name, v⟩ := e
      show settingsFrom h' ((name, across g v) :: across g rest) = _
      by_cases known : name ∈ ["trace_spans", "record_metrics", "nan_sentinel", "ledger_limit"]
      · rw [settingsFrom, settingsFrom, ih, moved.truthy, integerFrom_across]
        simp only [List.mem_cons, List.not_mem_nil, or_false] at known
        cases settingsFrom h rest with
        | error fault => rfl
        | ok settings =>
            rcases known with rfl | rfl | rfl | rfl
            · rfl
            · rfl
            · rfl
            · dsimp only
              cases integerFrom v <;> rfl
      · rw [settingsFrom_unknown known, settingsFrom_unknown known, ih]
        cases settingsFrom h rest <;> rfl

end Telemetry

theorem tandem_setLimit (n : Int) : Tandem g (setLimit n) (setLimit n) := by
  refine tandem_ofExcept_same fun limit => tandem_get_bind fun t t' ht => ?_
  rw [ht.ledger]
  exact tandem_setLedger _

theorem tandem_configure (settings : Settings) :
    Tandem g (configure settings) (configure (across g settings)) :=
  tandem_bind (tandem_setLimit settings.ledgerLimit) fun _ => tandem_setShared settings

theorem tandem_increment (key : CounterKey) (amount : Double) :
    Tandem g (increment key amount) (increment key amount) := by
  intro s s' hs
  rw [increment_apply, increment_apply, hs.ledger]
  cases (s.ledger.increment key amount).2 with
  | none => exact .ok () { hs with ledger := rfl }
  | some refusal => exact .error _ { hs with ledger := rfl }

theorem tandem_telemetry (c : TelemetryCommand) (vs : List Value) :
    Tandem g (telemetry c vs) (telemetry c (across g vs)) := by
  have unusable : Tandem g (raise .unusable : Action Value) (raise .unusable) := tandem_raise _
  cases c with
  | configure fields =>
      refine tandem_heap_bind fun h h' moved => ?_
      rw [entriesFrom_across]
      show Tandem g _ (ofExcept (settingsFrom h' (across g (entriesFrom fields vs).entries)) >>= _)
      rw [settingsFrom_across moved]
      exact tandem_ofExcept_bind fun settings => tandem_null (tandem_configure settings)
  | readEnvironment environment =>
      match vs with
      | [] => exact tandem_ofExcept_same fun settings => tandem_newObject (.reading _ _) rfl
      | _ :: _ => exact unusable
  | limit =>
      match vs with
      | [] =>
          refine tandem_get_bind fun t t' ht => ?_
          rw [ht.ledger]
          exact tandem_pure (Value.integer t.ledger.limit)
      | _ :: _ => exact unusable
  | setLimit =>
      match vs with
      | [v] =>
          show Tandem g _ (ofExcept (integerFrom (across g v)) >>= _)
          rw [integerFrom_across]
          exact tandem_ofExcept_same fun n => tandem_null (tandem_setLimit n)
      | [] | _ :: _ :: _ => exact unusable
  | reset =>
      match vs with
      | [] =>
          refine tandem_get_bind fun t t' ht => ?_
          rw [ht.ledger]
          exact tandem_null (tandem_setLedger _)
      | _ :: _ => exact unusable
  | increment name keys =>
      refine tandem_heap_bind fun h h' moved => ?_
      rw [dropLast_across, getLastD_across, entriesFrom_across, attributesFrom_across moved,
        amountFrom_across]
      exact tandem_ofExcept_same fun attributes => tandem_ofExcept_same fun amount =>
        tandem_null (tandem_increment _ amount)
  | counter name keys =>
      refine tandem_heap_bind fun h h' moved => ?_
      rw [entriesFrom_across, attributesFrom_across moved]
      refine tandem_ofExcept_same fun attributes => tandem_get_bind fun t t' ht => ?_
      rw [ht.ledger]
      exact tandem_pure (Value.double _)
  | metrics =>
      match vs with
      | [] => exact tandem_get_bind fun t t' ht => tandem_newObject (.reading _ _) rfl
      | _ :: _ => exact unusable
  | logs =>
      match vs with
      | [] => exact tandem_takeRows_bind fun rows => tandem_newObject (.reading _ _) rfl
      | _ :: _ => exact unusable

end Action
end OperatorDispatch
