import Mathlib.Data.List.Induction
import Mathlib.Data.List.Nodup
import Mathlib.Data.String.Basic
import OperatorDispatch.Command

/-!
# Labels

Attributes come as a map from names to values, in the order in which they were listed.
What they stand for is their labels: null values are dropped, all others turned into
texts.  In the ledger they are kept sorted, and the sorted list is a normal form
(`Attributes.ofMap_eq_iff`): it is the same for two maps exactly if they are the same but
for the order.

Some values have no text.  The first of them in the list ends the reading, so here the
order does matter, but only for which fault it is (`attributesFrom_eq`).
-/

namespace OperatorDispatch

/-! ## Maps up to order -/

namespace Entries

variable {κ α : Type} [DecidableEq κ] {k : κ} {v : α} {es : List (κ × α)}

theorem mem_iff_find? (distinct : (es.map Prod.fst).Nodup) :
    (k, v) ∈ es ↔ find? k es = some v := by
  refine ⟨?_, mem_of_find?⟩
  induction es with
  | nil => exact fun h => absurd h List.not_mem_nil
  | cons e es ih =>
      obtain ⟨fresh, distinct⟩ := List.nodup_cons.mp distinct
      intro h
      rcases List.mem_cons.mp h with rfl | h
      · exact if_pos rfl
      · have other : e.1 ≠ k := by
          rintro rfl
          exact fresh (List.mem_map.mpr ⟨_, h, rfl⟩)
        exact (if_neg other).trans (ih distinct h)

theorem put_of_notMem (new : k ∉ es.map Prod.fst) : put k v es = es ++ [(k, v)] := by
  induction es with
  | nil => rfl
  | cons e es ih =>
      obtain ⟨other, new⟩ := List.ne_and_not_mem_of_not_mem_cons new
      rw [put, if_neg fun same => other same.symm, ih new, List.cons_append]

end Entries

namespace OrderedMap

variable {κ α : Type} {m m' : OrderedMap κ α}

/-- Two maps with the same entries, whatever the order. -/
def Same (m m' : OrderedMap κ α) : Prop :=
  m.entries.Perm m'.entries

instance [DecidableEq κ] [DecidableEq α] : Decidable (m.Same m') :=
  inferInstanceAs (Decidable (List.Perm _ _))

variable [DecidableEq κ]

theorem mem_entries_iff {k : κ} {v : α} : (k, v) ∈ m.entries ↔ m.get? k = some v :=
  Entries.mem_iff_find? m.nodup

/-- The same entries are the same values under all keys. -/
theorem same_iff_get? : m.Same m' ↔ ∀ k, m.get? k = m'.get? k := by
  have entries : m.Same m' ↔ ∀ e, e ∈ m.entries ↔ e ∈ m'.entries :=
    List.perm_ext_iff_of_nodup (List.Nodup.of_map _ m.nodup) (List.Nodup.of_map _ m'.nodup)
  rw [entries]
  constructor
  · intro same k
    refine Option.ext fun v => ?_
    rw [← mem_entries_iff, ← mem_entries_iff]
    exact same (k, v)
  · rintro same ⟨k, v⟩
    rw [mem_entries_iff, mem_entries_iff, same k]

theorem entries_ofList {es : List (κ × α)} (distinct : (es.map Prod.fst).Nodup) :
    (ofList es).entries = es := by
  induction es using List.reverseRecOn with
  | nil => rfl
  | append_singleton es e ih =>
      rw [List.map_append, List.nodup_append] at distinct
      obtain ⟨earlier, -, apart⟩ := distinct
      have new : e.1 ∉ es.map Prod.fst :=
        fun h => apart e.1 h e.1 (List.mem_singleton_self _) rfl
      have last : ofList (es ++ [e]) = (ofList es).insert e.1 e.2 := by
        simp [ofList]
      rw [last]
      show Entries.put e.1 e.2 (ofList es).entries = es ++ [e]
      rw [ih earlier, Entries.put_of_notMem new]

end OrderedMap

/-! ## Sorting -/

namespace Attributes

theorem insertSorted_perm (e : String × String) (a : Attributes) :
    (insertSorted e a).Perm (e :: a) := by
  induction a with
  | nil => exact .refl _
  | cons f a ih =>
      unfold insertSorted
      split
      · exact .refl _
      · exact (ih.cons f).trans (.swap e f a)

/-- Attributes in ascending order of names that are all different. -/
def Ascending (a : Attributes) : Prop :=
  a.Pairwise fun e f => e.1 < f.1

theorem Ascending.insertSorted {e : String × String} {a : Attributes} (h : Ascending a)
    (new : e.1 ∉ a.names) : Ascending (insertSorted e a) := by
  induction a with
  | nil => exact List.pairwise_singleton _ _
  | cons f a ih =>
      obtain ⟨least, rest⟩ := List.pairwise_cons.mp h
      obtain ⟨other, new⟩ := List.ne_and_not_mem_of_not_mem_cons new
      unfold Attributes.insertSorted
      split
      next first =>
        refine List.pairwise_cons.mpr ⟨?_, h⟩
        intro g hg
        rcases List.mem_cons.mp hg with rfl | hg
        · exact first
        · exact lt_trans first (least g hg)
      next later =>
        refine List.pairwise_cons.mpr ⟨?_, ih rest new⟩
        intro g hg
        rcases List.mem_cons.mp ((insertSorted_perm e a).mem_iff.mp hg) with rfl | hg
        · exact lt_of_le_of_ne (not_lt.mp later) fun same => other same.symm
        · exact least g hg

theorem ofMap_perm (m : OrderedMap String String) : (ofMap m).Perm m.entries := by
  unfold ofMap
  induction m.entries with
  | nil => exact .refl _
  | cons e es ih => exact (insertSorted_perm e _).trans (ih.cons e)

theorem ascending_ofMap (m : OrderedMap String String) : Ascending (ofMap m) := by
  obtain ⟨es, distinct⟩ := m
  unfold ofMap
  dsimp only
  induction es with
  | nil => exact List.Pairwise.nil
  | cons e es ih =>
      obtain ⟨new, distinct⟩ := List.nodup_cons.mp distinct
      have listed := ((ofMap_perm ⟨es, distinct⟩).map Prod.fst).mem_iff (a := e.1)
      exact (ih distinct).insertSorted fun h => new (listed.mp h)

/-- Sorted entries are a normal form of maps. -/
theorem ofMap_eq_iff {m m' : OrderedMap String String} : ofMap m = ofMap m' ↔ m.Same m' := by
  constructor
  · intro same
    exact (ofMap_perm m).symm.trans (same ▸ ofMap_perm m')
  · intro same
    have both : (ofMap m).Perm (ofMap m') :=
      (ofMap_perm m).trans (same.trans (ofMap_perm m').symm)
    refine List.Perm.eq_of_pairwise ?_ (ascending_ofMap m) (ascending_ofMap m') both
    intro e f _ _ before after
    exact absurd (lt_trans before after) (lt_irrefl _)

end Attributes

/-! ## Reading attributes -/

namespace Heap

variable {h : Heap} {m m' : OrderedMap String Value}

/-- The label that a value comes to, if it is not null. -/
def label? (h : Heap) : Value → Option String
  | .primitive .null => none
  | v => (h.plainText v).toOption

theorem label?_of_ne {v : Value} (hv : v ≠ .primitive .null) :
    h.label? v = (h.plainText v).toOption := by
  unfold label?
  split
  · exact absurd rfl hv
  · rfl

/-- Why a value has no text. -/
def textless? (h : Heap) (v : Value) : Option NativeFault :=
  match h.plainText v with
  | .ok _ => none
  | .error why => some why

/-- Why the first value without a text has none. -/
def illegible? (h : Heap) (m : OrderedMap String Value) : Option NativeFault :=
  m.entries.findSome? fun e => h.textless? e.2

/-- Every value has a text. -/
def Readable (h : Heap) (m : OrderedMap String Value) : Prop :=
  ∀ e ∈ m.entries, h.textless? e.2 = none

instance : Decidable (h.Readable m) :=
  inferInstanceAs (Decidable (∀ e ∈ m.entries, _))

theorem illegible?_eq_none_iff : h.illegible? m = none ↔ h.Readable m :=
  List.findSome?_eq_none_iff

/-- The entry with its value as a label. -/
def labelled? (h : Heap) (e : String × Value) : Option (String × String) :=
  (h.label? e.2).map (e.1, ·)

theorem fst_of_labelled? {e : String × Value} {l : String × String}
    (hl : h.labelled? e = some l) : l.1 = e.1 := by
  obtain ⟨text, -, rfl⟩ := Option.map_eq_some_iff.mp hl
  rfl

theorem keys_labelled_sublist (es : List (String × Value)) :
    ((es.filterMap h.labelled?).map Prod.fst).Sublist (es.map Prod.fst) := by
  induction es with
  | nil => exact .slnil
  | cons e es ih =>
      cases hl : h.labelled? e with
      | none =>
          rw [List.filterMap_cons_none hl]
          exact ih.cons _
      | some l =>
          rw [List.filterMap_cons_some hl, List.map_cons, List.map_cons, fst_of_labelled? hl]
          exact ih.cons_cons _

/-- The labels that a map of attributes stands for, in the order in which they are listed. -/
def labels (h : Heap) (m : OrderedMap String Value) : OrderedMap String String :=
  ⟨m.entries.filterMap h.labelled?, m.nodup.sublist (keys_labelled_sublist m.entries)⟩

/-- Under each name is the label of the value that is there. -/
theorem get?_labels (h : Heap) (m : OrderedMap String Value) (k : String) :
    (h.labels m).get? k = (m.get? k).bind h.label? := by
  refine Option.ext fun text => ?_
  rw [← OrderedMap.mem_entries_iff, labels, List.mem_filterMap, Option.bind_eq_some_iff]
  constructor
  · rintro ⟨⟨k', v⟩, listed, labelled⟩
    obtain ⟨text', htext, same⟩ := Option.map_eq_some_iff.mp labelled
    cases same
    exact ⟨v, OrderedMap.mem_entries_iff.mp listed, htext⟩
  · rintro ⟨v, found, htext⟩
    refine ⟨(k, v), OrderedMap.mem_entries_iff.mpr found, ?_⟩
    exact Option.map_eq_some_iff.mpr ⟨text, htext, rfl⟩

theorem labels_same (same : m.Same m') : (h.labels m).Same (h.labels m') :=
  List.Perm.filterMap h.labelled? same

theorem readable_congr (same : m.Same m') : h.Readable m ↔ h.Readable m' := by
  simp only [Readable, same.mem_iff]

end Heap

namespace Action

open Heap

variable {h : Heap} {m m' : OrderedMap String Value} {attributes : Attributes}

/-- An attribute comes to its label or, for null, to none. -/
theorem attributeFrom_eq (h : Heap) (e : String × Value) :
    attributeFrom h e =
      match h.textless? e.2 with
      | none => .ok (h.labelled? e)
      | some why => .error why := by
  unfold attributeFrom
  split
  next null =>
    rw [labelled?, null]
    rfl
  next other =>
    rw [labelled?, label?_of_ne other, textless?]
    cases h.plainText e.2 <;> rfl

theorem mapM_attributeFrom (h : Heap) (es : List (String × Value)) :
    es.mapM (attributeFrom h) =
      match es.findSome? fun e => h.textless? e.2 with
      | none => .ok (es.map h.labelled?)
      | some why => .error why := by
  induction es with
  | nil => rfl
  | cons e es ih =>
      rw [List.mapM_cons, attributeFrom_eq, ih, List.findSome?_cons]
      cases h.textless? e.2 with
      | some why => rfl
      | none => cases es.findSome? fun e => h.textless? e.2 <;> rfl

/-- Attributes come to their labels, sorted, unless some value has no text. -/
theorem attributesFrom_eq (h : Heap) (m : OrderedMap String Value) :
    attributesFrom h m =
      match h.illegible? m with
      | none => .ok (.ofMap (h.labels m))
      | some why => .error (.native why) := by
  have named : OrderedMap.ofList (m.entries.filterMap h.labelled?) = h.labels m :=
    OrderedMap.ext (OrderedMap.entries_ofList (h.labels m).nodup)
  rw [attributesFrom, mapM_attributeFrom, illegible?]
  cases m.entries.findSome? fun e => h.textless? e.2 with
  | some why => rfl
  | none =>
      dsimp only
      rw [List.filterMap_map]
      exact congrArg (fun m => Except.ok (Attributes.ofMap m)) named

theorem attributesFrom_ok_iff :
    attributesFrom h m = .ok attributes ↔ h.Readable m ∧ attributes = .ofMap (h.labels m) := by
  rw [attributesFrom_eq, ← illegible?_eq_none_iff]
  cases h.illegible? m with
  | none => simp [eq_comm]
  | some why => simp

/-- The order in which attributes are listed does not matter. -/
theorem attributesFrom_congr (same : m.Same m') (readable : h.Readable m) :
    attributesFrom h m = attributesFrom h m' := by
  have labelled := attributesFrom_ok_iff.mpr ⟨readable, rfl⟩
  rw [labelled, Attributes.ofMap_eq_iff.mpr (labels_same same)]
  exact (attributesFrom_ok_iff.mpr ⟨(readable_congr same).mp readable, rfl⟩).symm

end Action
end OperatorDispatch
