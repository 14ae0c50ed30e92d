/-!
# Maps in insertion order

A map is a list of entries in the order in which their keys were first
entered, each key once.  Replacing a value keeps the place of its key.  The
lemmas say what each operation does to the look-up and to the keys.
-/

namespace OperatorDispatch

variable {κ α β : Type}

/-! ## Lists of entries -/

namespace Entries

variable [DecidableEq κ]

/-- The entries with `k` bound to `v`, in place or at the end. -/
def put (k : κ) (v : α) : List (κ × α) → List (κ × α)
  | [] => [(k, v)]
  | (k', w) :: es => if k' = k then (k, v) :: es else (k', w) :: put k v es

theorem keys_put (k : κ) (v : α) (es : List (κ × α)) :
    (put k v es).map Prod.fst =
      if k ∈ es.map Prod.fst then es.map Prod.fst else es.map Prod.fst ++ [k] := by
  induction es with
  | nil => simp [put]
  | cons e es ih =>
    obtain ⟨k', w⟩ := e
    by_cases h : k' = k
    · simp [put, h]
    · have h' : k ≠ k' := fun e => h e.symm
      by_cases hm : k ∈ es.map Prod.fst <;> simp_all [put]

theorem nodup_put {k : κ} {v : α} {es : List (κ × α)} (h : (es.map Prod.fst).Nodup) :
    ((put k v es).map Prod.fst).Nodup := by
  rw [keys_put]
  split
  · exact h
  · rename_i hk
    rw [List.nodup_append]
    refine ⟨h, by simp, ?_⟩
    rintro a ha b hb rfl
    simp only [List.mem_singleton] at hb
    exact hk (hb ▸ ha)

/-- The value bound to `k`. -/
def find? (k : κ) : List (κ × α) → Option α
  | [] => none
  | (k', w) :: es => if k' = k then some w else find? k es

theorem mem_of_mem_put {k : κ} {v : α} {e : κ × α} {es : List (κ × α)} (h : e ∈ put k v es) :
    e = (k, v) ∨ e ∈ es := by
  induction es with
  | nil => exact .inl (by simpa [put] using h)
  | cons f es ih => grind [put]

theorem mem_of_find? {k : κ} {v : α} {es : List (κ × α)} (h : find? k es = some v) :
    (k, v) ∈ es := by
  induction es with
  | nil => simp [find?] at h
  | cons e es ih => grind [find?]

theorem find?_map (f : α → β) (k : κ) (es : List (κ × α)) :
    find? k (es.map fun e => (e.1, f e.2)) = (find? k es).map f := by
  induction es with
  | nil => rfl
  | cons e es ih => grind [find?]

theorem find?_put (k k' : κ) (v : α) (es : List (κ × α)) :
    find? k' (put k v es) = if k = k' then some v else find? k' es := by
  induction es with
  | nil => simp [put, find?]
  | cons e es ih => grind [put, find?]

end Entries

/-! ## Maps -/

/-- A map with its entries in insertion order. -/
structure OrderedMap (κ α : Type) where
  entries : List (κ × α)
  nodup : (entries.map Prod.fst).Nodup

namespace OrderedMap

theorem ext {m n : OrderedMap κ α} (h : m.entries = n.entries) : m = n := by
  cases m
  cases n
  cases h
  rfl

instance [DecidableEq κ] [DecidableEq α] : DecidableEq (OrderedMap κ α) := fun m n =>
  decidable_of_iff (m.entries = n.entries) ⟨ext, fun h => h ▸ rfl⟩

def empty : OrderedMap κ α := ⟨[], List.nodup_nil⟩

def keys (m : OrderedMap κ α) : List κ :=
  m.entries.map Prod.fst

def values (m : OrderedMap κ α) : List α :=
  m.entries.map Prod.snd

def size (m : OrderedMap κ α) : Nat :=
  m.entries.length

def isEmpty (m : OrderedMap κ α) : Bool :=
  m.entries.isEmpty

/-- The map with a function applied to each value. -/
def mapValues (f : α → β) (m : OrderedMap κ α) : OrderedMap κ β :=
  ⟨m.entries.map fun e => (e.1, f e.2), by simpa [Function.comp_def] using m.nodup⟩

theorem keys_mapValues (f : α → β) (m : OrderedMap κ α) : (m.mapValues f).keys = m.keys := by
  simp [keys, mapValues, Function.comp_def]

variable [DecidableEq κ]

def get? (m : OrderedMap κ α) (k : κ) : Option α :=
  Entries.find? k m.entries

def contains (m : OrderedMap κ α) (k : κ) : Bool :=
  (m.get? k).isSome

/-- The map with `k` bound to `v`. -/
def insert (m : OrderedMap κ α) (k : κ) (v : α) : OrderedMap κ α :=
  ⟨Entries.put k v m.entries, Entries.nodup_put m.nodup⟩

/-- The map without `k`. -/
def erase (m : OrderedMap κ α) (k : κ) : OrderedMap κ α :=
  ⟨m.entries.filter (fun e => decide (e.1 ≠ k)),
    m.nodup.sublist (List.Sublist.map _ List.filter_sublist)⟩

/-- The entries bound one after the other: a repeated key keeps its first
place and takes its last value. -/
def ofList (es : List (κ × α)) : OrderedMap κ α :=
  es.foldl (fun m e => m.insert e.1 e.2) empty

theorem get?_insert (m : OrderedMap κ α) (k k' : κ) (v : α) :
    (m.insert k v).get? k' = if k = k' then some v else m.get? k' :=
  Entries.find?_put k k' v m.entries

theorem keys_insert (m : OrderedMap κ α) (k : κ) (v : α) :
    (m.insert k v).keys = if k ∈ m.keys then m.keys else m.keys ++ [k] :=
  Entries.keys_put k v m.entries

theorem get?_mapValues (f : α → β) (m : OrderedMap κ α) (k : κ) :
    (m.mapValues f).get? k = (m.get? k).map f :=
  Entries.find?_map f k m.entries

/-! ## Values -/

section Values

variable {m : OrderedMap κ α} {k : κ} {v w : α}

omit [DecidableEq κ] in
theorem mem_values_of_mem {e : κ × α} (h : e ∈ m.entries) : e.2 ∈ m.values :=
  List.mem_map_of_mem h

theorem mem_values_of_get? (h : m.get? k = some v) : v ∈ m.values :=
  mem_values_of_mem (Entries.mem_of_find? h)

theorem mem_values_insert (h : v ∈ (m.insert k w).values) : v = w ∨ v ∈ m.values := by
  obtain ⟨e, he, rfl⟩ := List.mem_map.mp h
  rcases Entries.mem_of_mem_put he with rfl | he
  · exact .inl rfl
  · exact .inr (mem_values_of_mem he)

theorem mem_values_erase (h : v ∈ (m.erase k).values) : v ∈ m.values := by
  obtain ⟨e, he, rfl⟩ := List.mem_map.mp h
  exact mem_values_of_mem (List.mem_filter.mp he).1

omit [DecidableEq κ] in
theorem values_mapValues (f : α → β) (m : OrderedMap κ α) :
    (m.mapValues f).values = m.values.map f := by
  simp [values, mapValues]

theorem mem_values_ofList {es : List (κ × α)} (h : v ∈ (ofList es).values) :
    v ∈ es.map Prod.snd := by
  suffices ∀ m : OrderedMap κ α, v ∈ (es.foldl (fun m e => m.insert e.1 e.2) m).values →
      v ∈ m.values ∨ v ∈ es.map Prod.snd from (this empty h).resolve_left (by simp [empty, values])
  clear h
  induction es with
  | nil => exact fun _ h => .inl h
  | cons e es ih =>
    intro m h
    rcases ih _ h with h | h
    · rcases mem_values_insert h with rfl | h
      · exact .inr (by simp)
      · exact .inl h
    · exact .inr (List.mem_cons_of_mem _ h)

end Values

end OrderedMap

end OperatorDispatch
