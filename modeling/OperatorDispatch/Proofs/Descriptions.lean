import OperatorDispatch.Describe
import OperatorDispatch.Proofs.Closure

/-!
# Descriptions without a depth

A description is computed down to a depth that is taken from the size of the
heap.  The depth is bookkeeping and no bound: every step into an object takes
some of the room that is left around it (`Nests.guard`, `Nests.enter`), and as
long as the depth is more than the room, it makes no difference
(`describeFrom_congr`).

So a description obeys equations that know of no depth.  A list or map is dots
inside itself (`describeIn_guarded`); any other object has no text inside
itself, unless a list or map lies in between (`describeIn_unguarded`).  An
instance that is a field of its own therefore has none at all
(`describe_of_holds_itself`).
-/

namespace OperatorDispatch.Heap

variable {h : Heap}

/-! ## Nestings -/

/-- A row of different objects of the heap. -/
def Distinct (h : Heap) (path : List Address) : Prop :=
  path.Nodup ∧ ∀ a ∈ path, a.index < h.size

theorem Distinct.length_le {path : List Address} (hp : h.Distinct path) :
    path.length ≤ h.size := by
  have inside : path ⊆ h.addresses := fun a ha => mem_addresses.mpr (hp.2 a ha)
  have bounded := (List.subperm_of_subset hp.1 inside).length_le
  simpa [addresses] using bounded

theorem Distinct.cons {path : List Address} {a : Address} {o : Object} (hp : h.Distinct path)
    (ho : h.get? a = some o) (new : a ∉ path) : h.Distinct (a :: path) := by
  refine ⟨List.nodup_cons.mpr ⟨new, hp.1⟩, fun b hb => ?_⟩
  rcases List.mem_cons.mp hb with rfl | hb
  · exact lt_size_of_get? ho
  · exact hp.2 b hb

/-- What a description can be inside of. -/
structure Nests (h : Heap) (n : Nesting) : Prop where
  guarded : h.Distinct n.guarded
  unguarded : h.Distinct n.unguarded

theorem nests_nil (h : Heap) : h.Nests ⟨[], []⟩ :=
  ⟨⟨List.nodup_nil, nofun⟩, ⟨List.nodup_nil, nofun⟩⟩

/-- How much deeper a description can go.  A list or map is entered once, and
inside it there is room for all other objects again. -/
def room (h : Heap) (n : Nesting) : Nat :=
  (h.size - n.guarded.length) * (h.size + 1) + (h.size - n.unguarded.length)

theorem room_nil_lt (h : Heap) : h.room ⟨[], []⟩ < (h.size + 1) * (h.size + 1) := by
  simp only [room, List.length_nil, Nat.sub_zero, Nat.succ_mul]
  omega

namespace Nests

variable {n : Nesting} {a : Address} {o : Object}

theorem guard (hn : h.Nests n) (ho : h.get? a = some o) (new : a ∉ n.guarded) :
    h.Nests ⟨a :: n.guarded, []⟩ ∧ h.room ⟨a :: n.guarded, []⟩ < h.room n := by
  have inside := hn.guarded.cons ho new
  refine ⟨⟨inside, (nests_nil h).unguarded⟩, ?_⟩
  have bounded := inside.length_le
  obtain ⟨left, hleft⟩ : ∃ left, h.size = n.guarded.length + 1 + left :=
    Nat.exists_eq_add_of_le bounded
  have before : h.size - n.guarded.length = left + 1 := by omega
  have after : h.size - (a :: n.guarded).length = left := by
    rw [List.length_cons]
    omega
  simp only [room, before, after, Nat.succ_mul, List.length_nil]
  omega

theorem enter (hn : h.Nests n) (ho : h.get? a = some o) (new : a ∉ n.unguarded) :
    h.Nests ⟨n.guarded, a :: n.unguarded⟩ ∧ h.room ⟨n.guarded, a :: n.unguarded⟩ < h.room n := by
  have inside := hn.unguarded.cons ho new
  refine ⟨⟨hn.guarded, inside⟩, ?_⟩
  have bounded := inside.length_le
  simp only [room, List.length_cons] at bounded ⊢
  omega

end Nests

/-! ## The depth makes no difference -/

/-- Any two depths that are more than the room that is left. -/
theorem describeFrom_congr : ∀ (depth depth' : Nat) {n : Nesting} (v : Value),
    h.Nests n → h.room n < depth → h.room n < depth' →
    h.describeFrom depth n v = h.describeFrom depth' n v := by
  intro depth
  induction depth with
  | zero => intro _ n _ _ deep; exact absurd deep (Nat.not_lt_zero _)
  | succ depth ih =>
      intro depth' n v nests deep deep'
      obtain ⟨depth', rfl⟩ : ∃ m, depth' = m + 1 := ⟨depth' - 1, by omega⟩
      cases v with
      | primitive | function => simp only [describeFrom]
      | object a =>
          simp only [describeFrom]
          cases ho : h.get? a with
          | none => rfl
          | some o =>
              dsimp only
              cases o.dots? with
              | some dots =>
                  dsimp only
                  split
                  · rfl
                  · rename_i new
                    obtain ⟨inside, less⟩ := nests.guard ho (by simpa using new)
                    congr 1
                    exact funext fun w => ih depth' w inside (by omega) (by omega)
              | none =>
                  dsimp only
                  split
                  · rfl
                  · rename_i new
                    obtain ⟨inside, less⟩ := nests.enter ho (by simpa using new)
                    congr 1
                    exact funext fun w => ih depth' w inside (by omega) (by omega)

/-- The description of a value inside other objects, as deep as it goes. -/
def describeIn (h : Heap) (n : Nesting) (v : Value) : Except NativeFault String :=
  h.describeFrom (h.room n + 1) n v

theorem describe_eq_describeIn (v : Value) : h.describe v = h.describeIn ⟨[], []⟩ v :=
  describeFrom_congr _ _ v (nests_nil h) h.room_nil_lt (Nat.lt_succ_self _)

/-! ## Equations -/

section Equations

variable {n : Nesting} {a : Address} {o : Object} (nests : h.Nests n) (ho : h.get? a = some o)

include nests ho

theorem describeIn_guarded {dots : String} (looks : o.dots? = some dots) :
    h.describeIn n (.object a) =
      if a ∈ n.guarded then .ok dots
      else h.describeObject (h.describeIn ⟨a :: n.guarded, []⟩) o := by
  simp only [describeIn, describeFrom, ho, looks, List.contains_iff_mem]
  split
  · rfl
  · rename_i new
    obtain ⟨inside, less⟩ := nests.guard ho new
    congr 1
    exact funext fun w => describeFrom_congr _ _ w inside less (Nat.lt_succ_self _)

theorem describeIn_unguarded (looks : o.dots? = none) :
    h.describeIn n (.object a) =
      if a ∈ n.unguarded then .error .endlessText
      else h.describeObject (h.describeIn ⟨n.guarded, a :: n.unguarded⟩) o := by
  simp only [describeIn, describeFrom, ho, looks, List.contains_iff_mem]
  split
  · rfl
  · rename_i new
    obtain ⟨inside, less⟩ := nests.enter ho new
    congr 1
    exact funext fun w => describeFrom_congr _ _ w inside less (Nat.lt_succ_self _)

end Equations

/-! ## Objects inside themselves -/

theorem exists_error_of_mapM {α β : Type} {F : α → Except NativeFault β} {xs : List α} {x : α}
    {why : NativeFault} (mem : x ∈ xs) (fails : F x = .error why) :
    ∃ why', xs.mapM F = .error why' := by
  induction xs with
  | nil => cases mem
  | cons y ys ih =>
      rw [List.mapM_cons]
      rcases List.mem_cons.mp mem with rfl | mem
      · rw [fails]
        exact ⟨why, rfl⟩
      · obtain ⟨why', rest⟩ := ih mem
        cases F y with
        | error why => exact ⟨why, rfl⟩
        | ok _ => rw [rest]; exact ⟨why', rfl⟩

/-- An instance that is the value of one of its fields has no text. -/
theorem describe_of_holds_itself {a : Address} {i : Instance} {name : String}
    (hi : h.get? a = some (.inst i)) (itself : i.fields.get? name = some (.object a)) :
    ∃ why, h.describe (.object a) = .error why := by
  have nests := nests_nil h
  have inside := (nests.enter hi List.not_mem_nil).1
  have again : h.describeIn ⟨[], [a]⟩ (.object a) = .error .endlessText := by
    rw [describeIn_unguarded inside hi rfl, if_pos (List.mem_singleton_self a)]
  have field : (name, Value.object a) ∈ i.fields.entries := Entries.mem_of_find? itself
  have fails : (h.describeIn ⟨[], [a]⟩ (.object a)).map (name ++ "=" ++ ·) =
      .error .endlessText := by
    rw [again]
    rfl
  obtain ⟨why, parts⟩ := exists_error_of_mapM
    (F := fun e : String × Value => (h.describeIn ⟨[], [a]⟩ e.2).map (e.1 ++ "=" ++ ·)) field fails
  refine ⟨why, ?_⟩
  rw [describe_eq_describeIn, describeIn_unguarded nests hi rfl, if_neg List.not_mem_nil,
    describeObject, parts]
  rfl

/-- Behind a list there is an end to it. -/
example :
    let holder : Object := .inst ⟨none, .ofList [("l", .object ⟨1⟩)], none, false⟩
    (Heap.mk #[holder, .list [.object ⟨0⟩]]).describe (.object ⟨0⟩) =
      .ok "Object(l=[Object(l=[...])])" := by
  decide +kernel

end OperatorDispatch.Heap
