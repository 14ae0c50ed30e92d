import Mathlib.Algebra.BigOperators.Group.List.Basic
import Mathlib.Algebra.GroupWithZero.Nat
import Mathlib.Data.List.Nodup
import OperatorDispatch.Proofs.Objects

/-!
# Closures

`Heap.closure` follows references from its roots, and these are the facts about
it on which copying rests.  It lists objects that copies have of their own, each
once; it lists nothing that the roots do not lead to; and, because its fuel
outlasts the references still to be followed, it misses nothing: it contains
every such root and is closed under references.
-/

namespace OperatorDispatch
namespace Heap

variable {h : Heap} {roots : List Address} {a b : Address} {o : Object}

theorem copied?_eq_some : h.copied? a = some o ↔ h.get? a = some o ∧ o.isCopied = true := by
  unfold copied?
  cases h.get? a with
  | none => simp
  | some p =>
      by_cases hp : p.isCopied = true
      · simp only [hp, if_true, Option.some.injEq]
        exact ⟨fun e => ⟨e, e ▸ hp⟩, fun e => e.1⟩
      · simp only [hp, Option.some.injEq]
        exact ⟨fun e => (Option.some_ne_none _ e.symm).elim, fun e => (hp (e.1 ▸ e.2)).elim⟩

/-! ## Nothing but what the roots lead to -/

/-- What holds of the roots and is handed on by references holds of the whole
closure. -/
theorem closureFrom_induction {P : Address → Prop}
    (step : ∀ a o, P a → h.copied? a = some o → ∀ b ∈ o.references, P b) :
    ∀ (fuel : Nat) (pending seen : List Address), (∀ a ∈ pending, P a) → (∀ a ∈ seen, P a) →
      ∀ a ∈ h.closureFrom fuel pending seen, P a := by
  intro fuel
  induction fuel with
  | zero => exact fun _ _ _ hseen => hseen
  | succ fuel ih =>
      intro pending seen hpending hseen
      cases pending with
      | nil => exact hseen
      | cons a pending =>
          have hrest : ∀ b ∈ pending, P b := fun b hb => hpending b (List.mem_cons_of_mem _ hb)
          have ha : P a := hpending a List.mem_cons_self
          simp only [closureFrom]
          cases ho : h.copied? a with
          | none => exact ih pending seen hrest hseen
          | some o =>
              dsimp only
              split
              · exact ih pending seen hrest hseen
              · refine ih _ _ ?_ ?_
                · intro b hb
                  rcases List.mem_append.mp hb with hb | hb
                  · exact step a o ha ho b hb
                  · exact hrest b hb
                · intro b hb
                  rcases List.mem_append.mp hb with hb | hb
                  · exact hseen b hb
                  · exact List.mem_singleton.mp hb ▸ ha

theorem closure_induction {P : Address → Prop}
    (step : ∀ a o, P a → h.copied? a = some o → ∀ b ∈ o.references, P b)
    (hroots : ∀ a ∈ roots, P a) : ∀ a ∈ h.closure roots, P a :=
  closureFrom_induction step _ _ _ hroots (fun _ ha => absurd ha List.not_mem_nil)

/-! ## Copied objects, each once -/

theorem closureFrom_copied :
    ∀ (fuel : Nat) (pending seen : List Address),
      (seen.Nodup ∧ ∀ a ∈ seen, ∃ o, h.copied? a = some o) →
      (h.closureFrom fuel pending seen).Nodup ∧
        ∀ a ∈ h.closureFrom fuel pending seen, ∃ o, h.copied? a = some o := by
  intro fuel
  induction fuel with
  | zero => exact fun _ _ hseen => hseen
  | succ fuel ih =>
      intro pending seen hseen
      cases pending with
      | nil => exact hseen
      | cons a pending =>
          simp only [closureFrom]
          cases ho : h.copied? a with
          | none => exact ih pending seen hseen
          | some o =>
              dsimp only
              split
              · exact ih pending seen hseen
              · rename_i hnew
                have hnew : a ∉ seen := by simpa using hnew
                refine ih _ _ ⟨?_, ?_⟩
                · rw [List.nodup_append]
                  refine ⟨hseen.1, List.nodup_singleton a, ?_⟩
                  intro b hb c hc hbc
                  exact hnew (List.mem_singleton.mp hc ▸ hbc ▸ hb)
                · intro b hb
                  rcases List.mem_append.mp hb with hb | hb
                  · exact hseen.2 b hb
                  · exact ⟨o, List.mem_singleton.mp hb ▸ ho⟩

theorem nodup_closure (h : Heap) (roots : List Address) : (h.closure roots).Nodup :=
  (closureFrom_copied _ _ [] ⟨List.nodup_nil, by simp⟩).1

theorem copied?_of_mem_closure (ha : a ∈ h.closure roots) : ∃ o, h.copied? a = some o :=
  (closureFrom_copied _ _ [] ⟨List.nodup_nil, by simp⟩).2 a ha

/-! ## Nothing is missed

Each round takes one reference off the pending ones, and an object puts its
references there once, so what is pending together with the references of the
objects not yet seen goes down by one in every round. -/

/-- The number of references that the object at an address holds. -/
def fanOut (h : Heap) (a : Address) : Nat :=
  ((h.get? a).map fun o => o.references.length).getD 0

/-- Every address in use. -/
def addresses (h : Heap) : List Address :=
  (List.range h.size).map Address.mk

/-- The number of references held by objects not among `seen`. -/
def unseen (h : Heap) (seen : List Address) : Nat :=
  ((h.addresses.filter fun a => decide (a ∉ seen)).map h.fanOut).sum

theorem mem_addresses : a ∈ h.addresses ↔ a.index < h.size := by
  obtain ⟨n⟩ := a
  simp [addresses]

theorem nodup_addresses (h : Heap) : h.addresses.Nodup :=
  List.nodup_range.map fun _ _ e => congrArg Address.index e

theorem unseen_nil (h : Heap) : h.unseen [] = h.referenceCount := by
  have count : ∀ (os : List Object) (n : Nat),
      os.foldl (fun n o => n + o.references.length) n
        = n + (os.map fun o => o.references.length).sum := by
    intro os
    induction os with
    | nil => simp
    | cons o os ih => intro n; rw [List.foldl_cons, ih]; simp [Nat.add_assoc]
  have same : h.addresses.map h.fanOut = h.objects.toList.map fun o => o.references.length := by
    refine List.ext_getElem (by simp [addresses, size]) ?_
    intro n hn hn'
    have hn : n < h.objects.size := by simpa using hn'
    simp [addresses, fanOut, get?, hn]
  have all : (h.addresses.filter fun a => decide (a ∉ ([] : List Address))) = h.addresses :=
    List.filter_eq_self.mpr (by simp)
  rw [unseen, all, same, referenceCount, ← Array.foldl_toList, count]
  simp

theorem unseen_append {seen : List Address} (ho : h.get? a = some o) (ha : a ∉ seen) :
    o.references.length + h.unseen (seen ++ [a]) = h.unseen seen := by
  have hmem : a ∈ h.addresses.filter fun a => decide (a ∉ seen) := by
    simp [mem_addresses, lt_size_of_get? ho, ha]
  have hsplit : (h.addresses.filter fun b => decide (b ∉ seen ++ [a]))
      = (h.addresses.filter fun b => decide (b ∉ seen)).erase a := by
    rw [((nodup_addresses h).filter _).erase_eq_filter, List.filter_filter]
    refine List.filter_congr fun b _ => ?_
    by_cases hba : b = a <;> simp [hba]
  have hfan : h.fanOut a = o.references.length := by simp [fanOut, ho]
  rw [unseen, hsplit, ← hfan, unseen, List.sum_map_erase h.fanOut hmem]

/-- What a seen object refers to is seen or pending, if it is copied at all. -/
def Settled (h : Heap) (pending seen : List Address) : Prop :=
  ∀ a ∈ seen, ∀ o, h.copied? a = some o → ∀ b ∈ o.references, (h.copied? b).isSome →
    b ∈ seen ∨ b ∈ pending

namespace Settled

variable {pending seen : List Address} (hf : h.Settled (a :: pending) seen)

include hf

/-- An address that is not copied, or was seen before, need not be followed. -/
theorem drop (ha : (h.copied? a).isSome → a ∈ seen) : h.Settled pending seen := by
  intro c hc p hp b hb hcopied
  rcases hf c hc p hp b hb hcopied with hb | hb
  · exact .inl hb
  · rcases List.mem_cons.mp hb with rfl | hb
    · exact .inl (ha hcopied)
    · exact .inr hb

theorem visit (ho : h.copied? a = some o) :
    h.Settled (o.references ++ pending) (seen ++ [a]) := by
  intro c hc p hp b hb hcopied
  rcases List.mem_append.mp hc with hc | hc
  · rcases hf c hc p hp b hb hcopied with hb | hb
    · exact .inl (List.mem_append_left _ hb)
    · rcases List.mem_cons.mp hb with rfl | hb
      · exact .inl (List.mem_append_right _ List.mem_cons_self)
      · exact .inr (List.mem_append_right _ hb)
  · obtain rfl := List.mem_singleton.mp hc
    cases ho.symm.trans hp
    exact .inr (List.mem_append_left _ hb)

end Settled

/-- With enough fuel, everything seen or pending ends up in the closure, and
so does everything that its members refer to. -/
theorem closureFrom_complete :
    ∀ (fuel : Nat) (pending seen : List Address), pending.length + h.unseen seen < fuel →
      h.Settled pending seen →
      (∀ a, a ∈ seen ∨ a ∈ pending → (h.copied? a).isSome →
        a ∈ h.closureFrom fuel pending seen) ∧
      h.Settled [] (h.closureFrom fuel pending seen) := by
  intro fuel
  induction fuel with
  | zero => intro _ _ hfuel; omega
  | succ fuel ih =>
      intro pending seen hfuel hf
      cases pending with
      | nil => exact ⟨fun a ha _ => ha.resolve_right List.not_mem_nil, hf⟩
      | cons a pending =>
          simp only [List.length_cons] at hfuel
          have dropped : ((h.copied? a).isSome → a ∈ seen) →
              (∀ c, c ∈ seen ∨ c ∈ a :: pending → (h.copied? c).isSome →
                c ∈ h.closureFrom fuel pending seen) ∧
              h.Settled [] (h.closureFrom fuel pending seen) := by
            intro ha
            obtain ⟨hall, hclosed⟩ := ih pending seen (by omega) (hf.drop ha)
            refine ⟨fun c hc hcopied => hall c ?_ hcopied, hclosed⟩
            rcases hc with hc | hc
            · exact .inl hc
            · rcases List.mem_cons.mp hc with rfl | hc
              · exact .inl (ha hcopied)
              · exact .inr hc
          simp only [closureFrom]
          cases ho : h.copied? a with
          | none => exact dropped (by simp [ho])
          | some o =>
              dsimp only
              split
              · rename_i hold
                exact dropped fun _ => by simpa using hold
              · rename_i hnew
                have hnew : a ∉ seen := by simpa using hnew
                have hweight := unseen_append (copied?_eq_some.mp ho).1 hnew
                obtain ⟨hall, hclosed⟩ := ih (o.references ++ pending) (seen ++ [a])
                  (by simp only [List.length_append]; omega) (hf.visit ho)
                refine ⟨fun c hc hcopied => hall c ?_ hcopied, hclosed⟩
                rcases hc with hc | hc
                · exact .inl (List.mem_append_left _ hc)
                · rcases List.mem_cons.mp hc with rfl | hc
                  · exact .inl (List.mem_append_right _ List.mem_cons_self)
                  · exact .inr (List.mem_append_right _ hc)

theorem closure_complete (h : Heap) (roots : List Address) :
    (∀ a ∈ roots, (h.copied? a).isSome → a ∈ h.closure roots) ∧
      h.Settled [] (h.closure roots) := by
  have hfuel : roots.length + h.unseen [] < roots.length + h.referenceCount + 1 := by
    rw [unseen_nil]
    omega
  obtain ⟨hall, hclosed⟩ := closureFrom_complete _ roots [] hfuel (by simp [Settled])
  exact ⟨fun a ha => hall a (.inr ha), hclosed⟩

theorem mem_closure_of_root (ha : a ∈ roots) (ho : h.copied? a = some o) :
    a ∈ h.closure roots :=
  (closure_complete h roots).1 a ha (by simp [ho])

theorem mem_closure_of_reference {p : Object} (ha : a ∈ h.closure roots)
    (ho : h.get? a = some o) (hb : b ∈ o.references) (hp : h.copied? b = some p) :
    b ∈ h.closure roots := by
  obtain ⟨o', ho'⟩ := copied?_of_mem_closure ha
  have same : o' = o := Option.some.inj ((copied?_eq_some.mp ho').1.symm.trans ho)
  have followed := (closure_complete h roots).2 a ha o (same ▸ ho') b hb (by simp [hp])
  exact followed.resolve_right List.not_mem_nil

end Heap
end OperatorDispatch
