/-
  Mcapi.Lib.FreeChain — singly linked lists kept in an array of links.

  Each index `i` of an array holds the link `next i` (`none` ends the list), and a
  head link says where the list starts. `Chain next h l`: following `next` from `h`
  visits exactly `l`, in order, and ends. A link that is followed determines the
  rest of the walk, so a chain that ends never visits an index twice (`Chain.nodup`).

  `FreeList free next h` is what a pool of reusable slots needs: the walk from `h`
  ends and visits exactly the slots `free` holds of. Taking the head off (`pop`) and
  putting a slot in front (`push`) keep it.
-/

import Mathlib.Data.Fin.Basic
import Mathlib.Data.List.Nodup
import Mathlib.Logic.Function.Basic

namespace FreeChain

variable {ι : Type} {next : ι → Option ι}

/-- Following `next` from the link `h` visits exactly `l`, in order, and ends. -/
def Chain (next : ι → Option ι) : Option ι → List ι → Prop
  | h, [] => h = none
  | h, i :: l => h = some i ∧ Chain next (next i) l

@[simp] theorem chain_nil {h : Option ι} : Chain next h [] ↔ h = none := Iff.rfl

@[simp] theorem chain_cons {h : Option ι} {i : ι} {l : List ι} :
    Chain next h (i :: l) ↔ h = some i ∧ Chain next (next i) l := Iff.rfl

namespace Chain

theorem unique {h : Option ι} {l l' : List ι} (hl : Chain next h l) (hl' : Chain next h l') : l = l' := by
  induction l generalizing h l' with
  | nil =>
    cases l' with
    | nil => rfl
    | cons j l' => rw [chain_nil] at hl; rw [chain_cons, hl] at hl'; cases hl'.1
  | cons i l ih =>
    cases l' with
    | nil => rw [chain_nil] at hl'; rw [chain_cons, hl'] at hl; cases hl.1
    | cons j l' =>
      obtain ⟨rfl, hl⟩ := hl
      obtain ⟨hij, hl'⟩ := hl'
      cases hij
      rw [ih hl hl']

/-- The walk from an index on a chain is the rest of that chain. -/
theorem drop {h : Option ι} {l₁ l₂ : List ι} {i : ι} (hl : Chain next h (l₁ ++ i :: l₂)) :
    Chain next (some i) (i :: l₂) := by
  induction l₁ generalizing h with
  | nil => exact ⟨rfl, hl.2⟩
  | cons j l₁ ih => exact ih hl.2

/-- A walk that ends is acyclic. -/
theorem nodup {h : Option ι} {l : List ι} (hl : Chain next h l) : l.Nodup := by
  induction l generalizing h with
  | nil => exact List.nodup_nil
  | cons i l ih =>
    refine List.nodup_cons.mpr ⟨fun hi => ?_, ih hl.2⟩
    -- a second visit of `i` would make the rest of the walk a proper part of itself
    obtain ⟨l₁, l₂, rfl⟩ := List.append_of_mem hi
    have hrest : Chain next (some i) (i :: (l₁ ++ i :: l₂)) := ⟨rfl, hl.2⟩
    have := congrArg List.length (hrest.unique (drop hl.2))
    simp only [List.length_cons, List.length_append] at this
    omega

/-- A chain only depends on the links of the indices it visits. -/
theorem congr {next' : ι → Option ι} {h : Option ι} {l : List ι} (hl : Chain next h l)
    (he : ∀ i ∈ l, next' i = next i) : Chain next' h l := by
  induction l generalizing h with
  | nil => exact hl
  | cons i l ih =>
    refine ⟨hl.1, ?_⟩
    rw [he i List.mem_cons_self]
    exact ih hl.2 fun j hj => he j (List.mem_cons_of_mem _ hj)

/-- Rewriting the link of an index the walk does not visit leaves the walk alone. -/
theorem update [DecidableEq ι] {h x : Option ι} {l : List ι} {i : ι} (hl : Chain next h l) (hi : i ∉ l) :
    Chain (Function.update next i x) h l :=
  hl.congr fun _ hj => Function.update_of_ne (ne_of_mem_of_not_mem hj hi) _ _

end Chain

/-- The walk from `h` ends, and visits exactly the slots that are free. -/
def FreeList (free : ι → Prop) (next : ι → Option ι) (h : Option ι) : Prop :=
  ∃ l, Chain next h l ∧ ∀ i, i ∈ l ↔ free i

namespace FreeList

variable {free : ι → Prop} {h : Option ι} {i : ι}

theorem congr {free' : ι → Prop} (hf : FreeList free next h) (he : ∀ i, free' i ↔ free i) :
    FreeList free' next h := by
  obtain ⟨l, hl, hm⟩ := hf
  exact ⟨l, hl, fun i => (hm i).trans (he i).symm⟩

theorem head_free (hf : FreeList free next (some i)) : free i := by
  obtain ⟨l, hl, hm⟩ := hf
  cases l with
  | nil => cases hl
  | cons j l => cases hl.1; exact (hm i).mp List.mem_cons_self

theorem none_iff (hf : FreeList free next h) : h = none ↔ ∀ i, ¬ free i := by
  obtain ⟨l, hl, hm⟩ := hf
  cases l with
  | nil => exact ⟨fun _ i hi => List.not_mem_nil ((hm i).mpr hi), fun _ => hl⟩
  | cons j l =>
    refine ⟨fun hn => ?_, fun hn => absurd ((hm j).mp List.mem_cons_self) (hn j)⟩
    rw [hl.1] at hn; cases hn

/-- Taking the head off: the slot it names is no longer free, nothing else changes. -/
theorem pop (hf : FreeList free next (some i)) : FreeList (fun j => free j ∧ j ≠ i) next (next i) := by
  obtain ⟨l, hl, hm⟩ := hf
  cases l with
  | nil => cases hl
  | cons j l =>
    have hnd := hl.nodup
    obtain ⟨hj, hl⟩ := hl
    cases hj
    refine ⟨l, hl, fun k => ⟨fun hk => ⟨(hm k).mp (List.mem_cons_of_mem _ hk), ?_⟩, fun hk => ?_⟩⟩
    · intro e; subst e; exact (List.nodup_cons.mp hnd).1 hk
    · exact (List.mem_cons.mp ((hm k).mpr hk.1)).resolve_left hk.2

/-- Putting a slot that is not free in front: it is free now, nothing else changes. -/
theorem push [DecidableEq ι] (hf : FreeList free next h) (hi : ¬ free i) :
    FreeList (fun j => free j ∨ j = i) (Function.update next i h) (some i) := by
  obtain ⟨l, hl, hm⟩ := hf
  have hil : i ∉ l := fun hmem => hi ((hm i).mp hmem)
  refine ⟨i :: l, ⟨rfl, ?_⟩, ?_⟩
  · rw [Function.update_self]; exact hl.update hil
  · intro j
    rw [List.mem_cons, hm j, or_comm]

end FreeList

/-! ## The list in array order -/

/-- Every slot linked to the one after it. -/
def ascending (n : Nat) (i : Fin n) : Option (Fin n) := if h : i.val + 1 < n then some ⟨i.val + 1, h⟩ else none

theorem ascending_chain {n : Nat} : ∀ (k : Nat) (hk : k < n),
    ∃ l, Chain (ascending n) (some ⟨k, hk⟩) l ∧ ∀ i : Fin n, i ∈ l ↔ k ≤ i.val := by
  suffices ∀ d k (hk : k < n), n - k = d + 1 →
      ∃ l, Chain (ascending n) (some ⟨k, hk⟩) l ∧ ∀ i : Fin n, i ∈ l ↔ k ≤ i.val from
    fun k hk => this (n - k - 1) k hk (by omega)
  intro d
  induction d with
  | zero =>
    intro k hk hd
    refine ⟨[⟨k, hk⟩], ⟨rfl, ?_⟩, ?_⟩
    · rw [chain_nil, ascending, dif_neg (by simp only; omega)]
    · intro i
      simp only [List.mem_singleton, Fin.ext_iff]; omega
  | succ d ih =>
    intro k hk hd
    obtain ⟨l, hl, hm⟩ := ih (k + 1) (by omega) (by omega)
    refine ⟨⟨k, hk⟩ :: l, ⟨rfl, ?_⟩, ?_⟩
    · rw [ascending, dif_pos (by simp only; omega)]; exact hl
    · intro i
      simp only [List.mem_cons, hm i, Fin.ext_iff]; omega

/-- With every slot free, the list in array order is a free list. -/
theorem ascending_freeList {n : Nat} {free : Fin (n + 1) → Prop} (hf : ∀ i, free i) :
    FreeList free (ascending (n + 1)) (some 0) := by
  obtain ⟨l, hl, hm⟩ := ascending_chain (n := n + 1) 0 (Nat.succ_pos n)
  exact ⟨l, hl, fun i => ⟨fun _ => hf i, fun _ => (hm i).mpr (Nat.zero_le _)⟩⟩

end FreeChain
