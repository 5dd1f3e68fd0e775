/-
  Mcapi.Lib.Census — how many members of a family are in some condition.

  `Census f g n`: of the members `g` gives the state of, `n` meet `f`. There may be any
  number of members; one of them changes at a time (`Function.update`), and the count
  follows it (`enter`, `leave`, `stay`; `move` is the three together). A count of one is a
  name (`only`), a count of none a negation (`none_iff`).
-/

import Mathlib.Data.Set.Card

variable {P A : Type} {f : A → Prop} {g : P → A} {n : Nat} {p q : P} {a : A}

def Census (f : A → Prop) (g : P → A) (n : Nat) : Prop := {p | f (g p)}.encard = n

namespace Census

theorem card (h : Census f g n) : {p | f (g p)}.encard = n := h

theorem none_iff : Census f g 0 ↔ ∀ p, ¬ f (g p) := by
  rw [Census, Nat.cast_zero, Set.encard_eq_zero, Set.eq_empty_iff_forall_notMem]
  rfl

theorem unique {m : Nat} (h : Census f g n) (h' : Census f g m) : n = m := by
  have heq : (n : ℕ∞) = m := h.symm.trans h'
  exact_mod_cast heq

theorem pos (h : Census f g n) (hp : f (g p)) : 0 < n := by
  rcases Nat.eq_zero_or_pos n with rfl | hn
  · exact absurd hp (none_iff.mp h p)
  · exact hn

theorem exists_of_pos (h : Census f g n) (hn : 0 < n) : ∃ p, f (g p) := by
  by_contra hno
  have h0 : Census f g 0 := none_iff.mpr fun p hp => hno ⟨p, hp⟩
  have := h.unique h0
  omega

/-- Where at most one is counted, two that are counted are the same. -/
theorem only (h : Census f g n) (hn : n ≤ 1) (hp : f (g p)) (hq : f (g q)) : p = q := by
  have hle : {p | f (g p)}.encard ≤ 1 := by
    rw [h.card]
    exact_mod_cast hn
  exact Set.encard_le_one_iff.mp hle p q hp hq

/-- With one counted, another is not. -/
theorem other (h : Census f g n) (hn : n ≤ 1) (hp : f (g p)) (hq : q ≠ p) : ¬ f (g q) :=
  fun hf => hq (h.only hn hf hp)

theorem one_iff (h : Census f g n) (hp : f (g p)) : n = 1 ↔ ∀ q, q ≠ p → ¬ f (g q) := by
  constructor
  · rintro rfl q hq
    exact h.other (Nat.le_refl 1) hp hq
  · intro hall
    have hset : {q | f (g q)} = {p} := by
      ext q
      refine ⟨fun hq => ?_, fun hq => hq ▸ hp⟩
      by_contra hne
      exact hall q hne hq
    have hcard := h.card
    rw [hset, Set.encard_singleton] at hcard
    exact_mod_cast hcard.symm

section
variable [DecidableEq P]

theorem stay (h : Census f g n) (ha : f a ↔ f (g p)) : Census f (Function.update g p a) n := by
  have hset : {q | f (Function.update g p a q)} = {q | f (g q)} := by
    ext q
    by_cases hq : q = p
    · subst hq
      simp [ha]
    · simp [hq]
  rw [Census, hset]
  exact h

theorem enter (h : Census f g n) (hp : ¬ f (g p)) (ha : f a) : Census f (Function.update g p a) (n + 1) := by
  have hset : {q | f (Function.update g p a q)} = insert p {q | f (g q)} := by
    ext q
    by_cases hq : q = p
    · subst hq
      simp [ha]
    · simp [hq]
  have hnot : p ∉ {q | f (g q)} := hp
  rw [Census, hset, Set.encard_insert_of_notMem hnot, h.card]
  norm_cast

theorem leave (h : Census f g (n + 1)) (hp : f (g p)) (ha : ¬ f a) : Census f (Function.update g p a) n := by
  have hset : insert p {q | f (Function.update g p a q)} = {q | f (g q)} := by
    ext q
    by_cases hq : q = p
    · subst hq
      simp [hp]
    · simp [hq]
  have hnot : p ∉ {q | f (Function.update g p a q)} := by simpa using ha
  have hcard := Set.encard_insert_of_notMem hnot
  rw [hset, h.card, Nat.cast_succ] at hcard
  exact (ENat.add_left_injective_of_ne_top ENat.one_ne_top hcard).symm

/-- The count before and after one member changes. -/
theorem move [DecidablePred f] (h : Census f g n) (p : P) (a : A) :
    ∃ m, Census f (Function.update g p a) m ∧
      m + (if f (g p) then 1 else 0) = n + (if f a then 1 else 0) := by
  by_cases hp : f (g p) <;> by_cases ha : f a <;> simp only [hp, ha, if_true, if_false]
  · exact ⟨n, h.stay (by simp [hp, ha]), rfl⟩
  · obtain ⟨m, rfl⟩ := Nat.exists_eq_add_of_lt (h.pos hp)
    rw [Nat.zero_add] at h ⊢
    exact ⟨m, h.leave hp ha, rfl⟩
  · exact ⟨n + 1, h.enter hp ha, rfl⟩
  · exact ⟨n, h.stay (by simp [hp, ha]), rfl⟩

end

end Census
