/-
  Mcapi.Lib.Tables — searching a table of `n` entries from its front.

  A loop that stops at the first entry with a property is `(List.finRange n).find?`;
  `find_eq_some_iff` says which entry it finds. A loop over all of them that does something
  in one round only is that round (`foldlM_only`). `Prefix f k`: the entries of `f` that
  are in use are the first `k`. Then the first one that is not is entry `k`
  (`Prefix.find_free`), and using it makes the prefix one longer (`Prefix.extend`).
-/

import Mathlib.Data.List.OfFn
import Mathlib.Logic.Function.Basic

namespace Tables

variable {n : Nat} {p f : Fin n → Bool} {i : Fin n}

/-! ## The first entry with a property -/

theorem find_eq_some_iff : (List.finRange n).find? p = some i ↔ p i = true ∧ ∀ j < i, p j = false := by
  have h := List.find?_ofFn_eq_some_of_injective (p := p) (i := i) (f := fun i : Fin n => i) fun _ _ h => h
  simpa [List.finRange] using h

theorem find_eq_none_iff : (List.finRange n).find? p = none ↔ ∀ j, p j = false := by
  simp [List.find?_eq_none]

/-- The only one there is. -/
theorem find_unique (hi : p i = true) (hu : ∀ j, p j = true → j = i) : (List.finRange n).find? p = some i := by
  refine find_eq_some_iff.mpr ⟨hi, fun j hj => ?_⟩
  rw [← Bool.not_eq_true]
  intro hpj
  exact absurd (hu j hpj) hj.ne

/-! ## Loops that may fail -/

section
variable {ε α β : Type} {f : β → α → Except ε β} {a : α} {l : List α}

/-- A loop that does nothing in any round does nothing. -/
theorem foldlM_skip (h : ∀ x ∈ l, ∀ b, f b x = .ok b) (b : β) : l.foldlM f b = .ok b := by
  induction l with
  | nil => rfl
  | cons x l ih =>
    rw [List.foldlM_cons, h x List.mem_cons_self]
    exact ih fun y hy => h y (List.mem_cons_of_mem x hy)

/-- One that does something in a single round does what it does there. -/
theorem foldlM_only (hl : l.Nodup) (ha : a ∈ l) (h : ∀ x ∈ l, x ≠ a → ∀ b, f b x = .ok b) (b : β) :
    l.foldlM f b = f b a := by
  induction l with
  | nil => cases ha
  | cons x l ih =>
    obtain ⟨hx, hl⟩ := List.nodup_cons.mp hl
    rw [List.foldlM_cons]
    by_cases hxa : x = a
    · subst hxa
      have hrest : ∀ y ∈ l, ∀ b, f b y = .ok b := by
        intro y hy
        exact h y (List.mem_cons_of_mem x hy) fun he => hx (he ▸ hy)
      cases f b x with
      | error e => rfl
      | ok b1 => exact foldlM_skip hrest b1
    · rw [h x List.mem_cons_self hxa]
      exact ih hl ((List.mem_cons.mp ha).resolve_left (Ne.symm hxa)) fun y hy => h y (List.mem_cons_of_mem x hy)

end

/-! ## Tables filled from the front -/

/-- The entries in use are the first `k`. -/
def Prefix (f : Fin n → Bool) (k : Nat) : Prop := ∀ i, f i = true ↔ i.val < k

variable {k : Nat}

theorem Prefix.find_free (h : Prefix f k) (hi : (List.finRange n).find? (fun i => !f i) = some i) : i.val = k := by
  obtain ⟨hfree, hbefore⟩ := find_eq_some_iff.mp hi
  have hge : ¬ i.val < k := by
    intro hlt
    rw [(h i).mpr hlt] at hfree
    cases hfree
  by_contra hne
  have hk : k < n := by omega
  have hused := hbefore ⟨k, hk⟩ (show k < i.val by omega)
  have hlt := (h ⟨k, hk⟩).mp (by simpa using hused)
  exact absurd hlt (Nat.lt_irrefl k)

theorem Prefix.extend (h : Prefix f k) (hi : i.val = k) : Prefix (Function.update f i true) (k + 1) := by
  intro j
  by_cases hj : j = i
  · subst hj
    simp [hi]
  · have hne : j.val ≠ k := by
      intro he
      exact hj (Fin.ext (he.trans hi.symm))
    rw [Function.update_of_ne hj, h j]
    omega

end Tables
