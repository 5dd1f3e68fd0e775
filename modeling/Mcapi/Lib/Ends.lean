/-
  Mcapi.Lib.Ends — how computations that may fail end.

  `Ends Q m`: if `m` returns, its result and the state it leaves meet `Q`. A failure meets
  every postcondition. There is one rule for each way to put such a computation together,
  so that what holds on every path that returns is read off its text.

  `Fails m`: it does not return. Here the rules are equivalences, so that exactly what makes
  a computation fail is read off its text.
-/

import Mathlib.Init

namespace Outcome

variable {F A C W : Type}

def Ends (Q : A → W → Prop) (m : Except F (A × W)) : Prop := ∀ a w, m = .ok (a, w) → Q a w

namespace Ends

variable {P : C → W → Prop} {Q : A → W → Prop}

theorem ok {a : A} {w : W} (h : Q a w) : Ends Q (.ok (a, w) : Except F (A × W)) := by
  intro b w' he
  cases he
  exact h

theorem error {f : F} : Ends Q (.error f) := by
  intro a w he
  cases he

/-- After a computation with no state of its own, with what it returned. -/
theorem bind {m : Except F C} {f : C → Except F (A × W)} (h : ∀ c, m = .ok c → Ends Q (f c)) : Ends Q (m >>= f) := by
  intro a w he
  cases hm : m with
  | error e =>
    rw [hm] at he
    cases he
  | ok c =>
    rw [hm] at he
    exact h c hm a w he

/-- After a search, by whether it found anything. -/
theorem found {m : Except F (Option C)} {f : Option C → Except F (A × W)} (hnone : Ends Q (f none))
    (hsome : ∀ c, Ends Q (f (some c))) : Ends Q (m >>= f) := by
  refine bind fun o _ => ?_
  cases o with
  | none => exact hnone
  | some c => exact hsome c

/-- After one that has its own postcondition. -/
theorem andThen {m : Except F (C × W)} {f : C × W → Except F (A × W)} (hm : Ends P m)
    (h : ∀ c w, P c w → Ends Q (f (c, w))) : Ends Q (m >>= f) :=
  bind fun x hx => h x.1 x.2 (hm x.1 x.2 hx)

theorem ite {p : Prop} [Decidable p] {m m' : Except F (A × W)} (h : Ends Q m) (h' : Ends Q m') :
    Ends Q (if p then m else m') := by
  split
  · exact h
  · exact h'

end Ends

/-! ## Failing -/

def Fails (m : Except F A) : Prop := ∃ f, m = .error f

section
variable {m : Except F C} {f : C → Except F A}

theorem fails_error (e : F) : Fails (.error e : Except F A) := ⟨e, rfl⟩

theorem not_fails_ok (a : A) : ¬ Fails (.ok a : Except F A) := by
  intro h
  obtain ⟨e, he⟩ := h
  cases he

theorem not_fails_iff : ¬ Fails m ↔ ∃ c, m = .ok c := by
  cases m with
  | error e => exact ⟨fun h => absurd (fails_error e) h, fun h => by obtain ⟨c, hc⟩ := h; cases hc⟩
  | ok c => exact ⟨fun _ => ⟨c, rfl⟩, fun _ => not_fails_ok c⟩

theorem fails_bind : Fails (m >>= f) ↔ Fails m ∨ ∃ c, m = .ok c ∧ Fails (f c) := by
  cases m with
  | error e => exact ⟨fun _ => .inl (fails_error e), fun _ => fails_error e⟩
  | ok c =>
    constructor
    · intro h
      exact .inr ⟨c, rfl, h⟩
    · intro h
      rcases h with h | ⟨c', hc, h⟩
      · exact absurd h (not_fails_ok c)
      · cases hc
        exact h

/-- Followed by what returns on each result it has, it fails where it fails itself. -/
theorem fails_bind_of (h : ∀ c, m = .ok c → ¬ Fails (f c)) : Fails (m >>= f) ↔ Fails m := by
  rw [fails_bind, or_iff_left]
  intro hc
  obtain ⟨c, hc, hf⟩ := hc
  exact h c hc hf

/-- Followed by what does not depend on its result. -/
theorem fails_bind_const {m' : Except F A} : Fails (m >>= fun _ => m') ↔ Fails m ∨ Fails m' := by
  rw [fails_bind]
  constructor
  · intro h
    exact h.imp id fun ⟨_, _, h⟩ => h
  · intro h
    by_cases hm : Fails m
    · exact .inl hm
    · obtain ⟨c, hc⟩ := not_fails_iff.mp hm
      exact .inr ⟨c, hc, h.resolve_left hm⟩

theorem fails_ite {p : Prop} [Decidable p] {m m' : Except F A} :
    Fails (if p then m else m') ↔ (p ∧ Fails m) ∨ (¬ p ∧ Fails m') := by
  by_cases h : p
  · rw [if_pos h]
    simp [h]
  · rw [if_neg h]
    simp [h]

/-- A loop whose rounds fail whatever came before fails where one of its rounds does. -/
theorem fails_foldlM {X : Type} {g : A → X → Except F A} {P : X → Prop} (h : ∀ a x, Fails (g a x) ↔ P x)
    (l : List X) (a : A) : Fails (l.foldlM g a) ↔ ∃ x ∈ l, P x := by
  induction l generalizing a with
  | nil =>
    refine ⟨fun hf => absurd hf (not_fails_ok a), fun hb => ?_⟩
    obtain ⟨x, hx, -⟩ := hb
    cases hx
  | cons x l ih =>
    rw [List.foldlM_cons, fails_bind, h a x]
    simp only [List.mem_cons, exists_eq_or_imp]
    by_cases hx : P x
    · simp [hx]
    · obtain ⟨b, hb⟩ := not_fails_iff.mp fun hf => hx ((h a x).mp hf)
      simp [hx, hb, ih]

end

end Outcome
