/-
  Mcapi.Lib.Runs — runs of a labelled transition system.

  `Run step s ls s'`: from `s`, steps labelled `ls` lead to `s'`. What every step
  keeps, a run keeps (`Run.keeps`); what a step adds to a log, a run adds up
  (`Run.accumulates`). `Guarded step g` are the steps that meet a condition on the
  state before them, so a run of it is a run whose steps all meet the condition.
  `Turn step s ls l t`: when `ls` are tried one after the other, the turn of `l` comes
  in `t`, whether or not it can then be taken. `Run.switch` and `Run.visits_iff` are
  about a run and the steps of it that are marked.
-/

import Mathlib.Data.List.Basic

namespace Lts

variable {S L : Type}

inductive Run (step : S → L → S → Prop) : S → List L → S → Prop
  | nil (s : S) : Run step s [] s
  | cons {s t u : S} {l : L} {ls : List L} : step s l t → Run step t ls u → Run step s (l :: ls) u

def Reachable (step : S → L → S → Prop) (s t : S) : Prop := ∃ ls, Run step s ls t

def Guarded (step : S → L → S → Prop) (guard : S → L → Prop) (s : S) (l : L) (t : S) : Prop :=
  guard s l ∧ step s l t

/-- `l` is one of the labels `ls`, and those before it lead from `s` to `t`. -/
def Turn (step : S → L → S → Prop) (s : S) (ls : List L) (l : L) (t : S) : Prop :=
  ∃ pre post, ls = pre ++ l :: post ∧ Run step s pre t

/-- The run passes through `t`. -/
def Visits (step : S → L → S → Prop) (s : S) (ls : List L) (t : S) : Prop :=
  ∃ pre post, ls = pre ++ post ∧ Run step s pre t

variable {step : S → L → S → Prop}

theorem Turn.single {s t : S} {l l' : L} (h : Turn step s [l] l' t) : l' = l ∧ t = s := by
  obtain ⟨pre, post, heq, hrun⟩ := h
  rcases List.append_eq_singleton_iff.mp heq.symm with ⟨rfl, hl⟩ | ⟨-, hl⟩
  · cases hl
    cases hrun
    exact ⟨rfl, rfl⟩
  · cases hl

theorem Turn.head {s : S} {l : L} {ls : List L} : Turn step s (l :: ls) l s := ⟨[], ls, rfl, .nil s⟩

theorem Turn.tail {s t u : S} {l l' : L} {ls : List L} (hs : step s l t) (h : Turn step t ls l' u) :
    Turn step s (l :: ls) l' u := by
  obtain ⟨pre, post, rfl, hrun⟩ := h
  exact ⟨l :: pre, post, rfl, .cons hs hrun⟩

namespace Run

theorem single {s t : S} {l : L} (h : step s l t) : Run step s [l] t := .cons h (.nil t)

theorem append {s t u : S} {ls ls' : List L} (h : Run step s ls t) (h' : Run step t ls' u) :
    Run step s (ls ++ ls') u := by
  induction h with
  | nil => exact h'
  | cons hs _ ih => exact .cons hs (ih h')

theorem of_append {s u : S} {ls ls' : List L} (h : Run step s (ls ++ ls') u) :
    ∃ t, Run step s ls t ∧ Run step t ls' u := by
  induction ls generalizing s with
  | nil => exact ⟨s, .nil s, h⟩
  | cons l ls ih =>
    cases h with
    | cons hs h =>
      obtain ⟨t, h1, h2⟩ := ih h
      exact ⟨t, .cons hs h1, h2⟩

theorem mono {step' : S → L → S → Prop} {s t : S} {ls : List L} (h : Run step s ls t)
    (hs : ∀ {s l t}, step s l t → step' s l t) : Run step' s ls t := by
  induction h with
  | nil s => exact .nil s
  | cons h1 _ ih => exact .cons (hs h1) ih

theorem of_guarded {guard : S → L → Prop} {s t : S} {ls : List L} (h : Run (Guarded step guard) s ls t) :
    Run step s ls t :=
  h.mono And.right

/-- A property that every step of the run keeps holds at its end. -/
theorem keeps {I : S → Prop} {s t : S} {ls : List L} (h : Run step s ls t)
    (hI : ∀ {s l t}, l ∈ ls → I s → step s l t → I t) (h0 : I s) : I t := by
  induction h with
  | nil => exact h0
  | cons hs _ ih =>
    exact ih (fun hl => hI (List.mem_cons_of_mem _ hl)) (hI List.mem_cons_self h0 hs)

/-- A relation between the state and a log to which each step adds `out l`. -/
theorem accumulates {A : Type} {out : L → List A} {R : S → List A → Prop} {s t : S} {ls : List L}
    (h : Run step s ls t) (hR : ∀ {s l t acc}, l ∈ ls → R s acc → step s l t → R t (acc ++ out l))
    {acc : List A} (h0 : R s acc) : R t (acc ++ ls.flatMap out) := by
  induction h generalizing acc with
  | nil => simpa using h0
  | cons hs _ ih =>
    rw [List.flatMap_cons, ← List.append_assoc]
    exact ih (fun hl => hR (List.mem_cons_of_mem _ hl)) (hR List.mem_cons_self h0 hs)

/-- Each label of a run has its turn. -/
theorem turn {s t : S} {l : L} {ls : List L} (h : Run step s ls t) (hl : l ∈ ls) : ∃ u, Turn step s ls l u := by
  obtain ⟨pre, post, rfl⟩ := List.append_of_mem hl
  obtain ⟨u, hpre, -⟩ := h.of_append
  exact ⟨u, pre, post, rfl, hpre⟩

/-- Where a step keeps `P` exactly if it is not marked, and `P` holds at the start: all states of
    a run have `P` exactly if no step of it is marked. -/
theorem visits_iff {I P : S → Prop} {mark : S → L → Prop} {s t : S} {ls : List L} (h : Run step s ls t)
    (hdet : ∀ {s l t u}, step s l t → step s l u → t = u) (hI : ∀ {s l t}, I s → step s l t → I t)
    (hP : ∀ {s l t}, I s → P s → step s l t → (P t ↔ ¬ mark s l)) (h0 : I s) (hP0 : P s) :
    (∀ u, Visits step s ls u → P u) ↔ ∀ l u, Turn step s ls l u → ¬ mark u l := by
  induction h with
  | nil s =>
    refine ⟨fun _ l u hu => ?_, fun _ u hu => ?_⟩
    · obtain ⟨pre, post, heq, -⟩ := hu
      simp at heq
    · obtain ⟨pre, post, heq, hrun⟩ := hu
      obtain ⟨rfl, rfl⟩ := List.append_eq_nil_iff.mp heq.symm
      cases hrun
      exact hP0
  | @cons s t v l ls hs hrun ih =>
    constructor
    · intro hall l' u hu
      have ht : P t := hall t ⟨[l], ls, rfl, .single hs⟩
      obtain ⟨pre, post, heq, hpre⟩ := hu
      cases hpre with
      | nil =>
        cases heq
        exact (hP h0 hP0 hs).mp ht
      | cons hs' hpre' =>
        cases heq
        cases hdet hs hs'
        refine (ih (hI h0 hs) ht).mp (fun u hu => ?_) l' u ⟨_, post, rfl, hpre'⟩
        obtain ⟨pre, post, heq, hr⟩ := hu
        exact hall u ⟨l :: pre, post, by rw [heq, List.cons_append], .cons hs hr⟩
    · intro hno u hu
      obtain ⟨pre, post, heq, hpre⟩ := hu
      cases hpre with
      | nil => exact hP0
      | cons hs' hpre' =>
        cases heq
        cases hdet hs hs'
        have ht : P t := (hP h0 hP0 hs).mpr (hno l s .head)
        exact (ih (hI h0 hs) ht).mpr (fun l' u hu => hno l' u (hu.tail hs)) u ⟨_, post, rfl, hpre'⟩

/-- Where a label leads to one state only: `I` holds up to the first marked step, and `J`
    from then on. -/
theorem switch {I J : S → Prop} {mark : S → L → Prop} {s t : S} {ls : List L} (h : Run step s ls t)
    (hdet : ∀ {s l t u}, step s l t → step s l u → t = u)
    (hI : ∀ {s l t}, I s → step s l t → (¬ mark s l ∧ I t) ∨ (mark s l ∧ J t))
    (hJ : ∀ {s l t}, J s → step s l t → J t) (h0 : I s) :
    ((∀ l u, Turn step s ls l u → ¬ mark u l) ∧ I t) ∨ ((∃ l u, Turn step s ls l u ∧ mark u l) ∧ J t) := by
  induction h with
  | nil s =>
    refine .inl ⟨fun l u hu => ?_, h0⟩
    obtain ⟨pre, post, heq, -⟩ := hu
    simp at heq
  | cons hs hrun ih =>
    rcases hI h0 hs with ⟨hno, h1⟩ | ⟨hyes, h1⟩
    · rcases ih h1 with ⟨hall, ht⟩ | ⟨⟨l, u, hu, hmark⟩, ht⟩
      · refine .inl ⟨fun l u hu => ?_, ht⟩
        obtain ⟨pre, post, heq, hpre⟩ := hu
        cases hpre with
        | nil =>
          cases heq
          exact hno
        | cons hs' hpre' =>
          cases heq
          cases hdet hs hs'
          exact hall l u ⟨_, post, rfl, hpre'⟩
      · exact .inr ⟨⟨l, u, hu.tail hs, hmark⟩, ht⟩
    · exact .inr ⟨⟨_, _, .head, hyes⟩, hrun.keeps (fun _ => hJ) h1⟩

/-- Simulation: where each step is matched by one with the label's image, so is each run. -/
theorem simulated {S' L' : Type} {step' : S' → L' → S' → Prop} {R : S → S' → Prop} {lab : L → L'}
    (hstep : ∀ {s l t s'}, R s s' → step s l t → ∃ t', step' s' (lab l) t' ∧ R t t')
    {s t : S} {ls : List L} (h : Run step s ls t) {s' : S'} (h0 : R s s') :
    ∃ t', Run step' s' (ls.map lab) t' ∧ R t t' := by
  induction h generalizing s' with
  | nil s => exact ⟨s', .nil s', h0⟩
  | cons hs _ ih =>
    obtain ⟨t', hs', h1⟩ := hstep h0 hs
    obtain ⟨u', hr', h2⟩ := ih h1
    exact ⟨u', .cons hs' hr', h2⟩

/-- Weak simulation: where each step is matched by a run that shows the same label, so is each
    run. -/
theorem realised {S' L' : Type} {step' : S' → L' → S' → Prop} {R : S → S' → Prop} {shows : L' → Bool} {lab : L → L'}
    {ok : L → Prop} (hstep : ∀ {s l t s'}, R s s' → ok l → step s l t →
      ∃ ls t', Run step' s' ls t' ∧ ls.filter shows = [lab l] ∧ R t t')
    {s t : S} {ls : List L} (h : Run step s ls t) (hok : ∀ l ∈ ls, ok l) {s' : S'} (h0 : R s s') :
    ∃ ls' t', Run step' s' ls' t' ∧ ls'.filter shows = ls.map lab ∧ R t t' := by
  induction h generalizing s' with
  | nil s => exact ⟨[], s', .nil s', rfl, h0⟩
  | @cons s t u l ls hs _ ih =>
    obtain ⟨ls1, t', hr1, hf1, h1⟩ := hstep h0 (hok l List.mem_cons_self) hs
    obtain ⟨ls2, u', hr2, hf2, h2⟩ := ih (fun m hm => hok m (List.mem_cons_of_mem _ hm)) h1
    exact ⟨ls1 ++ ls2, u', hr1.append hr2, by rw [List.filter_append, hf1, hf2, List.map_cons]; rfl, h2⟩

end Run

theorem Reachable.refl (s : S) : Reachable step s s := ⟨[], .nil s⟩

theorem Reachable.tail {s t u : S} {l : L} (h : Reachable step s t) (hs : step t l u) : Reachable step s u := by
  obtain ⟨ls, h⟩ := h
  exact ⟨ls ++ [l], h.append (.single hs)⟩

/-- What holds at the start and is kept by every step holds wherever a run leads. -/
theorem Reachable.invariant {I : S → Prop} {s t : S} (h : Reachable step s t) (h0 : I s)
    (hI : ∀ {s l t}, I s → step s l t → I t) : I t := by
  obtain ⟨ls, h⟩ := h
  exact h.keeps (fun _ => hI) h0

end Lts
