/-
  Mcapi.Lib.Hidden — machines with an input nobody chooses.

  A step takes a hidden input beside its own and fails or lets something out. Two machines
  are compared by what can be seen of an output: their runs are `Alike` if neither fails
  and they let out what looks the same. If one step of each is alike, whatever the hidden
  input of the second, exactly under a condition, then a run of the second is like one of
  the first exactly if the condition holds at every step of that (`outputs_alike_iff`).

  A step is `Blind` in a state if it does not fail there and the hidden input makes no
  difference to it. The runs of one machine that are the same for all hidden inputs are
  those in which every step is blind in the state it finds (`outputs_blind_iff`).
-/

import Mathlib.Data.List.Basic

namespace Hidden

variable {H S I F O V : Type} (step : H → S → I → Except F O) (next : O → S)

/-- What a run lets out, up to the first failure; `hs n` is the `n`-th hidden input. -/
def outputs : S → List I → (Nat → H) → List (Except F O)
  | _, [], _ => []
  | s, i :: is, hs =>
    match step (hs 0) s i with
    | .error f => [.error f]
    | .ok o => .ok o :: outputs (next o) is fun n => hs (n + 1)

/-- Every input of the run is `P` in the state it finds, with these hidden inputs. -/
def During (P : S → I → Prop) : S → List I → (Nat → H) → Prop
  | _, [], _ => True
  | s, i :: is, hs => P s i ∧ ∀ o, step (hs 0) s i = .ok o → During P (next o) is fun n => hs (n + 1)

/-- Neither run fails, and they look the same. -/
def Alike (see : O → V) (xs ys : List (Except F O)) : Prop :=
  ∃ os os' : List O, xs = os.map .ok ∧ ys = os'.map .ok ∧ os.map see = os'.map see

variable {step next} {see : O → V}

theorem During.mono {P Q : S → I → Prop} (hPQ : ∀ s i, P s i → Q s i) {s : S} {is : List I} {hs : Nat → H}
    (h : During step next P s is hs) : During step next Q s is hs := by
  induction is generalizing s hs with
  | nil => trivial
  | cons i is ih => exact ⟨hPQ s i h.1, fun o ho => ih (h.2 o ho)⟩

/-! ## Runs that look alike -/

theorem ok_map_inj {os os' : List O} (h : os.map Except.ok = os'.map (Except.ok (ε := F))) : os = os' :=
  List.map_injective_iff.mpr (fun _ _ => Except.ok.inj) h

theorem Alike.symm {xs ys : List (Except F O)} (h : Alike see xs ys) : Alike see ys xs := by
  obtain ⟨os, os', hx, hy, hsee⟩ := h
  exact ⟨os', os, hy, hx, hsee.symm⟩

theorem Alike.trans {xs ys zs : List (Except F O)} (h : Alike see xs ys) (h' : Alike see ys zs) : Alike see xs zs := by
  obtain ⟨os, os1, hx, hy, hsee⟩ := h
  obtain ⟨os2, os', hy', hz, hsee'⟩ := h'
  obtain rfl := ok_map_inj (hy.symm.trans hy')
  exact ⟨os, os', hx, hz, hsee.trans hsee'⟩

theorem alike_cons {o o' : O} {xs ys : List (Except F O)} :
    Alike see (.ok o' :: xs) (.ok o :: ys) ↔ see o' = see o ∧ Alike see xs ys := by
  constructor
  · intro h
    obtain ⟨os, os', hx, hy, hsee⟩ := h
    cases os with
    | nil => cases hx
    | cons a os =>
      cases os' with
      | nil => cases hy
      | cons b os' =>
        cases hx
        cases hy
        exact ⟨(List.cons.inj hsee).1, os, os', rfl, rfl, (List.cons.inj hsee).2⟩
  · intro h
    obtain ⟨hsee, os, os', rfl, rfl, hrest⟩ := h
    exact ⟨o' :: os, o :: os', rfl, rfl, congrArg₂ List.cons hsee hrest⟩

/-- A run that is like another does not start with a failure. -/
theorem Alike.head_ok {x : Except F O} {xs ys : List (Except F O)} (h : Alike see (x :: xs) ys) : ∃ o, x = .ok o := by
  obtain ⟨os, -, hx, -⟩ := h
  cases os with
  | nil => cases hx
  | cons o os => exact ⟨o, (List.cons.inj hx).1⟩

variable {step' : H → S → I → Except F O}

/-- A run returns from its first step, if it is like another. -/
theorem Alike.first_ok {s : S} {i : I} {is : List I} {hs : Nat → H} {ys : List (Except F O)}
    (h : Alike see (outputs step next s (i :: is) hs) ys) : ∃ o, step (hs 0) s i = .ok o := by
  rw [outputs] at h
  cases ho : step (hs 0) s i with
  | ok o => exact ⟨o, rfl⟩
  | error f =>
    rw [ho] at h
    exact h.head_ok

theorem outputs_ok {s : S} {i : I} {o : O} {hs : Nat → H} (ho : step (hs 0) s i = .ok o) (is : List I) :
    outputs step next s (i :: is) hs = .ok o :: outputs step next (next o) is fun n => hs (n + 1) := by
  rw [outputs, ho]

/-- Runs are alike if their first steps are, and what follows. -/
theorem outputs_cons_iff {s : S} {i : I} {is : List I} {hs hs' : Nat → H} :
    Alike see (outputs step' next s (i :: is) hs') (outputs step next s (i :: is) hs) ↔
      ∃ o' o, step' (hs' 0) s i = .ok o' ∧ step (hs 0) s i = .ok o ∧ see o' = see o ∧
        Alike see (outputs step' next (next o') is fun n => hs' (n + 1))
          (outputs step next (next o) is fun n => hs (n + 1)) := by
  constructor
  · intro h
    obtain ⟨o', ho'⟩ := h.first_ok
    obtain ⟨o, ho⟩ := h.symm.first_ok
    rw [outputs_ok ho', outputs_ok ho, alike_cons] at h
    exact ⟨o', o, ho', ho, h⟩
  · intro h
    obtain ⟨o', o, ho', ho, h⟩ := h
    rw [outputs_ok ho', outputs_ok ho, alike_cons]
    exact h

/-- A step of the second machine is like that of the first, whatever its hidden input. -/
def Matches (step step' : H → S → I → Except F O) (see : O → V) (h : H) (s : S) (i : I) : Prop :=
  ∃ o, step h s i = .ok o ∧ ∀ h', ∃ o', step' h' s i = .ok o' ∧ see o' = see o

theorem outputs_alike_iff {P : S → I → Prop} (hnext : ∀ o o', see o = see o' → next o = next o')
    (hP : ∀ h s i, Matches step step' see h s i ↔ P s i) {s : S} {is : List I} {hs : Nat → H} :
    (∀ hs', Alike see (outputs step' next s is hs') (outputs step next s is hs)) ↔ During step next P s is hs := by
  induction is generalizing s hs with
  | nil => exact iff_of_true (fun _ => ⟨[], [], rfl, rfl, rfl⟩) trivial
  | cons i is ih =>
    simp only [outputs_cons_iff]
    constructor
    · intro h
      obtain ⟨-, o, -, ho, -⟩ := h hs
      have hstep (h' : H) : ∃ o', step' h' s i = .ok o' ∧ see o' = see o := by
        obtain ⟨o', o1, ho', ho1, hsee, -⟩ := h fun _ => h'
        cases ho.symm.trans ho1
        exact ⟨o', ho', hsee⟩
      refine ⟨(hP _ s i).mp ⟨o, ho, hstep⟩, fun o1 ho1 => ih.mp fun hs' => ?_⟩
      -- the same first step, and then these hidden inputs
      obtain ⟨o', o2, ho', ho2, hsee, hrest⟩ := h fun n => n.casesOn (hs 0) hs'
      cases ho1.symm.trans ho2
      rw [hnext o' o1 hsee] at hrest
      exact hrest
    · intro h hs'
      obtain ⟨hPi, hduring⟩ := h
      obtain ⟨o, ho, hstep⟩ := (hP (hs 0) s i).mpr hPi
      obtain ⟨o', ho', hsee⟩ := hstep (hs' 0)
      refine ⟨o', o, ho', ho, hsee, ?_⟩
      rw [hnext o' o hsee]
      exact ih.mpr (hduring o ho) _

/-! ## One machine -/

/-- The step does not fail, and the hidden input makes no difference. -/
def Blind (step : H → S → I → Except F O) (s : S) (i : I) : Prop := ∃ o, ∀ h, step h s i = .ok o

theorem matches_self_iff (h : H) (s : S) (i : I) : Matches step step id h s i ↔ Blind step s i := by
  constructor
  · intro hm
    obtain ⟨o, -, hstep⟩ := hm
    refine ⟨o, fun h' => ?_⟩
    obtain ⟨o', ho', rfl⟩ := hstep h'
    exact ho'
  · intro hb
    obtain ⟨o, hblind⟩ := hb
    exact ⟨o, hblind h, fun h' => ⟨o, hblind h', rfl⟩⟩

theorem outputs_blind_iff (h : H) (s : S) (is : List I) :
    (∀ hs hs', Alike id (outputs step next s is hs) (outputs step next s is hs')) ↔
      During step next (Blind step) s is fun _ => h := by
  have hnext (o o' : O) (h : id o = id o') : next o = next o' := congrArg next h
  rw [← outputs_alike_iff hnext matches_self_iff]
  constructor
  · intro hsame hs'
    exact hsame hs' fun _ => h
  · intro hsame hs hs'
    exact (hsame hs).trans (hsame hs').symm

end Hidden
