/-
  Mcapi.Semaphore — who holds the semaphore of the database, over any interleaving of the
  system calls of any number of processes (`transport_sm_create_semaphore`,
  `transport_sm_lock_semaphore`, `transport_sm_unlock_semaphore`).

  The semaphore has one unit. From the creation of the set until its `SETVAL` it belongs to
  the process that made the set; a process between its lock and its release owns it; else
  the semaphore has it. The code ignores a `semop` that fails, so the theorems are about the runs
  in which each lock is taken (`LockTaken`).

  - `section_exclusive`: at most one process is between lock and release.
  - `lock_granted`: while the unit is not lost, a process that waits for the lock gets it, once
    the owner has made its next system calls: there is no deadlock.
  - `locked_out_iff`: the unit is lost for good exactly by a process that ends while it
    owns it, or by a `SETVAL` or a release that fails. From then on no process takes
    the lock any more, whatever happens.
-/

import Mcapi.SystemCalls
import Mcapi.Lib.Census

namespace Mcapi

/-! ## The unit -/

/-- Between lock and release. -/
def Stage.inSection : Stage → Bool
  | .shmCreate | .shmOpen | .shmAttach _ | .shmStat _ | .clear _ | .unlock => true
  | _ => false

/-- The process has the unit of the semaphore. -/
def Stage.owns (g : Stage) : Bool := g = .semSet || g.inSection

def Owner (t : Task) : Prop := t.stage.owns = true

instance : DecidablePred Owner := fun t => inferInstanceAs (Decidable (t.stage.owns = true))

/-- A step by which the unit is lost. -/
def Task.leaks (t : Task) : Act → Bool
  | .exit => t.stage.owns
  | .sys o => o.fails && (t.stage = .semSet || t.stage = .unlock)
  | _ => false

def Leaks (s : Os) (l : Nat × Act) : Prop := (s.tasks l.1).leaks l.2 = true

/-- With `n` owners, `u` units are left: 1, or 0 once it is lost. -/
def Units (k : Kernel) (n u : Nat) : Prop := (k.sem = none ∧ n = 0 ∧ u = 1) ∨ ∃ v, k.sem = some v ∧ v + n = u

variable (sid : Nat)

/-- A `semop` that is to take the lock does not fail. -/
def TakesLock (k : Kernel) (t : Task) : Act → Prop
  | .sys o => t.stage = .lock → semopFails sid k t o = false
  | _ => True

instance (k : Kernel) (t : Task) : DecidablePred (TakesLock sid k t)
  | .sys _ => inferInstanceAs (Decidable (_ → _))
  | .initialise .. | .finalize | .call .. | .exit => inferInstanceAs (Decidable True)

def LockTaken (s : Os) (l : Nat × Act) : Prop := TakesLock sid s.kernel (s.tasks l.1) l.2

instance (s : Os) (l : Nat × Act) : Decidable (LockTaken sid s l) := inferInstanceAs (Decidable (TakesLock ..))

def LockStep : Os → Nat × Act → Os → Prop := Lts.Guarded (OsStep sid) (LockTaken sid)

/-- The unit is lost in the run. -/
def Lost (ls : List (Nat × Act)) : Prop := ∃ l s, Lts.Turn (LockStep sid) {} ls l s ∧ Leaks s l

/-- The process has met the semaphore set. -/
def Met (t : Task) : Prop :=
  t.stage = .semOpen ∨ t.stage = .semSet ∨ (t.semId = sid ∧ (t.semId ≠ 0 ∨ t.stage = .lock))

structure SemInv (u : Nat) (s : Os) : Prop where
  units : ∃ n, Census Owner s.tasks n ∧ Units s.kernel n u
  semId : ∀ p, (s.tasks p).stage.inSection = true → (s.tasks p).semId = sid
  met : ∀ p, Met sid (s.tasks p) → s.kernel.sem ≠ none

variable {sid} {k k' : Kernel} {t t' : Task} {a : Act} {n m u : Nat}

theorem Stage.owns_of_inSection {g : Stage} (h : g.inSection = true) : g.owns = true := by simp [Stage.owns, h]

theorem Units.pos (h : Units k n u) (hn : 0 < n) : ∃ v, k.sem = some v ∧ v + n = u := by
  rcases h with ⟨-, rfl, -⟩ | h
  · exact absurd hn (Nat.lt_irrefl 0)
  · exact h

theorem finStops_stage {o : SysResult} (h : finStops k t o = true) :
    t.stage.owns = false ∧ t.stage ≠ .semSet ∧ t.stage ≠ .unlock := by
  unfold finStops at h
  split at h <;> first | cases h | simp_all [Stage.owns, Stage.inSection]

/-! ### What a step does to it -/

def Task.units (t : Task) : Nat := if Owner t then 1 else 0

theorem units_of_owns (h : t.stage.owns = true) : t.units = 1 := if_pos h

theorem units_of_not_owns (h : t.stage.owns = false) : t.units = 0 := by simp [Task.units, Owner, h]

/-- What a step leaves of the unit: it stays, or it is lost. -/
def Keeps (k' : Kernel) (t : Task) (a : Act) (m u : Nat) : Prop :=
  (t.leaks a = false ∧ Units k' m u) ∨ (t.leaks a = true ∧ ∃ u', u = u' + 1 ∧ Units k' m u')

theorem Units.keeps (hu : Units k n u) (hs : k'.sem = k.sem) (hm : m + t.units = n + t'.units)
    (ho : t.stage.owns = t'.stage.owns) (hl : t.leaks a = false) : Keeps k' t a m u := by
  have heq : t.units = t'.units := by
    cases h' : t'.stage.owns with
    | false => rw [units_of_not_owns h', units_of_not_owns (ho.trans h')]
    | true => rw [units_of_owns h', units_of_owns (ho.trans h')]
  have hmn : m = n := by omega
  subst hmn
  refine .inl ⟨hl, ?_⟩
  rw [Units, hs]
  exact hu

theorem next_inSection (t : Task) : t.next.inSection = true := by
  unfold Task.next
  split <;> rfl

theorem next_owns (t : Task) : t.next.owns = true := Stage.owns_of_inSection (next_inSection t)

theorem Move.keeps (h : Move sid k t a k' t') (hl : TakesLock sid k t a)
    (hsec : t.stage.inSection = true → t.semId = sid) (hu : Units k n u) (hu1 : u ≤ 1) (hn : t.units ≤ n)
    (hm : m + t.units = n + t'.units) : Keeps k' t a m u := by
  cases h with
  | semFails hst hf =>
    rcases hst with hst | hst | hst
    · exact hu.keeps rfl hm (by simp [hst, Stage.owns, Stage.inSection]) (by simp [Task.leaks, hst])
    · exact hu.keeps rfl hm (by simp [hst, Stage.owns, Stage.inSection]) (by simp [Task.leaks, hst])
    · rw [units_of_owns (by rw [hst]; rfl)] at hn hm
      rw [units_of_not_owns rfl] at hm
      obtain ⟨v, hv, hvn⟩ := hu.pos hn
      exact .inr ⟨by simp [Task.leaks, hst, hf], u - 1, by omega, .inr ⟨v, hv, by omega⟩⟩
  | semCreates hst hf hs =>
    rw [units_of_not_owns (by rw [hst]; rfl), units_of_owns rfl] at hm
    rcases hu with ⟨-, rfl, rfl⟩ | ⟨v, hv, -⟩
    · exact .inl ⟨by simp [Task.leaks, hst], .inr ⟨0, rfl, by omega⟩⟩
    · cases hs.symm.trans hv
  | semSets hst hf =>
    rw [units_of_owns (by rw [hst]; rfl)] at hn hm
    rw [units_of_not_owns rfl] at hm
    obtain ⟨v, hv, hvn⟩ := hu.pos hn
    exact .inl ⟨by simp [Task.leaks, hf], .inr ⟨1, rfl, by omega⟩⟩
  | lockFails hst hf => exact absurd hf (by simp [hl hst])
  | locks hst hf hs =>
    rw [units_of_not_owns (by rw [hst]; rfl), units_of_owns (next_owns t)] at hm
    rcases hu with ⟨hnone, -, -⟩ | ⟨v, hv, hvn⟩
    · cases hs.symm.trans hnone
    · cases hs.symm.trans hv
      exact .inl ⟨by simp [Task.leaks, hst], .inr ⟨_, rfl, by omega⟩⟩
  | unlockFails hst hf =>
    rw [units_of_owns (by rw [hst]; rfl)] at hn hm
    rw [units_of_not_owns rfl] at hm
    obtain ⟨v, hv, hvn⟩ := hu.pos hn
    have hid : t.semId = sid := hsec (by rw [hst]; rfl)
    simp only [semopFails, hid, hv, ne_eq, not_true_eq_false, decide_false, Bool.or_false, reduceCtorEq] at hf
    exact .inr ⟨by simp [Task.leaks, hst, hf], u - 1, by omega, .inr ⟨v, hv, by omega⟩⟩
  | unlocks hst hf hs =>
    rw [units_of_owns (by rw [hst]; rfl)] at hn hm
    rw [units_of_not_owns rfl] at hm
    obtain ⟨v, hv, hvn⟩ := hu.pos hn
    cases hs.symm.trans hv
    simp only [semopFails, Bool.or_eq_false_iff] at hf
    exact .inl ⟨by simp [Task.leaks, hf.1.1], .inr ⟨_, rfl, by omega⟩⟩
  | exits =>
    have hs : ((t.mapped.map k.detach).getD k).sem = k.sem := by cases t.mapped <;> rfl
    cases ho : t.stage.owns with
    | false => exact hu.keeps hs hm (ho.trans rfl) ho
    | true =>
      rw [units_of_owns ho] at hn hm
      rw [units_of_not_owns rfl] at hm
      obtain ⟨v, hv, hvn⟩ := hu.pos hn
      exact .inr ⟨ho, u - 1, by omega, .inr ⟨v, hs.trans hv, by omega⟩⟩
  | shmCreates hst hf hk hg =>
    have ho : t.stage.owns = true := by rcases hst with hst | hst <;> rw [hst] <;> rfl
    refine hu.keeps rfl hm ?_ (by simp [Task.leaks, hf])
    subst hg
    rw [ho, Task.goto]
    split <;> rfl
  | shmFails hst hf =>
    rcases hst with hst | hst <;>
      exact hu.keeps rfl hm (by simp [Task.goto, hst, Stage.owns, Stage.inSection]) (by simp [Task.leaks, hst])
  | finStops hf =>
    refine hu.keeps rfl hm (finStops_stage hf).1 ?_
    simp [Task.leaks, finStops_stage hf]
  | begins hst hc =>
    refine hu.keeps rfl hm ?_ rfl
    rw [hst, Task.begun]
    dsimp only
    split <;> rfl
  | calls hst hc hm' hx => exact hu.keeps rfl hm rfl rfl
  | finalizes hst => exact hu.keeps rfl hm (by rw [hst]; rfl) rfl
  | _ => exact hu.keeps rfl hm (by simp_all [Task.goto, Stage.owns, Stage.inSection]) (by simp_all [Task.leaks])

theorem Move.semId (h : Move sid k t a k' t') (hl : TakesLock sid k t a)
    (hsec : t.stage.inSection = true → t.semId = sid) : t'.stage.inSection = true → t'.semId = sid := by
  intro hin
  cases h with
  | lockFails hst hf => exact absurd hf (by simp [hl hst])
  | locks hst hf hs =>
    simp only [semopFails, Bool.or_eq_false_iff, decide_eq_false_iff_not, not_not] at hf
    exact hf.1.2
  | begins hst hc =>
    exfalso
    rw [Task.begun] at hin
    dsimp only at hin
    split at hin <;> cases hin
  | shmCreates hst hf hk hg => exact hsec (by rcases hst with hst | hst <;> rw [hst] <;> rfl)
  | shmFails hst hf => exact hsec (by rcases hst with hst | hst <;> rw [hst] <;> rfl)
  | calls hst hc hm hx => exact hsec hin
  | _ =>
    simp_all only [Task.goto, Stage.inSection, Bool.false_eq_true, forall_const]

/-- The set is never removed. -/
theorem Move.set (h : Move sid k t a k' t') (hs : k.sem ≠ none) : k'.sem ≠ none := by
  cases h with
  | exits => cases t.mapped <;> exact hs
  | _ => first | exact hs | simp

theorem Move.met (h : Move sid k t a k' t') (hmet : Met sid t → k.sem ≠ none) : Met sid t' → k'.sem ≠ none := by
  intro hm
  by_cases hs : k.sem = none
  · have hnot : ¬ Met sid t := fun hm => hmet hm hs
    simp only [Met, not_or, not_and] at hnot
    cases h with
    | exits => simp [Met] at hm
    | begins hst hc =>
      refine hmet (.inr (.inr ?_))
      by_cases h0 : t.semId = 0
      · simp [Met, Task.begun, h0] at hm
      · simp only [Met, Task.begun, if_neg h0, reduceCtorEq, false_or] at hm
        exact ⟨hm.1, .inl h0⟩
    | lockFails hst hf =>
      have hin := next_inSection t
      have hid : t.semId ≠ sid := fun he => hnot.2.2 he |>.2 hst
      rcases hm with hm | hm | hm
      · rw [show t.next = .semOpen from hm] at hin
        cases hin
      · rw [show t.next = .semSet from hm] at hin
        cases hin
      · exact absurd hm.1 hid
    | shmCreates hst hf hk hg =>
      subst hg
      simp only [Met, Task.goto] at hm
      split at hm <;> simp_all
    | _ => simp_all [Met, Task.goto]
  · exact h.set hs

/-- One step in which the locks are taken. -/
theorem SemInv.step {s s' : Os} {l : Nat × Act} (h : SemInv sid u s) (hu1 : u ≤ 1) (hs : LockStep sid s l s') :
    (¬ Leaks s l ∧ SemInv sid u s') ∨ (Leaks s l ∧ ∃ u', u = u' + 1 ∧ SemInv sid u' s') := by
  obtain ⟨hl, hs⟩ := hs
  obtain ⟨k', t', hm, rfl⟩ := osStep_iff.mp hs
  obtain ⟨⟨n, hn, hu⟩, hid, hmet⟩ := h
  have hid' : ∀ p, ((s.put l.1 k' t').tasks p).stage.inSection = true → ((s.put l.1 k' t').tasks p).semId = sid := by
    intro p
    by_cases hp : p = l.1
    · rw [hp, put_same]
      exact hm.semId hl (hid l.1)
    · rw [put_ne s hp]
      exact hid p
  have hmet' : ∀ p, Met sid ((s.put l.1 k' t').tasks p) → k'.sem ≠ none := by
    intro p
    by_cases hp : p = l.1
    · rw [hp, put_same]
      exact hm.met (hmet l.1)
    · rw [put_ne s hp]
      exact fun h => hm.set (hmet p h)
  have hle : (s.tasks l.1).units ≤ n := by
    by_cases ho : Owner (s.tasks l.1)
    · rw [units_of_owns ho]
      exact hn.pos ho
    · rw [Task.units, if_neg ho]
      exact Nat.zero_le n
  obtain ⟨m, hcensus, hcount⟩ := hn.move l.1 t'
  rcases hm.keeps hl (hid l.1) hu hu1 hle hcount with ⟨hno, hk⟩ | ⟨hyes, u', rfl, hk⟩
  · exact .inl ⟨by simp [Leaks, hno], ⟨m, hcensus, hk⟩, hid', hmet'⟩
  · exact .inr ⟨hyes, u', rfl, ⟨m, hcensus, hk⟩, hid', hmet'⟩

theorem SemInv.init : SemInv sid 1 {} := by
  refine ⟨⟨0, ?_, .inl ⟨rfl, rfl, rfl⟩⟩, fun p hp => ?_, fun p hp => ?_⟩
  · exact Census.none_iff.mpr fun p hp => by cases hp
  · cases hp
  · simp [Met] at hp

/-- Once lost, the unit stays lost. -/
theorem SemInv.still_lost {s s' : Os} {l : Nat × Act} (h : SemInv sid 0 s) (hs : LockStep sid s l s') :
    SemInv sid 0 s' := by
  rcases h.step (Nat.zero_le 1) hs with ⟨-, h⟩ | ⟨-, u', hu, -⟩
  · exact h
  · cases hu

theorem semInv_run {s : Os} {ls : List (Nat × Act)} (h : Lts.Run (LockStep sid) {} ls s) :
    (¬ Lost sid ls ∧ SemInv sid 1 s) ∨ (Lost sid ls ∧ SemInv sid 0 s) := by
  have hfirst {s s' : Os} {l : Nat × Act} (hi : SemInv sid 1 s) (hs : LockStep sid s l s') :
      (¬ Leaks s l ∧ SemInv sid 1 s') ∨ (Leaks s l ∧ SemInv sid 0 s') := by
    rcases hi.step (Nat.le_refl 1) hs with h | ⟨hl, u', hu, h⟩
    · exact .inl h
    · cases hu
      exact .inr ⟨hl, h⟩
  rcases h.switch (fun h h' => osStep_unique h.2 h'.2) hfirst SemInv.still_lost SemInv.init with ⟨hno, hi⟩ | ⟨hyes, hj⟩
  · exact .inl ⟨fun ⟨l, t, ht, hl⟩ => hno l t ht hl, hi⟩
  · exact .inr ⟨hyes, hj⟩

/-! ## Mutual exclusion -/

theorem SemInv.owner_unique {s : Os} (h : SemInv sid u s) (hu1 : u ≤ 1) {p q : Nat} (hp : Owner (s.tasks p))
    (hq : Owner (s.tasks q)) : p = q := by
  obtain ⟨n, hn, hu⟩ := h.units
  refine hn.only ?_ hp hq
  rcases hu with ⟨-, rfl, -⟩ | ⟨v, -, hv⟩ <;> omega

/-- In every interleaving in which the locks are taken, at most one process is between
    lock and release, also when processes die or system calls fail. -/
theorem section_exclusive {s : Os} (h : Lts.Reachable (LockStep sid) {} s) {p q : Nat}
    (hp : (s.tasks p).stage.inSection = true) (hq : q ≠ p) : (s.tasks q).stage.inSection = false := by
  obtain ⟨ls, h⟩ := h
  by_contra hin
  have hq' : Owner (s.tasks q) := Stage.owns_of_inSection (by simpa using hin)
  have hp' : Owner (s.tasks p) := Stage.owns_of_inSection hp
  rcases semInv_run h with ⟨-, hi⟩ | ⟨-, hi⟩
  · exact hq (hi.owner_unique (Nat.le_refl 1) hq' hp')
  · exact hq (hi.owner_unique (Nat.zero_le 1) hq' hp')

/-- Process 0 has taken the lock when process 1 comes to it. -/
def crowd : List (Nat × Act) :=
  [(0, .initialise 0 0 none), (0, .sys {}), (0, .sys {}), (0, .sys {}), (1, .initialise 0 1 none), (1, .sys {}),
   (1, .sys {})]

theorem lockTaken_of_stage {s : Os} {p : Nat} (hst : (s.tasks p).stage ≠ .lock) : LockTaken sid s (p, a) := by
  cases a with
  | sys o => exact fun h => absurd h hst
  | _ => trivial

/-- The run of a list of steps, as long as each lock is taken. -/
def Os.lockRuns (sid : Nat) : Os → List (Nat × Act) → Option Os
  | s, [] => some s
  | s, l :: ls => if LockTaken sid s l then (s.step sid l.1 l.2).bind fun s' => Os.lockRuns sid s' ls else none

theorem run_of_lockRuns {s s' : Os} {ls : List (Nat × Act)} (h : Os.lockRuns sid s ls = some s') :
    Lts.Run (LockStep sid) s ls s' := by
  induction ls generalizing s with
  | nil =>
    cases h
    exact .nil _
  | cons l ls ih =>
    rw [Os.lockRuns] at h
    split at h
    · rename_i hl
      obtain ⟨t, hs, hr⟩ := Option.bind_eq_some_iff.mp h
      exact .cons ⟨hl, hs⟩ (ih hr)
    · cases h

theorem crowd_run : ∃ s, Lts.Run (LockStep 0) {} crowd s ∧ (s.tasks 0).stage = .shmCreate ∧ (s.tasks 1).stage = .lock ∧
    (s.tasks 1).semId = 0 := by
  have h : (Os.lockRuns 0 {} crowd).map (fun s => ((s.tasks 0).stage, (s.tasks 1).stage, (s.tasks 1).semId)) =
      some (.shmCreate, .lock, 0) := by decide
  obtain ⟨s, hs, heq⟩ := Option.map_eq_some_iff.mp h
  simp only [Prod.mk.injEq] at heq
  exact ⟨s, run_of_lockRuns hs, heq⟩

theorem section_exclusive_crowd : ∃ s, Lts.Run (LockStep 0) {} crowd s ∧ (s.tasks 0).stage.inSection = true ∧
    (s.tasks 1).stage.inSection = false := by
  obtain ⟨s, h, hst, -⟩ := crowd_run
  have hin : (s.tasks 0).stage.inSection = true := by rw [hst]; rfl
  exact ⟨s, h, hin, section_exclusive ⟨crowd, h⟩ hin (by decide)⟩

/-! ## Progress -/

/-- How many system calls the owner is from its release, at most. -/
def Stage.rank : Stage → Nat
  | .shmCreate => 6
  | .shmOpen => 5
  | .shmAttach _ => 4
  | .shmStat _ => 3
  | .clear _ => 2
  | .unlock => 1
  | _ => 0

/-- The owner is one call closer to its release, or gives up the unit. -/
theorem owner_move (ho : t.stage.owns = true) (hs : k.sem = some 0)
    (hid : t.stage.inSection = true → t.semId = sid) :
    ∃ k' t', Move sid k t (.sys {}) k' t' ∧
      (k'.sem = some 1 ∨ (k'.sem = some 0 ∧ t'.stage.inSection = true ∧ t'.stage.rank < t.stage.rank)) := by
  cases hst : t.stage with
  | semSet => exact ⟨_, _, .semSets hst rfl, .inl rfl⟩
  | shmCreate =>
    cases hk : k.key with
    | none =>
      refine ⟨_, _, .shmCreates (g := .shmAttach k.made) (.inl hst) rfl hk (by simp), .inr ⟨hs, rfl, ?_⟩⟩
      simp [Task.goto, Stage.rank]
    | some id => exact ⟨_, _, .shmExists hst rfl hk, .inr ⟨hs, rfl, by simp [Task.goto, Stage.rank]⟩⟩
  | shmOpen =>
    cases hk : k.key with
    | none =>
      refine ⟨_, _, .shmCreates (g := .shmAttach k.made) (.inr hst) rfl hk (by simp), .inr ⟨hs, rfl, ?_⟩⟩
      simp [Task.goto, Stage.rank]
    | some id => exact ⟨_, _, .shmOpens hst rfl hk, .inr ⟨hs, rfl, by simp [Task.goto, Stage.rank]⟩⟩
  | shmAttach id =>
    cases ha : k.alive id with
    | false => exact ⟨_, _, .attachFails hst (by simp [ha]), .inr ⟨hs, rfl, by simp [Task.goto, Stage.rank]⟩⟩
    | true => exact ⟨_, _, .attaches hst rfl ha, .inr ⟨hs, rfl, by simp [Stage.rank]⟩⟩
  | shmStat id =>
    by_cases hn : (k.shm id).nattch = 1
    · exact ⟨_, _, .statFirst hst rfl hn, .inr ⟨hs, rfl, by simp [Task.goto, Stage.rank]⟩⟩
    · exact ⟨_, _, .statLater hst rfl hn, .inr ⟨hs, rfl, by simp [Stage.rank]⟩⟩
  | clear id => exact ⟨_, _, .clears hst, .inr ⟨hs, rfl, by simp [Stage.rank]⟩⟩
  | unlock =>
    have hf : semopFails sid k t {} = false := by simp [semopFails, hid (by rw [hst]; rfl), hs]
    exact ⟨_, _, .unlocks hst hf hs, .inl rfl⟩
  | _ => rw [hst] at ho; cases ho

/-- A step that neither is a lock nor loses the unit. -/
theorem SemInv.next {s s' : Os} {l : Nat × Act} (h : SemInv sid 1 s) (hs : OsStep sid s l s')
    (hlock : LockTaken sid s l) (hl : ¬ Leaks s l) : SemInv sid 1 s' := by
  rcases h.step (Nat.le_refl 1) ⟨hlock, hs⟩ with ⟨-, h⟩ | ⟨hyes, -⟩
  · exact h
  · exact absurd hyes hl

/-- The owner's next calls, none of them failing, give up the unit. -/
theorem SemInv.release {s : Os} {q : Nat} (h : SemInv sid 1 s) (ho : Owner (s.tasks q)) (hs : s.kernel.sem = some 0) :
    ∃ n s', Lts.Run (LockStep sid) s (List.replicate n (q, .sys {})) s' ∧ SemInv sid 1 s' ∧
      s'.kernel.sem = some 1 ∧ ∀ p, p ≠ q → s'.tasks p = s.tasks p := by
  induction hr : (s.tasks q).stage.rank using Nat.strong_induction_on generalizing s with
  | _ r ih =>
    obtain ⟨k', t', hm, hcase⟩ := owner_move ho hs (h.semId q)
    have hstep := osStep_of_move hm
    have hlock : LockTaken sid s (q, .sys {}) := by
      refine lockTaken_of_stage fun hst => ?_
      rw [Owner, hst] at ho
      cases ho
    have hinv := h.next hstep hlock (by simp [Leaks, Task.leaks])
    have hother : ∀ p, p ≠ q → (s.put q k' t').tasks p = s.tasks p := fun p hp => put_ne s hp
    rcases hcase with h1 | ⟨h0, hin, hrank⟩
    · exact ⟨1, _, .single ⟨hlock, hstep⟩, hinv, h1, hother⟩
    · have hown : Owner ((s.put q k' t').tasks q) := by rw [put_same]; exact Stage.owns_of_inSection hin
      obtain ⟨n, s', hrun, hinv', h1, hother'⟩ := ih t'.stage.rank (hr ▸ hrank) hinv hown h0 (by rw [put_same])
      exact ⟨n + 1, s', .cons ⟨hlock, hstep⟩ hrun, hinv', h1, fun p hp => (hother' p hp).trans (hother p hp)⟩

/-- A process waits for the lock. -/
def Waits (sid : Nat) (s : Os) (p : Nat) : Prop := (s.tasks p).stage = .lock ∧ (s.tasks p).semId = sid

/-- With a unit in the semaphore, a process that waits takes the lock. -/
theorem take_lock {s : Os} {p v : Nat} (hp : Waits sid s p) (hv : s.kernel.sem = some (v + 1)) :
    ∃ s', LockStep sid s (p, .sys {}) s' ∧ (s'.tasks p).stage.inSection = true := by
  have hf : semopFails sid s.kernel (s.tasks p) {} = false := by simp [semopFails, hp.2, hv]
  refine ⟨_, ⟨fun _ => hf, osStep_of_move (.locks hp.1 hf hv)⟩, ?_⟩
  rw [put_same]
  exact next_inSection _

theorem SemInv.drain {s : Os} {p : Nat} (h : SemInv sid 1 s) (hp : Waits sid s p) :
    ∃ q n s' s'', q ≠ p ∧ (n = 0 ∨ Owner (s.tasks q)) ∧
      Lts.Run (LockStep sid) s (List.replicate n (q, .sys {})) s' ∧ Waits sid s' p ∧
      LockStep sid s' (p, .sys {}) s'' ∧ (s''.tasks p).stage.inSection = true := by
  obtain ⟨v, hv⟩ := Option.ne_none_iff_exists'.mp (h.met p (.inr (.inr ⟨hp.2, .inr hp.1⟩)))
  cases v with
  | succ v =>
    obtain ⟨s'', hs, hin⟩ := take_lock hp hv
    exact ⟨p + 1, 0, s, s'', by omega, .inl rfl, .nil s, hp, hs, hin⟩
  | zero =>
    obtain ⟨n, hn, hu⟩ := h.units
    have hpos : 0 < n := by
      rcases hu with ⟨hnone, -⟩ | ⟨v, hv', hvn⟩
      · cases hv.symm.trans hnone
      · cases hv.symm.trans hv'
        omega
    obtain ⟨q, hq⟩ := hn.exists_of_pos hpos
    have hqp : q ≠ p := by
      rintro rfl
      rw [Owner, hp.1] at hq
      cases hq
    obtain ⟨m, s', hrun, -, h1, hother⟩ := h.release hq hv
    have hw : Waits sid s' p := by
      rw [Waits, hother p hqp.symm]
      exact hp
    obtain ⟨s'', hs, hin⟩ := take_lock hw h1
    exact ⟨q, m, s', s'', hqp, .inr hq, hrun, hw, hs, hin⟩

/-- While the unit is not lost, a process that waits for the lock gets it: at once, or after
    the next system calls of the one process that owns the unit. -/
theorem lock_granted {s : Os} {ls : List (Nat × Act)} {p : Nat} (h : Lts.Run (LockStep sid) {} ls s)
    (hl : ¬ Lost sid ls) (hp : Waits sid s p) :
    ∃ q n s' s'', q ≠ p ∧ (n = 0 ∨ Owner (s.tasks q)) ∧
      Lts.Run (LockStep sid) s (List.replicate n (q, .sys {})) s' ∧ Waits sid s' p ∧
      LockStep sid s' (p, .sys {}) s'' ∧ (s''.tasks p).stage.inSection = true := by
  rcases semInv_run h with ⟨-, hi⟩ | ⟨hlost, -⟩
  · exact hi.drain hp
  · exact absurd hlost hl

theorem not_lost_of_owner {s : Os} {ls : List (Nat × Act)} {p : Nat} (h : Lts.Run (LockStep sid) {} ls s)
    (hp : Owner (s.tasks p)) : ¬ Lost sid ls := by
  rcases semInv_run h with ⟨hno, -⟩ | ⟨-, hi⟩
  · exact hno
  · obtain ⟨n, hn, hu⟩ := hi.units
    obtain ⟨v, -, hv⟩ := hu.pos (hn.pos hp)
    have := hn.pos hp
    omega

theorem lock_granted_crowd : ∃ s, Lts.Run (LockStep 0) {} crowd s ∧
    ∃ q n s' s'', q ≠ 1 ∧ (n = 0 ∨ Owner (s.tasks q)) ∧
      Lts.Run (LockStep 0) s (List.replicate n (q, .sys {})) s' ∧ Waits 0 s' 1 ∧
      LockStep 0 s' (1, .sys {}) s'' ∧ (s''.tasks 1).stage.inSection = true := by
  obtain ⟨s, h, hst, hw, hid⟩ := crowd_run
  have hown : Owner (s.tasks 0) := by rw [Owner, hst]; rfl
  exact ⟨s, h, lock_granted h (not_lost_of_owner h hown) ⟨hw, hid⟩⟩

/-! ## Locked out -/

/-- A process that is not at the lock makes a move that loses nothing. -/
theorem SemInv.go {s : Os} {p : Nat} (h : SemInv sid 1 s) (hm : Move sid s.kernel (s.tasks p) a k' t')
    (hst : (s.tasks p).stage ≠ .lock) (hl : (s.tasks p).leaks a = false) :
    LockStep sid s (p, a) (s.put p k' t') ∧ SemInv sid 1 (s.put p k' t') := by
  have hlock : LockTaken sid s (p, a) := lockTaken_of_stage hst
  exact ⟨⟨hlock, osStep_of_move hm⟩, h.next (osStep_of_move hm) hlock (by simp [Leaks, hl])⟩

/-- A process at the `semget` comes to wait for the lock. -/
theorem SemInv.arrive_of_create {s : Os} {p : Nat} (h : SemInv sid 1 s) (hst : (s.tasks p).stage = .semCreate) :
    ∃ s', Lts.Reachable (LockStep sid) s s' ∧ SemInv sid 1 s' ∧ Waits sid s' p := by
  have hlast {s : Os} {k' : Kernel} {t : Task} (h : SemInv sid 1 s)
      (hm : Move sid s.kernel (s.tasks p) (.sys {}) k' { t with semId := sid, stage := .lock })
      (hst : (s.tasks p).stage ≠ .lock) :
      ∃ s', Lts.Reachable (LockStep sid) s s' ∧ SemInv sid 1 s' ∧ Waits sid s' p := by
    obtain ⟨hs, hi⟩ := h.go hm hst rfl
    exact ⟨_, (Lts.Reachable.refl s).tail hs, hi, by rw [Waits, put_same]; exact ⟨rfl, rfl⟩⟩
  cases hsem : s.kernel.sem with
  | some v =>
    obtain ⟨hs, hi⟩ := h.go (a := .sys {}) (.semExists hst rfl hsem) (by simp [hst]) rfl
    obtain ⟨s', ⟨ls, hr⟩, hi', hw⟩ := hlast hi (.semOpens (by simp) rfl) (by simp)
    exact ⟨s', ⟨_, .cons hs hr⟩, hi', hw⟩
  | none =>
    obtain ⟨hs, hi⟩ := h.go (a := .sys {}) (.semCreates hst rfl hsem) (by simp [hst]) rfl
    obtain ⟨s', ⟨ls, hr⟩, hi', hw⟩ := hlast hi (.semSets (by simp) rfl) (by simp)
    exact ⟨s', ⟨_, .cons hs hr⟩, hi', hw⟩

/-- Some process can come to wait for the lock: one that does not own the unit may end, and a
    new one initialise. -/
theorem SemInv.arrive {s : Os} (h : SemInv sid 1 s) :
    ∃ p s', Lts.Reachable (LockStep sid) s s' ∧ SemInv sid 1 s' ∧ Waits sid s' p := by
  obtain ⟨p, hp⟩ : ∃ p, ¬ Owner (s.tasks p) := by
    by_contra hall
    simp only [not_exists, not_not] at hall
    have := h.owner_unique (Nat.le_refl 1) (hall 0) (hall 1)
    omega
  have hstep : OsStep sid s (p, .exit) (s.put p _ {}) := osStep_of_move .exits
  have hlock : LockTaken sid s (p, .exit) := trivial
  generalize ((s.tasks p).mapped.map s.kernel.detach).getD s.kernel = k1 at hstep
  have hi1 := h.next hstep hlock (by simpa [Leaks, Task.leaks, Owner] using hp)
  obtain ⟨hs2, hi2⟩ := hi1.go (p := p) (a := .initialise 0 0 none) (.begins (by simp) (by simp)) (by simp) rfl
  obtain ⟨s', ⟨ls, hr⟩, hi', hw⟩ := hi2.arrive_of_create (p := p) (by rw [put_same, put_same]; rfl)
  exact ⟨p, s', ⟨_, .cons ⟨hlock, hstep⟩ (.cons hs2 hr)⟩, hi', hw⟩

/-- A lock is taken only of a semaphore that has a unit. -/
theorem sem_of_lock {s s' : Os} {p : Nat} {o : SysResult} (h : LockStep sid s (p, .sys o) s')
    (hst : (s.tasks p).stage = .lock) : ∃ v, s.kernel.sem = some (v + 1) := by
  obtain ⟨k', t', hm, -⟩ := osStep_iff.mp h.2
  have hstep : sysStep sid s.kernel (s.tasks p) o = some (k', t') := step_of_move hm
  rw [sysStep, hst] at hstep
  simp only [h.1 hst, Bool.false_eq_true, if_false] at hstep
  split at hstep
  · rename_i v hv
    exact ⟨v, hv⟩
  · cases hstep

/-- The unit is lost in a run exactly when no process can take the lock any more, in any
    continuation: a process ended while it owned the unit, or a `SETVAL` or a release
    failed. -/
theorem locked_out_iff {s : Os} {ls : List (Nat × Act)} (h : Lts.Run (LockStep sid) {} ls s) :
    Lost sid ls ↔
      ∀ t, Lts.Reachable (LockStep sid) s t → ∀ p o t', LockStep sid t (p, .sys o) t' → (t.tasks p).stage ≠ .lock := by
  constructor
  · intro hlost t ht p o t' hs hst
    have hi : SemInv sid 0 s := by
      rcases semInv_run h with ⟨hno, -⟩ | ⟨-, hi⟩
      · exact absurd hlost hno
      · exact hi
    have hi : SemInv sid 0 t := ht.invariant hi SemInv.still_lost
    obtain ⟨n, -, hu⟩ := hi.units
    obtain ⟨v, hv⟩ := sem_of_lock hs hst
    rcases hu with ⟨-, -, hu⟩ | ⟨v', hv', hvn⟩
    · cases hu
    · cases hv.symm.trans hv'
      omega
  · intro hno
    rcases semInv_run h with ⟨-, hi⟩ | ⟨hlost, -⟩
    · obtain ⟨p, s1, ⟨ls1, hr1⟩, hi1, hw1⟩ := hi.arrive
      obtain ⟨q, n, s2, s3, -, -, hr2, hw2, hs3, -⟩ := hi1.drain hw1
      exact absurd hw2.1 (hno s2 ⟨_, hr1.append hr2⟩ p {} s3 hs3)
    · exact hlost

/-- Process 0 dies between lock and release: process 1 waits for ever. -/
theorem locked_out_crowd : ∃ s, Lts.Run (LockStep 0) {} (crowd ++ [(0, .exit)]) s ∧ Waits 0 s 1 ∧
    ∀ t, Lts.Reachable (LockStep 0) s t → ∀ p o t', LockStep 0 t (p, .sys o) t' → (t.tasks p).stage ≠ .lock := by
  obtain ⟨s, h, hst, hw, hid⟩ := crowd_run
  have hexit : LockStep 0 s (0, .exit) _ := ⟨trivial, osStep_of_move .exits⟩
  have hrun := h.append (.single hexit)
  have hlost : Lost 0 (crowd ++ [(0, .exit)]) := by
    refine ⟨(0, .exit), s, ⟨crowd, [], rfl, h⟩, ?_⟩
    rw [Leaks, Task.leaks, hst]
    rfl
  refine ⟨_, hrun, ?_, (locked_out_iff hrun).mp hlost⟩
  rw [Waits, put_ne s (by decide)]
  exact ⟨hw, hid⟩

end Mcapi
