/-
  Mcapi.Segments — which segment the processes have attached, over any interleaving of
  their system calls (`transport_sm_create_shared_mem`, `sm_attach_shared_mem`,
  `transport_sm_free_shared_mem`).

  The kernel counts who has a segment attached (`SegInv.count`), and the code goes by that
  count twice: the first to attach zeroes the segment, under the semaphore; the last to
  detach removes it, without the semaphore.

  - `zeroed_alone`: as long as locks are taken, a process zeroes the segment exactly when
    nobody else has it attached, and nobody has come to attach it when it does.
  - `shared_iff`: the processes share one segment throughout a run exactly when no
    `IPC_RMID` of it finds somebody attached. One that does splits them (`split_apart`):
    between the `IPC_STAT` and the `IPC_RMID` of a finalisation another process may
    attach, and the next one to come makes a segment of its own.
-/

import Mcapi.Semaphore

namespace Mcapi

/-! ## What a step does to the segments -/

/-- Before the segment is attached. -/
def Stage.attaching : Stage → Bool
  | .shmCreate | .shmOpen | .shmAttach _ => true
  | _ => false

/-- The segment just attached, before `c_db` is set. -/
def Stage.fresh : Stage → Option Nat
  | .shmStat id | .clear id => some id
  | _ => none

/-- The globals of a process fit where it is. -/
structure TaskOk (t : Task) : Prop where
  attaching : t.stage.attaching = true → t.cDb = false
  fresh : ∀ id, t.stage.fresh = some id → t.mapped = some id
  unset : t.stage.fresh = none → t.cDb = false → t.mapped = none

/-- The step is an `IPC_RMID` of segment `id`. -/
def Removes (t : Task) (a : Act) (id : Nat) : Prop := ∃ o, a = .sys o ∧ t.stage = .finRemove id ∧ o.fails = false

/-- A step as the segments see it: `m` is the segment the process has attached, `r` what it
    removes. -/
inductive Touches (k : Kernel) (m : Option Nat) (r : Nat → Prop) : Kernel → Option Nat → Prop
  | stays {sem : Option Nat} : Touches k m r { k with sem := sem } m
  | creates : k.key = none → Touches k m r k.create m
  | attaches {id : Nat} : m = none → k.alive id = true → Touches k m r (k.attach id) (some id)
  | detaches {id : Nat} : m = some id → Touches k m r (k.detach id) none
  | writes {id : Nat} {db : Database} : m = some id → Touches k m r (k.write id db) m
  | removes {id : Nat} : r id → k.alive id = true → Touches k m r (k.remove id) m

variable {sid : Nat} {k k' : Kernel} {t t' : Task} {a : Act} {id : Nat} {r : Nat → Prop}

theorem next_fresh (t : Task) : t.next.fresh = none := by
  unfold Task.next
  split <;> rfl

theorem next_attaching (t : Task) (h : t.next.attaching = true) : t.cDb = false := by
  unfold Task.next at h
  split at h
  · cases h
  · rename_i hc
    exact Bool.eq_false_of_not_eq_true hc

theorem finStops_fresh {o : SysResult} (h : finStops k t o = true) : t.stage.fresh = none := by
  unfold finStops at h
  split at h <;> first | cases h | simp_all [Stage.fresh]

theorem Move.taskOk (h : Move sid k t a k' t') (ht : TaskOk t) : TaskOk t' := by
  obtain ⟨hatt, hfresh, hunset⟩ := ht
  cases h with
  | begins hst hc =>
    have h0 : t.stage.fresh = none := by rw [hst]; rfl
    refine ⟨fun h => ?_, fun id h => ?_, fun _ hc => hunset h0 hc⟩
    · rw [Task.begun] at h
      dsimp only at h
      split at h <;> cases h
    · rw [Task.begun] at h
      dsimp only at h
      split at h <;> cases h
  | lockFails hst hf =>
    have h0 : t.stage.fresh = none := by rw [hst]; rfl
    exact ⟨next_attaching t, fun id h => by simp [next_fresh] at h, fun _ hc => hunset h0 hc⟩
  | locks hst hf hs =>
    have h0 : t.stage.fresh = none := by rw [hst]; rfl
    exact ⟨next_attaching t, fun id h => by simp [next_fresh] at h, fun _ hc => hunset h0 hc⟩
  | semFails hst hf =>
    have h0 : t.stage.fresh = none := by rcases hst with hst | hst | hst <;> rw [hst] <;> rfl
    exact ⟨fun h => by simp [Stage.attaching] at h, fun id h => by simp [Stage.fresh] at h, fun _ hc => hunset h0 hc⟩
  | shmFails hst hf =>
    have h0 : t.stage.fresh = none := by rcases hst with hst | hst <;> rw [hst] <;> rfl
    exact ⟨fun h => by simp [Stage.attaching] at h, fun id h => by simp [Stage.fresh] at h, fun _ hc => hunset h0 hc⟩
  | finStops hf =>
    exact ⟨fun h => by simp [Stage.attaching] at h, fun id h => by simp [Stage.fresh] at h,
      fun _ hc => hunset (finStops_fresh hf) hc⟩
  | shmCreates hst hf hk hg =>
    have h0 : t.stage.fresh = none := by rcases hst with hst | hst <;> rw [hst] <;> rfl
    have hc : t.cDb = false := hatt (by rcases hst with hst | hst <;> rw [hst] <;> rfl)
    refine ⟨fun _ => hc, fun id h => ?_, fun _ _ => hunset h0 hc⟩
    subst hg
    rw [goto_stage] at h
    split at h <;> cases h
  | calls hst hc hm hx => exact ⟨hatt, hfresh, hunset⟩
  | _ => constructor <;> simp_all [Stage.attaching, Stage.fresh, Task.goto]

theorem Move.touches (h : Move sid k t a k' t') (ht : TaskOk t) : Touches k t.mapped (Removes t a) k' t'.mapped := by
  cases h with
  | shmCreates hst hf hk hg => exact .creates hk
  | attaches hst hf ha =>
    exact .attaches (ht.unset (by rw [hst]; rfl) (ht.attaching (by rw [hst]; rfl))) ha
  | statFails hst hf => exact .detaches (ht.fresh _ (by rw [hst]; rfl))
  | clears hst => exact .writes (ht.fresh _ (by rw [hst]; rfl))
  | initArrays hst hc hm => exact .writes hm
  | addNodes hst hc hm => exact .writes hm
  | finDetaches hst hf hm => exact .detaches hm
  | finRemoves hst hf ha => exact .removes ⟨_, rfl, hst, hf⟩ ha
  | calls hst hc hm hx => exact .writes hm
  | exits =>
    cases hm : t.mapped with
    | none => exact .stays
    | some id => exact .detaches rfl
  | _ => exact .stays

/-! ## The invariant -/

structure SegInv (s : Os) : Prop where
  task : ∀ p, TaskOk (s.tasks p)
  count : ∀ id, Census (fun t : Task => t.mapped = some id) s.tasks (s.kernel.shm id).nattch
  made : ∀ p id, (s.tasks p).mapped = some id → id < s.kernel.made
  key : ∀ id, s.kernel.key = some id ↔ id < s.kernel.made ∧ (s.kernel.shm id).removed = false

theorem lt_made_of_alive (h : k.alive id = true) : id < k.made := by
  simp only [Kernel.alive, Bool.and_eq_true, decide_eq_true_eq] at h
  exact h.1

/-- The count of a segment before and after a step. -/
theorem Touches.count {m m' : Option Nat} (h : Touches k m r k' m') (id : Nat) (hfresh : (k.shm k.made).nattch = 0)
    (hpos : m = some id → 0 < (k.shm id).nattch) :
    (k'.shm id).nattch + (if m = some id then 1 else 0) = (k.shm id).nattch + (if m' = some id then 1 else 0) := by
  cases h with
  | stays => rfl
  | creates hk =>
    rw [Kernel.create_shm]
    split
    · rename_i e
      rw [e, hfresh]
    · rfl
  | @attaches j hm ha => simp [Kernel.attach_nattch, hm, eq_comm]
  | @detaches j hm =>
    have hle : (if id = j then 1 else 0) ≤ (k.shm id).nattch := by
      split
      · rename_i e
        exact hpos (by rw [hm, e])
      · exact Nat.zero_le _
    simp only [Kernel.detach_nattch, hm, Option.some_inj, reduceCtorEq, if_false, eq_comm (a := j)]
    omega
  | writes hm => rw [Kernel.write_nattch]
  | removes hr ha => rw [Kernel.remove_nattch]

theorem Touches.made {m m' : Option Nat} (h : Touches k m r k' m') (hm : ∀ id, m = some id → id < k.made) :
    k.made ≤ k'.made ∧ ∀ id, m' = some id → id < k'.made := by
  cases h with
  | stays => exact ⟨Nat.le_refl _, hm⟩
  | creates hk => exact ⟨Nat.le_succ _, fun id he => Nat.lt_succ_of_lt (hm id he)⟩
  | attaches hn ha => exact ⟨Nat.le_refl _, fun id he => Option.some_inj.mp he ▸ lt_made_of_alive (k := k) ha⟩
  | detaches hd => exact ⟨Nat.le_refl _, fun id he => by cases he⟩
  | writes hw => exact ⟨Nat.le_refl _, hm⟩
  | removes hr ha => exact ⟨Nat.le_refl _, hm⟩

theorem Touches.key {m m' : Option Nat} (h : Touches k m r k' m')
    (hk : ∀ id, k.key = some id ↔ id < k.made ∧ (k.shm id).removed = false) :
    ∀ id, k'.key = some id ↔ id < k'.made ∧ (k'.shm id).removed = false := by
  intro id
  cases h with
  | stays => exact hk id
  | creates hnone =>
    rw [Kernel.create_shm]
    by_cases e : id = k.made
    · subst e
      simp [Kernel.create]
    · have hno := hk id
      rw [hnone] at hno
      rw [if_neg e]
      constructor
      · intro he
        exact absurd (Option.some_inj.mp he).symm e
      · rintro ⟨hlt, hr⟩
        have hlt : id < k.made + 1 := hlt
        cases hno.mpr ⟨by omega, hr⟩
  | @attaches j hn ha => rw [Kernel.attach_removed]; exact hk id
  | @detaches j hd => rw [Kernel.detach_removed]; exact hk id
  | @writes j db hw => rw [Kernel.write_removed]; exact hk id
  | @removes j hr ha =>
    have hid := hk id
    rw [Kernel.remove_removed]
    by_cases e : id = j
    · subst e
      by_cases hkey : k.key = some id <;> simp [Kernel.remove, hkey]
    · by_cases hkey : k.key = some j
      · rw [show (k.remove j).key = none from if_pos hkey]
        rw [hkey] at hid
        simpa [e, Ne.symm e, Kernel.remove, Kernel.setShm] using hid
      · simp_all [Kernel.remove, Kernel.setShm]

theorem SegInv.touches {s : Os} {p : Nat} (h : SegInv s) (hm : Move sid s.kernel (s.tasks p) a k' t') :
    Touches s.kernel (s.tasks p).mapped (Removes (s.tasks p) a) k' t'.mapped :=
  hm.touches (h.task p)

theorem SegInv.fresh {s : Os} (h : SegInv s) : (s.kernel.shm s.kernel.made).nattch = 0 := by
  refine (h.count s.kernel.made).unique (Census.none_iff.mpr fun p hp => ?_)
  exact Nat.lt_irrefl _ (h.made p _ hp)

theorem SegInv.step {s s' : Os} {l : Nat × Act} (h : SegInv s) (hs : OsStep sid s l s') : SegInv s' := by
  obtain ⟨k', t', hm, rfl⟩ := osStep_iff.mp hs
  have htouch := h.touches hm
  have hmade := htouch.made (h.made l.1)
  refine ⟨fun p => ?_, fun id => ?_, fun p id hp => ?_, htouch.key h.key⟩
  · by_cases hp : p = l.1
    · rw [hp, put_same]
      exact hm.taskOk (h.task l.1)
    · rw [put_ne s hp]
      exact h.task p
  · obtain ⟨n, hn, hcount⟩ := (h.count id).move l.1 t'
    have hk := htouch.count id h.fresh fun hmap => (h.count id).pos hmap
    have heq : n = (k'.shm id).nattch := by omega
    exact heq ▸ hn
  · by_cases he : p = l.1
    · rw [he, put_same] at hp
      exact hmade.2 id hp
    · rw [put_ne s he] at hp
      exact Nat.lt_of_lt_of_le (h.made p id hp) hmade.1

theorem SegInv.init : SegInv {} := by
  refine ⟨fun p => ⟨fun h => ?_, fun id h => ?_, fun _ _ => rfl⟩, fun id => ?_, fun p id h => ?_, fun id => ?_⟩
  · cases h
  · cases h
  · exact Census.none_iff.mpr fun p hp => by cases hp
  · cases h
  · simp

/-! ## One segment for all -/

/-- Every process that has a segment attached has the one the key names. -/
def Shared (s : Os) : Prop := ∀ p id, (s.tasks p).mapped = some id → s.kernel.key = some id

/-- An `IPC_RMID` that finds the segment attached. -/
def Orphans (s : Os) (l : Nat × Act) : Prop := ∃ id, Removes (s.tasks l.1) l.2 id ∧ (s.kernel.shm id).nattch ≠ 0

/-- Nobody has a segment that was removed. -/
theorem SegInv.shared_iff_removed {s : Os} (h : SegInv s) :
    Shared s ↔ ∀ id, (s.kernel.shm id).removed = true → (s.kernel.shm id).nattch = 0 := by
  constructor
  · intro hs id hr
    by_contra hn
    obtain ⟨p, hp⟩ := (h.count id).exists_of_pos (Nat.pos_of_ne_zero hn)
    have := ((h.key id).mp (hs p id hp)).2
    rw [hr] at this
    cases this
  · intro hr p id hp
    refine (h.key id).mpr ⟨h.made p id hp, ?_⟩
    by_contra hn
    have hpos := (h.count id).pos hp
    have := hr id (by simpa using hn)
    omega

theorem removes_kernel (h : Move sid k t a k' t') (hr : Removes t a id) (ha : k.alive id = true) :
    k' = k.remove id := by
  obtain ⟨o, rfl, hst, hf⟩ := hr
  have hstep : sysStep sid k t o = some (k', t') := step_of_move h
  simp [sysStep, hst, hf, ha] at hstep
  exact hstep.1.symm

theorem Touches.removed {m m' : Option Nat} (h : Touches k m r k' m')
    (hk : ∀ id, (k.shm id).removed = true → (k.shm id).nattch = 0) (hr : ∀ id, r id → (k.shm id).nattch = 0) :
    ∀ id, (k'.shm id).removed = true → (k'.shm id).nattch = 0 := by
  intro id hrem
  cases h with
  | stays => exact hk id hrem
  | creates hnone =>
    rw [Kernel.create_shm] at hrem ⊢
    split
    · rfl
    · rename_i e
      rw [if_neg e] at hrem
      exact hk id hrem
  | @attaches j hn ha =>
    rw [Kernel.attach_removed] at hrem
    have h0 := hk id hrem
    have hne : id ≠ j := by
      rintro rfl
      simp [Kernel.alive, hrem, h0] at ha
    rw [Kernel.attach_nattch, if_neg hne]
    exact h0
  | detaches hd =>
    rw [Kernel.detach_removed] at hrem
    rw [Kernel.detach_nattch, hk id hrem, Nat.zero_sub]
  | writes hw =>
    rw [Kernel.write_removed] at hrem
    rw [Kernel.write_nattch]
    exact hk id hrem
  | @removes j hj ha =>
    rw [Kernel.remove_removed, Bool.or_eq_true, decide_eq_true_eq] at hrem
    rw [Kernel.remove_nattch]
    rcases hrem with hrem | rfl
    · exact hk id hrem
    · exact hr id hj

theorem SegInv.shared_step {s s' : Os} {l : Nat × Act} (h : SegInv s) (hsh : Shared s) (hs : OsStep sid s l s') :
    Shared s' ↔ ¬ Orphans s l := by
  have h' := h.step hs
  obtain ⟨k', t', hm, rfl⟩ := osStep_iff.mp hs
  rw [h'.shared_iff_removed]
  constructor
  · rintro hall ⟨id, hr, hn⟩
    obtain ⟨p, hp⟩ := (h.count id).exists_of_pos (Nat.pos_of_ne_zero hn)
    have hkey := (h.key id).mp (hsh p id hp)
    have hk := removes_kernel hm hr (by simp [Kernel.alive, hkey.1, hkey.2])
    refine hn ?_
    have hgone := hall id
    rw [put_kernel, hk, Kernel.remove_removed, Kernel.remove_nattch] at hgone
    exact hgone (by simp)
  · intro hno
    refine (h.touches hm).removed (h.shared_iff_removed.mp hsh) fun id hr => ?_
    by_contra hn
    exact hno ⟨id, hr, hn⟩

/-- The processes have one segment throughout a run exactly when no `IPC_RMID` of the run finds
    the segment attached. -/
theorem shared_iff {s : Os} {ls : List (Nat × Act)} (h : Lts.Run (OsStep sid) {} ls s) :
    (∀ t, Lts.Visits (OsStep sid) {} ls t → Shared t) ↔ ∀ l t, Lts.Turn (OsStep sid) {} ls l t → ¬ Orphans t l :=
  h.visits_iff osStep_unique SegInv.step SegInv.shared_step SegInv.init fun p id hp => by cases hp

/-- Process 1 attaches between the `IPC_STAT` and the `IPC_RMID` of process 0; then
    process 2 initialises. No call fails. -/
def splitting : List (Nat × Act) :=
  (0, .initialise 0 0 none) :: List.replicate 10 (0, .sys {}) ++
  (0, .finalize) :: List.replicate 3 (0, .sys {}) ++
  (1, .initialise 0 1 none) :: List.replicate 11 (1, .sys {}) ++
  (0, .sys {}) :: (2, .initialise 0 2 none) :: List.replicate 10 (2, .sys {})

theorem splitting_run : ∃ s, Lts.Run (OsStep 0) {} splitting s ∧ (s.tasks 1).stage = .idle ∧
    (s.tasks 1).mapped = some 0 ∧ (s.tasks 2).stage = .idle ∧ (s.tasks 2).mapped = some 1 := by
  have h : ((Os.lockRuns 0 {} splitting).map fun s =>
      ((s.tasks 1).stage, (s.tasks 1).mapped, (s.tasks 2).stage, (s.tasks 2).mapped)) =
      some (.idle, some 0, .idle, some 1) := by decide
  obtain ⟨s, hs, heq⟩ := Option.map_eq_some_iff.mp h
  simp only [Prod.mk.injEq] at heq
  exact ⟨s, (run_of_lockRuns hs).of_guarded, heq⟩

/-- Both have initialised, on two segments. -/
theorem split_apart : ∃ s l t, Lts.Run (OsStep 0) {} splitting s ∧ (s.tasks 1).mapped = some 0 ∧
    (s.tasks 2).mapped = some 1 ∧ Lts.Turn (OsStep 0) {} splitting l t ∧ Orphans t l := by
  obtain ⟨s, hrun, -, h1, -, h2⟩ := splitting_run
  have hno : ¬ ∀ l t, Lts.Turn (OsStep 0) {} splitting l t → ¬ Orphans t l := by
    intro hall
    have hsh : Shared s := (shared_iff hrun).mpr hall s ⟨splitting, [], by simp, hrun⟩
    cases (hsh 1 0 h1).symm.trans (hsh 2 1 h2)
  simp only [not_forall, not_not] at hno
  obtain ⟨l, t, ht, ho⟩ := hno
  exact ⟨s, l, t, hrun, h1, h2, ht, ho⟩

/-! ## Zeroing -/

/-- A process that is about to zero a segment has it to itself. -/
def ZeroesAlone (s : Os) : Prop := ∀ p id, (s.tasks p).stage = .clear id → (s.kernel.shm id).nattch = 1

theorem attach_of_mapped (h : Move sid k t a k' t') (hm : t'.mapped = some id)
    (hne : t.mapped ≠ some id) : t.stage = .shmAttach id := by
  cases h with
  | attaches hst hf ha => cases hm; exact hst
  | exits => cases hm
  | statFails => cases hm
  | finDetaches => cases hm
  | _ => exact absurd hm hne

theorem stat_of_clear (h : Move sid k t a k' t') (hst : t'.stage = .clear id) :
    t.stage = .shmStat id ∧ k' = k ∧ (k.shm id).nattch = 1 := by
  cases h with
  | begins =>
    rw [Task.begun] at hst
    dsimp only at hst
    split at hst <;> cases hst
  | lockFails =>
    have := next_fresh t
    rw [show t.next = .clear id from hst] at this
    cases this
  | locks =>
    have := next_fresh t
    rw [show t.next = .clear id from hst] at this
    cases this
  | shmCreates h1 h2 h3 hg =>
    subst hg
    rw [goto_stage] at hst
    split at hst <;> cases hst
  | statFirst h1 hf hn => cases hst; exact ⟨h1, rfl, hn⟩
  | calls h1 => rw [h1] at hst; cases hst
  | _ => cases hst

theorem ZeroesAlone.step {s s' : Os} {l : Nat × Act} {u : Nat} (h : ZeroesAlone s) (hseg : SegInv s)
    (hsem : SemInv sid u s) (hu : u ≤ 1) (hs : OsStep sid s l s') : ZeroesAlone s' := by
  obtain ⟨k', t', hm, rfl⟩ := osStep_iff.mp hs
  intro q id hst
  by_cases hq : q = l.1
  · rw [hq, put_same] at hst
    obtain ⟨-, rfl, hn⟩ := stat_of_clear hm hst
    exact hn
  rw [put_ne s hq] at hst
  have hone := h q id hst
  have hmap : (s.tasks q).mapped = some id := (hseg.task q).fresh id (by rw [hst]; rfl)
  have hother : (s.tasks l.1).mapped ≠ some id := (hseg.count id).other (Nat.le_of_eq hone) hmap (Ne.symm hq)
  have hnew : t'.mapped ≠ some id := by
    intro hnew
    have hatt := attach_of_mapped hm hnew hother
    have hp : Owner (s.tasks l.1) := by rw [Owner, hatt]; rfl
    have hq' : Owner (s.tasks q) := by rw [Owner, hst]; rfl
    exact hq (hsem.owner_unique hu hq' hp)
  have hcount := (hseg.touches hm).count id hseg.fresh fun hmap => (hseg.count id).pos hmap
  rw [if_neg hother, if_neg hnew, hone] at hcount
  exact hcount

theorem zeroesAlone_of_run {s : Os} (h : Lts.Reachable (LockStep sid) {} s) : SegInv s ∧ ZeroesAlone s := by
  have hinv : ∃ u, u ≤ 1 ∧ SemInv sid u s ∧ SegInv s ∧ ZeroesAlone s := by
    refine h.invariant (I := fun s => ∃ u, u ≤ 1 ∧ SemInv sid u s ∧ SegInv s ∧ ZeroesAlone s)
      ⟨1, Nat.le_refl 1, SemInv.init, SegInv.init, fun p id hst => by cases hst⟩ ?_
    rintro s l t ⟨u, hu, hsem, hseg, hz⟩ hs
    have hz' := hz.step hseg hsem hu hs.2
    rcases hsem.step hu hs with ⟨-, hsem'⟩ | ⟨-, u', hu', hsem'⟩
    · exact ⟨u, hu, hsem', hseg.step hs.2, hz'⟩
    · exact ⟨u', by omega, hsem', hseg.step hs.2, hz'⟩
  obtain ⟨-, -, -, hseg, hz⟩ := hinv
  exact ⟨hseg, hz⟩

/-- While locks are taken: a process that has attached a segment goes on to zero it exactly
    when nobody else has it attached, and has it to itself when it zeroes it. -/
theorem zeroed_alone {s : Os} {p : Nat} (h : Lts.Reachable (LockStep sid) {} s) :
    ((s.tasks p).stage = .clear id → ∀ q, q ≠ p → (s.tasks q).mapped ≠ some id) ∧
    ∀ s', (s.tasks p).stage = .shmStat id → OsStep sid s (p, .sys {}) s' →
      ((s'.tasks p).stage = .clear id ↔ ∀ q, q ≠ p → (s.tasks q).mapped ≠ some id) := by
  obtain ⟨hseg, hz⟩ := zeroesAlone_of_run h
  constructor
  · intro hst
    have hmap := (hseg.task p).fresh id (by rw [hst]; rfl)
    exact ((hseg.count id).one_iff hmap).mp (hz p id hst)
  · intro s' hst hs
    have hmap := (hseg.task p).fresh id (by rw [hst]; rfl)
    rw [← (hseg.count id).one_iff hmap]
    obtain ⟨k', t', hm, rfl⟩ := osStep_iff.mp hs
    rw [put_same]
    constructor
    · intro hc
      exact (stat_of_clear hm hc).2.2
    · intro hn
      have hstep : sysStep sid s.kernel (s.tasks p) {} = some (k', t') := step_of_move hm
      simp [sysStep, hst, hn] at hstep
      rw [← hstep.2]
      rfl

/-- Process 0 has attached the segment while process 1 waits for the lock. -/
theorem attached_run : ∃ s, Lts.Reachable (LockStep 0) {} s ∧ (s.tasks 0).stage = .clear 0 ∧
    (s.tasks 1).stage = .lock := by
  have h : (Os.lockRuns 0 {} (crowd ++ List.replicate 3 (0, .sys {}))).map
      (fun s => ((s.tasks 0).stage, (s.tasks 1).stage)) = some (.clear 0, .lock) := by decide
  obtain ⟨s, hs, heq⟩ := Option.map_eq_some_iff.mp h
  simp only [Prod.mk.injEq] at heq
  exact ⟨s, ⟨_, run_of_lockRuns hs⟩, heq⟩

theorem zeroed_alone_attached : ∃ s, Lts.Reachable (LockStep 0) {} s ∧ (s.tasks 0).stage = .clear 0 ∧
    ∀ q, q ≠ 0 → (s.tasks q).mapped ≠ some 0 := by
  obtain ⟨s, h, hst, -⟩ := attached_run
  exact ⟨s, h, hst, (zeroed_alone h).1 hst⟩

end Mcapi
