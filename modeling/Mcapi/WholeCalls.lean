/-
  Mcapi.WholeCalls — whole calls and their system calls: `Mcapi.Processes` against
  `Mcapi.SystemCalls`.

  A step of `Sys` is one whole call. `Realises f s` ties a system of system calls in which
  every process is between two calls to it: the segment is the one the key names, and a
  process has the globals that its `Task` stands for. `whole_calls_realised`: every run of
  whole calls is a run of system calls, with the same calls by the same processes in the same
  order and no other process coming between, to a state that realises the one it led to.
  The reverse is false (`split_apart`).
-/

import Mcapi.Segments
import Mcapi.Attachment

namespace Mcapi

/-! ## A call of one process -/

/-- The globals of a process between two calls. -/
def Task.proc (t : Task) : Proc :=
  ⟨if t.cDb then (if t.mapped.isSome then .attached else .dangling) else .null, t.semId⟩

/-- What the label of a whole call is among those of the system calls. -/
def SysLabel.act : SysLabel → Nat × Act
  | .initialise p d n a _ => (p, .initialise d n a)
  | .finalize p => (p, .finalize)
  | .exit p => (p, .exit)
  | .call p E c errno fl => (p, .call E c errno fl)

def Act.isCall : Act → Bool
  | .sys _ => false
  | _ => true

/-- The semaphore's id is the one of the set, or `semget` fails. -/
def FitsSet (sid : Nat) : SysLabel → Prop
  | .initialise _ _ _ _ o => o.semaphore = -1 ∨ o.semaphore = sid
  | _ => True

variable (sid : Nat)

/-- The system calls of one process, with no other in between. -/
def SysRun : Kernel × Task → List SysResult → Kernel × Task → Prop :=
  Lts.Run fun x o y => Move sid x.1 x.2 (.sys o) y.1 y.2

structure Realises (f : Os) (s : Sys) : Prop where
  idle : ∀ p, (f.tasks p).stage = .idle
  proc : ∀ p, s.procs p = (f.tasks p).proc
  seg : s.seg = f.kernel.key.map fun id => ⟨(f.kernel.shm id).db, (f.kernel.shm id).nattch⟩
  shared : Shared f
  inv : SegInv f
  sem : f.kernel.sem = none ∨ f.kernel.sem = some 1
  met : ∀ p, Met sid (f.tasks p) → f.kernel.sem ≠ none

variable {sid} {k k' : Kernel} {t t' : Task} {id : Nat}

theorem run_of_sysRun {f : Os} {p : Nat} {os : List SysResult} {x y : Kernel × Task} (h : SysRun sid x os y)
    (hx : f.kernel = x.1 ∧ f.tasks p = x.2) :
    ∃ f', Lts.Run (OsStep sid) f (os.map fun o => (p, .sys o)) f' ∧ f'.kernel = y.1 ∧ f'.tasks p = y.2 ∧
      ∀ q, q ≠ p → f'.tasks q = f.tasks q := by
  induction h generalizing f with
  | nil x => exact ⟨f, .nil f, hx.1, hx.2, fun _ _ => rfl⟩
  | @cons x z y o os hs _ ih =>
    have hm : Move sid f.kernel (f.tasks p) (.sys o) z.1 z.2 := by rw [hx.1, hx.2]; exact hs
    obtain ⟨f', hr, hk, ht, hq⟩ := ih (f := f.put p z.1 z.2) ⟨rfl, put_same f p⟩
    exact ⟨f', .cons (osStep_of_move hm) hr, hk, ht, fun q hne => (hq q hne).trans (put_ne f hne)⟩

theorem Move.one {o : SysResult} (h : Move sid k t (.sys o) k' t') : SysRun sid (k, t) [o] (k', t') := .single h

theorem Move.before {o : SysResult} {os : List SysResult} {y : Kernel × Task} (h : Move sid k t (.sys o) k' t')
    (hr : SysRun sid (k', t') os y) : SysRun sid (k, t) (o :: os) y := .cons h hr

/-! ### The semaphore -/

/-- `transport_sm_create_semaphore`: the set exists afterwards, with its value or a new one. -/
theorem create_semaphore (sid : Nat) (hst : t.stage = .semCreate) :
    ∃ os, SysRun sid (k, t) os
      ({ k with sem := some (k.sem.getD 1) }, { t with semId := sid, stage := .lock }) := by
  cases hs : k.sem with
  | some v =>
    have h1 : Move sid k t (.sys {}) k (t.goto .semOpen) := .semExists hst rfl hs
    have h2 : Move sid k (t.goto .semOpen) (.sys {}) k { t with semId := sid, stage := .lock } := .semOpens rfl rfl
    have hk : { k with sem := some v } = k := by rw [← hs]
    rw [Option.getD_some, hk]
    exact ⟨[{}, {}], h1.before h2.one⟩
  | none =>
    have h1 : Move sid k t (.sys {}) { k with sem := some 0 } (t.goto .semSet) := .semCreates hst rfl hs
    have h2 : Move sid { k with sem := some 0 } (t.goto .semSet) (.sys {}) { k with sem := some 1 }
        { t with semId := sid, stage := .lock } := .semSets rfl rfl
    exact ⟨[{}, {}], h1.before h2.one⟩

/-- The semaphore while a process is in the section, taken or not. -/
def heldSem (sid : Nat) (k : Kernel) (t : Task) : Option Nat := if t.semId = sid then some 0 else k.sem

theorem lock_runs (hst : t.stage = .lock) (hsem : t.semId = sid → k.sem = some 1) :
    SysRun sid (k, t) [{}] ({ k with sem := heldSem sid k t }, t.goto t.next) := by
  refine .single ?_
  by_cases hid : t.semId = sid
  · have hf : semopFails sid k t {} = false := by simp [semopFails, hid, hsem hid]
    rw [heldSem, if_pos hid]
    exact .locks hst hf (hsem hid)
  · rw [heldSem, if_neg hid]
    exact .lockFails hst (by simp [semopFails, hid])

/-- The release gives back what the lock took. -/
theorem unlock_runs (k0 : Kernel) (hst : t.stage = .unlock) (hsem : t.semId = sid → k0.sem = some 1)
    (hk : k.sem = heldSem sid k0 t) : SysRun sid (k, t) [{}] ({ k with sem := k0.sem }, t.goto .initArray) := by
  refine .single ?_
  by_cases hid : t.semId = sid
  · rw [heldSem, if_pos hid] at hk
    have hf : semopFails sid k t {} = false := by simp [semopFails, hid, hk]
    rw [hsem hid]
    exact .unlocks hst hf hk
  · rw [heldSem, if_neg hid] at hk
    rw [← hk]
    exact .unlockFails hst (by simp [semopFails, hid])

/-! ### The segment -/

/-- The segment that the key names. -/
def Kernel.segment (k : Kernel) : Option Segment := k.key.map fun id => ⟨(k.shm id).db, (k.shm id).nattch⟩

theorem segment_of_key (h : k.key = some id) : k.segment = some ⟨(k.shm id).db, (k.shm id).nattch⟩ := by
  rw [Kernel.segment, h]
  rfl

theorem segment_attach (h : k.key = some id) :
    (k.attach id).segment = some ⟨(k.shm id).db, (k.shm id).nattch + 1⟩ := by
  rw [segment_of_key (k := k.attach id) h]
  simp [Kernel.attach, Kernel.setShm]

theorem segment_write (h : k.key = some id) (db : Database) :
    (k.write id db).segment = some ⟨db, (k.shm id).nattch⟩ := by
  rw [segment_of_key (k := k.write id db) h]
  simp [Kernel.write, Kernel.setShm]

theorem segment_detach (h : k.key = some id) :
    (k.detach id).segment = some ⟨(k.shm id).db, (k.shm id).nattch - 1⟩ := by
  rw [segment_of_key (k := k.detach id) h]
  simp [Kernel.detach, Kernel.setShm]

/-- `sm_attach_shared_mem` on the segment of the key. -/
theorem attach_runs (sid : Nat) (hst : t.stage = .shmAttach id) (hkey : k.key = some id) (ha : k.alive id = true) :
    ∃ os k', SysRun sid (k, t) os (k', { t with cDb := true, mapped := some id, stage := .unlock }) ∧
      k'.sem = k.sem ∧ k'.key = some id ∧ k'.segment = some (smAttachSharedMem k.segment) := by
  have h1 : Move sid k t (.sys {}) (k.attach id) { t with mapped := some id, stage := .shmStat id } :=
    .attaches hst rfl ha
  have hn : ((k.attach id).shm id).nattch = (k.shm id).nattch + 1 := by rw [Kernel.attach_nattch, if_pos rfl]
  rw [segment_of_key hkey]
  by_cases hone : (k.shm id).nattch + 1 = 1
  · have h2 : Move sid (k.attach id) { t with mapped := some id, stage := .shmStat id } (.sys {}) (k.attach id)
        { t with mapped := some id, stage := .clear id } := .statFirst rfl rfl (hn.trans hone)
    have h3 : Move sid (k.attach id) { t with mapped := some id, stage := .clear id } (.sys {})
        ((k.attach id).write id zeroed) { t with cDb := true, mapped := some id, stage := .unlock } := .clears rfl
    refine ⟨[{}, {}, {}], _, h1.before (h2.before h3.one), rfl, hkey, ?_⟩
    rw [segment_write (k := k.attach id) hkey, hn]
    simp [smAttachSharedMem, hone]
  · have h2 : Move sid (k.attach id) { t with mapped := some id, stage := .shmStat id } (.sys {}) (k.attach id)
        { t with cDb := true, mapped := some id, stage := .unlock } :=
      .statLater rfl rfl (fun he => hone (hn.symm.trans he))
    refine ⟨[{}, {}], _, h1.before h2.one, rfl, hkey, ?_⟩
    rw [segment_attach hkey]
    simp only [smAttachSharedMem, Option.getD_some, if_neg hone]

/-- `transport_sm_create_shared_mem`. -/
theorem create_runs (sid : Nat) (hst : t.stage = .shmCreate) (hlive : ∀ id, k.key = some id → k.alive id = true) :
    ∃ os k' id, SysRun sid (k, t) os (k', { t with cDb := true, mapped := some id, stage := .unlock }) ∧
      k'.sem = k.sem ∧ k'.key = some id ∧ (k.key = none ∨ k.key = some id) ∧
      k'.segment = some (smAttachSharedMem k.segment) := by
  cases hkey : k.key with
  | some id =>
    have h1 : Move sid k t (.sys {}) k (t.goto .shmOpen) := .shmExists hst rfl hkey
    have h2 : Move sid k (t.goto .shmOpen) (.sys {}) k (t.goto (.shmAttach id)) := .shmOpens rfl rfl hkey
    obtain ⟨os, k', hr, hs, hk, hseg⟩ := attach_runs sid (t := t.goto (.shmAttach id)) rfl hkey (hlive id hkey)
    exact ⟨_, k', id, h1.before (h2.before hr), hs, hk, .inr rfl, hseg⟩
  | none =>
    have h1 : Move sid k t (.sys {}) k.create (t.goto (.shmAttach k.made)) := .shmCreates (.inl hst) rfl hkey (by simp)
    have ha : k.create.alive k.made = true := by simp [Kernel.alive, Kernel.create, Kernel.setShm]
    obtain ⟨os, k', hr, hs, hk, hseg⟩ := attach_runs sid (t := t.goto (.shmAttach k.made)) rfl
      (k := k.create) rfl ha
    refine ⟨_, k', k.made, h1.before hr, hs, hk, .inl rfl, ?_⟩
    rw [hseg, segment_of_key (k := k.create) rfl, Kernel.create_shm, if_pos rfl, Kernel.segment, hkey]
    rfl

/-- From the lock to its release. -/
theorem section_runs (sid : Nat) (hst : t.stage = .lock) (hsem : t.semId = sid → k.sem = some 1)
    (hlive : ∀ id, k.key = some id → k.alive id = true)
    (hmap : t.cDb = true → ∃ id, t.mapped = some id ∧ k.key = some id) :
    ∃ os k' id, SysRun sid (k, t) os (k', { t with cDb := true, mapped := some id, stage := .initArray }) ∧
      k'.sem = k.sem ∧ k'.key = some id ∧ (k.key = none ∨ k.key = some id) ∧
      k'.segment = if t.cDb then k.segment else some (smAttachSharedMem k.segment) := by
  have hlock := lock_runs hst hsem
  cases hc : t.cDb with
  | true =>
    obtain ⟨id, hm, hk⟩ := hmap hc
    have hun := unlock_runs k (t := t.goto t.next) (k := { k with sem := heldSem sid k t }) (by simp [Task.next, hc])
      hsem rfl
    have ht : (t.goto t.next).goto .initArray = { t with cDb := true, mapped := some id, stage := .initArray } := by
      rw [← hc, ← hm]
      rfl
    rw [ht] at hun
    exact ⟨_, _, id, hlock.append hun, rfl, hk, .inr hk, rfl⟩
  | false =>
    obtain ⟨os, k1, id, hr, hs, hk, hold, hseg⟩ := create_runs sid (k := { k with sem := heldSem sid k t })
      (t := t.goto t.next) (by simp [Task.next, hc]) hlive
    have hun := unlock_runs k (t := { t with cDb := true, mapped := some id, stage := .unlock }) rfl hsem hs
    refine ⟨_, { k1 with sem := k.sem }, id, (hlock.append hr).append hun, rfl, hk, hold, ?_⟩
    exact hseg

/-- The two writes after the section. -/
theorem writes_run (sid : Nat) (hst : t.stage = .initArray) (hc : t.cDb = true) (hm : t.mapped = some id)
    (hk : k.key = some id) :
    ∃ k', SysRun sid (k, t) [{}, {}] (k', t.goto .idle) ∧ k'.sem = k.sem ∧ k'.key = some id ∧
      k'.segment = k.segment.map fun g =>
        { g with db := (transAddNode (transInitRequestIndexedArray g.db) t.domainId t.nodeId t.nodeAttrs).2 } := by
  generalize hk1 : k.write id (transInitRequestIndexedArray (k.shm id).db) = k1
  have h1 : Move sid k t (.sys {}) k1 (t.goto .addNode) := by rw [← hk1]; exact .initArrays hst hc hm
  have h2 : Move sid k1 (t.goto .addNode) (.sys {})
      (k1.write id (transAddNode (k1.shm id).db t.domainId t.nodeId t.nodeAttrs).2) (t.goto .idle) :=
    .addNodes rfl hc hm
  have hkey : k1.key = some id := by rw [← hk1]; exact hk
  refine ⟨_, h1.before h2.one, ?_, hkey, ?_⟩
  · rw [← hk1]
    rfl
  · rw [segment_write hkey, segment_of_key hk, ← hk1, Kernel.write_nattch]
    simp [Kernel.write, Kernel.setShm]

/-- Detaching from a segment that others have attached. -/
theorem finalize_runs (sid : Nat) (hst : t.stage = .idle) (hm : t.mapped = some id) (hk : k.key = some id)
    (ha : (k.detach id).alive id = true) :
    ∃ os k', SysRun sid (k, t.goto .finGet) os (k', { t with mapped := none }) ∧ k'.sem = k.sem ∧
      k' = if (k.shm id).nattch - 1 = 0 then (k.detach id).remove id else k.detach id := by
  have h1 : Move sid k (t.goto .finGet) (.sys {}) k (t.goto (.finDetach id)) := .finGets rfl rfl hk
  have h2 : Move sid k (t.goto (.finDetach id)) (.sys {}) (k.detach id)
      { t with mapped := none, stage := .finStat id } := .finDetaches rfl rfl hm
  have hn : ((k.detach id).shm id).nattch = (k.shm id).nattch - 1 := by rw [Kernel.detach_nattch, if_pos rfl]
  have hidle : ({ t with mapped := none } : Task).goto .idle = { t with mapped := none } := by
    rw [Task.goto, ← hst]
  split
  · rename_i h0
    have h3 : Move sid (k.detach id) { t with mapped := none, stage := .finStat id } (.sys {}) (k.detach id)
        { t with mapped := none, stage := .finRemove id } := .finStats rfl rfl ha (hn.trans h0)
    have h4 : Move sid (k.detach id) { t with mapped := none, stage := .finRemove id } (.sys {})
        ((k.detach id).remove id) (({ t with mapped := none } : Task).goto .idle) := .finRemoves rfl rfl ha
    rw [hidle] at h4
    exact ⟨_, _, h1.before (h2.before (h3.before h4.one)), rfl, rfl⟩
  · rename_i h0
    have h3 : Move sid (k.detach id) { t with mapped := none, stage := .finStat id } (.sys {}) (k.detach id)
        (({ t with mapped := none } : Task).goto .idle) := .finStops (by simp [finStops, ha, hn, h0])
    rw [hidle] at h3
    exact ⟨_, _, h1.before (h2.before h3.one), rfl, rfl⟩

/-- Without a segment attached, a finalisation ends with nothing done. -/
theorem finalize_stops (sid : Nat) (hst : t.stage = .idle) (hm : t.mapped = none) :
    ∃ os, SysRun sid (k, t.goto .finGet) os (k, t) := by
  have hidle (g : Stage) : (t.goto g).goto .idle = t := by
    rw [Task.goto, Task.goto, ← hst]
  cases hk : k.key with
  | none =>
    have h1 : Move sid k (t.goto .finGet) (.sys {}) k ((t.goto .finGet).goto .idle) :=
      .finStops (by simp [finStops, hk])
    rw [hidle] at h1
    exact ⟨_, h1.one⟩
  | some id =>
    have h1 : Move sid k (t.goto .finGet) (.sys {}) k (t.goto (.finDetach id)) := .finGets rfl rfl hk
    have h2 : Move sid k (t.goto (.finDetach id)) (.sys {}) k ((t.goto (.finDetach id)).goto .idle) :=
      .finStops (by simp [finStops, Task.goto, hm])
    rw [hidle] at h2
    exact ⟨_, h1.before h2.one⟩

/-! ## A call among the others -/

/-- A call of one process, and its system calls with no other between, as a run. -/
theorem call_run {f : Os} {p : Nat} {a : Act} {os : List SysResult} {y : Kernel × Task} (ha : a.isCall = true)
    (hm : Move sid f.kernel (f.tasks p) a k' t') (hr : SysRun sid (k', t') os y) :
    ∃ ls f', Lts.Run (OsStep sid) f ls f' ∧ ls.filter (fun l => l.2.isCall) = [(p, a)] ∧ f'.kernel = y.1 ∧
      f'.tasks p = y.2 ∧ ∀ q, q ≠ p → f'.tasks q = f.tasks q := by
  obtain ⟨f', hrun, hk, ht, hq⟩ := run_of_sysRun (p := p) (f := f.put p k' t') hr ⟨rfl, put_same f p⟩
  refine ⟨_, f', .cons (osStep_of_move hm) hrun, ?_, hk, ht, fun q hne => (hq q hne).trans (put_ne f hne)⟩
  have hsys : (os.map fun o => (p, Act.sys o)).filter (fun l => l.2.isCall) = [] := by
    rw [List.filter_eq_nil_iff]
    intro l hl
    obtain ⟨o, -, rfl⟩ := List.mem_map.mp hl
    exact Bool.false_ne_true
  rw [List.filter_cons, if_pos ha, hsys]

theorem met_step {f f' : Os} {l : Nat × Act} (h : ∀ p, Met sid (f.tasks p) → f.kernel.sem ≠ none)
    (hs : OsStep sid f l f') : ∀ p, Met sid (f'.tasks p) → f'.kernel.sem ≠ none := by
  obtain ⟨k', t', hm, rfl⟩ := osStep_iff.mp hs
  intro p
  by_cases hp : p = l.1
  · rw [hp, put_same]
    exact hm.met (h l.1)
  · rw [put_ne f hp]
    exact fun hmet => hm.set (h p hmet)

/-- What is left to show of the state a call leads to. -/
theorem Realises.after {f f' : Os} {s s' : Sys} {ls : List (Nat × Act)} {p : Nat} (h : Realises sid f s)
    (pr : Proc) (hrun : Lts.Run (OsStep sid) f ls f') (hq : ∀ q, q ≠ p → f'.tasks q = f.tasks q)
    (hidle : (f'.tasks p).stage = .idle) (hproc : (f'.tasks p).proc = pr)
    (hs' : s' = ⟨f'.kernel.segment, Function.update s.procs p pr⟩)
    (hsh : ∀ q id, (f'.tasks q).mapped = some id → f'.kernel.key = some id)
    (hsem : f'.kernel.sem = none ∨ f'.kernel.sem = some 1) : Realises sid f' s' := by
  subst hs'
  refine ⟨fun q => ?_, fun q => ?_, rfl, hsh, hrun.keeps (fun _ => SegInv.step) h.inv, hsem,
    hrun.keeps (I := fun f => ∀ p, Met sid (f.tasks p) → f.kernel.sem ≠ none) (fun _ => met_step) h.met⟩
  · by_cases e : q = p
    · rw [e, hidle]
    · rw [hq q e, h.idle q]
  · by_cases e : q = p
    · rw [e, hproc]
      exact Function.update_self ..
    · rw [hq q e, ← h.proc q]
      exact Function.update_of_ne e ..

/-! ## The calls -/

theorem initialise_semId {d n : U32} {a : Option NodeAttributes} {o : InitEnv} {seg seg' : Option Segment}
    {pr pr' : Proc} {st : Status} (h : mcapiInitialize d n a o seg pr = .ok (st, seg', pr')) :
    pr'.semId = if pr.semId = 0 then o.semaphore else pr.semId := by
  simp only [mcapiInitialize, transValidNode, Bool.not_true, Bool.false_eq_true, if_false] at h
  obtain ⟨known, hk, h⟩ := bind_eq_ok.mp h
  cases initializedIn_false hk
  obtain ⟨⟨rc, seg1, pr1⟩, h1, h⟩ := bind_eq_ok.mp h
  have hpr : pr' = pr1 := by cases rc <;> cases h <;> rfl
  subst hpr
  unfold transInitializeInternal at h1
  split at h1
  · rename_i hsem
    cases h1
    rw [if_pos hsem.1, hsem.2]
  · by_cases h0 : pr.semId = 0
    · simp only [if_pos h0] at h1 ⊢
      split at h1 <;> (try split at h1) <;> cases h1 <;> rfl
    · simp only [if_neg h0] at h1 ⊢
      split at h1 <;> (try split at h1) <;> cases h1 <;> rfl

theorem proc_null (h : t.proc.cDb = .null) : t.cDb = false := by
  simp only [Task.proc] at h
  split at h
  · split at h <;> cases h
  · rename_i hc
    exact Bool.eq_false_of_not_eq_true hc

theorem proc_attached (h : t.proc.cDb = .attached) : t.cDb = true ∧ ∃ id, t.mapped = some id := by
  simp only [Task.proc] at h
  split at h
  · rename_i hc
    split at h
    · rename_i hm
      exact ⟨hc, Option.isSome_iff_exists.mp hm⟩
    · cases h
  · cases h

/-- A process that has not let go of the segment has it attached if its `c_db` is set. -/
theorem mapped_of_not_dangling (h : t.proc.cDb ≠ .dangling) (hc : t.cDb = true) : ∃ id, t.mapped = some id := by
  by_contra hno
  have hm : t.mapped = none := by
    cases hm : t.mapped with
    | none => rfl
    | some id => exact absurd ⟨id, hm⟩ hno
  exact h (by simp [Task.proc, hc, hm])

/-- From the call to the lock. -/
theorem begun_runs {x : Int} (d n : U32) (a : Option NodeAttributes)
    (hx : if t.semId = 0 then x = sid else x = t.semId) (hsem : k.sem = none ∨ k.sem = some 1)
    (hmet : t.semId = sid → t.semId ≠ 0 → k.sem ≠ none) :
    ∃ os k', SysRun sid (k, t.begun d n a) os (k', { t.begun d n a with semId := x, stage := .lock }) ∧
      (x = sid → k'.sem = some 1) ∧ (k'.sem = none ∨ k'.sem = some 1) ∧ k'.key = k.key ∧ k'.shm = k.shm ∧
      k'.made = k.made := by
  by_cases h0 : t.semId = 0
  · rw [if_pos h0] at hx
    subst hx
    obtain ⟨os, hr⟩ := create_semaphore sid (k := k) (t := t.begun d n a) (if_pos h0)
    have hone : some (k.sem.getD 1) = some 1 := by rcases hsem with hs | hs <;> rw [hs] <;> rfl
    exact ⟨os, _, hr, fun _ => hone, .inr hone, rfl, rfl, rfl⟩
  · rw [if_neg h0] at hx
    subst hx
    have ht : { t.begun d n a with semId := t.semId, stage := .lock } = t.begun d n a := by simp [Task.begun, h0]
    rw [ht]
    refine ⟨[], k, .nil _, fun hid => ?_, hsem, rfl, rfl, rfl⟩
    exact hsem.resolve_left (hmet hid h0)

/-- An initialisation that gets past the semaphore, by its system calls. -/
theorem initialise_runs {x : Int} (d n : U32) (a : Option NodeAttributes)
    (hx : if t.semId = 0 then x = sid else x = t.semId) (hsem : k.sem = none ∨ k.sem = some 1)
    (hmet : t.semId = sid → t.semId ≠ 0 → k.sem ≠ none) (hlive : ∀ id, k.key = some id → k.alive id = true)
    (hmap : t.cDb = true → ∃ id, t.mapped = some id ∧ k.key = some id) :
    ∃ os k' t' id, SysRun sid (k, t.begun d n a) os (k', t') ∧ t'.stage = .idle ∧ t'.semId = x ∧ t'.cDb = true ∧
      t'.mapped = some id ∧ k'.key = some id ∧ (k.key = none ∨ k.key = some id) ∧ (k'.sem = none ∨ k'.sem = some 1) ∧
      k'.segment = (if t.cDb then k.segment else some (smAttachSharedMem k.segment)).map fun g =>
        { g with db := (transAddNode (transInitRequestIndexedArray g.db) d n a).2 } := by
  obtain ⟨os1, k1, hr1, hone, hsem1, hkey1, hshm1, hmade1⟩ := begun_runs d n a hx hsem hmet
  have hlive1 : ∀ id, k1.key = some id → k1.alive id = true := by
    intro id hk
    rw [hkey1] at hk
    have := hlive id hk
    simpa only [Kernel.alive, hshm1, hmade1] using this
  obtain ⟨os2, k2, id, hr2, hsem2, hkey2, hold, hseg2⟩ := section_runs sid (k := k1)
    (t := { t.begun d n a with semId := x, stage := .lock }) rfl hone hlive1 (by rw [hkey1]; exact hmap)
  obtain ⟨k3, hr3, hsem3, hkey3, hseg3⟩ := writes_run sid (k := k2)
    (t := { t.begun d n a with semId := x, cDb := true, mapped := some id, stage := .initArray }) rfl rfl rfl hkey2
  refine ⟨_, k3, _, id, (hr1.append hr2).append hr3, rfl, rfl, rfl, rfl, hkey3, hkey1 ▸ hold, ?_, ?_⟩
  · rw [hsem3, hsem2]
    exact hsem1
  · rw [hseg3, hseg2]
    have hk : k1.segment = k.segment := by simp only [Kernel.segment, hkey1, hshm1]
    rw [hk]
    rfl

theorem Realises.alive {f : Os} {s : Sys} (h : Realises sid f s) (hk : f.kernel.key = some id) :
    f.kernel.alive id = true := by
  obtain ⟨hmade, hr⟩ := (h.inv.key id).mp hk
  simp [Kernel.alive, hmade, hr]

section
variable {f : Os} {s s' : Sys} {p : Nat} {pr : Proc} {seg : Option Segment} {d n : U32} {a : Option NodeAttributes}

theorem Realises.begins (h : Realises sid f s) (hnd : (s.procs p).cDb ≠ .dangling) :
    Move sid f.kernel (f.tasks p) (.initialise d n a) f.kernel ((f.tasks p).begun d n a) := by
  rw [h.proc p] at hnd
  exact .begins (h.idle p) (mapped_of_not_dangling hnd)

/-- Without the semaphore: one `semget` that fails. -/
theorem Realises.refused (h : Realises sid f s) (hnd : (s.procs p).cDb ≠ .dangling) (h0 : (s.procs p).semId = 0)
    (hpr : pr = { s.procs p with semId := -1 }) :
    ∃ ls f', Lts.Run (OsStep sid) f ls f' ∧ ls.filter (fun l => l.2.isCall) = [(p, .initialise d n a)] ∧
      Realises sid f' ⟨s.seg, Function.update s.procs p pr⟩ := by
  have hid : (f.tasks p).semId = 0 := by rw [h.proc p] at h0; exact h0
  have hm : Move sid f.kernel ((f.tasks p).begun d n a) (.sys { fails := true }) f.kernel
      { (f.tasks p).begun d n a with semId := -1, stage := .idle } := .semFails (.inl (if_pos hid)) rfl
  obtain ⟨ls, f', hrun, hfilter, hk', ht', hq⟩ := call_run rfl (h.begins hnd) hm.one
  have hk' : f'.kernel = f.kernel := hk'
  refine ⟨ls, f', hrun, hfilter, h.after pr hrun hq (by rw [ht']) ?_ ?_ ?_ (by rw [hk']; exact h.sem)⟩
  · rw [ht', hpr, h.proc p]
    rfl
  · rw [hk', h.seg]
    rfl
  · intro q j hj
    rw [hk']
    by_cases e : q = p
    · subst e
      rw [ht'] at hj
      exact h.shared q j hj
    · rw [hq q e] at hj
      exact h.shared q j hj

theorem Realises.works (h : Realises sid f s) (hnd : (s.procs p).cDb ≠ .dangling)
    (hid : if (s.procs p).semId = 0 then pr.semId = sid else pr.semId = (s.procs p).semId) (hpr : pr.cDb = .attached)
    (hseg : seg = (if (f.tasks p).cDb then s.seg else some (smAttachSharedMem s.seg)).map fun g =>
      { g with db := (transAddNode (transInitRequestIndexedArray g.db) d n a).2 }) :
    ∃ ls f', Lts.Run (OsStep sid) f ls f' ∧ ls.filter (fun l => l.2.isCall) = [(p, .initialise d n a)] ∧
      Realises sid f' ⟨seg, Function.update s.procs p pr⟩ := by
  have hmap : (f.tasks p).cDb = true → ∃ id, (f.tasks p).mapped = some id ∧ f.kernel.key = some id := by
    intro hc
    rw [h.proc p] at hnd
    obtain ⟨id, hm⟩ := mapped_of_not_dangling hnd hc
    exact ⟨id, hm, h.shared p id hm⟩
  rw [h.proc p] at hid
  obtain ⟨os, k', t', id, hr, hst, hsid, hc, hm, hkey, hold, hsem, hsegm⟩ :=
    initialise_runs d n a hid h.sem (fun he h0 => h.met p (.inr (.inr ⟨he, .inl h0⟩))) (fun id => h.alive) hmap
  obtain ⟨ls, f', hrun, hfilter, hk', ht', hq⟩ := call_run rfl (h.begins hnd) hr
  refine ⟨ls, f', hrun, hfilter, h.after pr hrun hq (by rw [ht']; exact hst) ?_ ?_ ?_ (by rw [hk']; exact hsem)⟩
  · rw [ht']
    simp only [Task.proc, hc, hm, hsid, if_true, Option.isSome_some, ← hpr]
  · rw [hseg, hk', hsegm, h.seg]
    rfl
  · intro q j hj
    rw [hk', hkey]
    by_cases e : q = p
    · rw [e, ht', hm] at hj
      exact hj
    · rw [hq q e] at hj
      rcases hold with hnone | hsome
      · cases hnone.symm.trans (h.shared q j hj)
      · exact hsome.symm.trans (h.shared q j hj)

theorem initialise_realised {o : InitEnv} (h : Realises sid f s) (hfit : o.semaphore = -1 ∨ o.semaphore = sid)
    (hs : SysStep s (.initialise p d n a o) s') :
    ∃ ls f', Lts.Run (OsStep sid) f ls f' ∧ ls.filter (fun l => l.2.isCall) = [(p, .initialise d n a)] ∧
      Realises sid f' s' := by
  obtain ⟨⟨st, seg, pr⟩, hi, h1⟩ := bind_eq_ok.mp hs
  cases h1
  have hsemId := initialise_semId hi
  have hspec := initialise_spec d n a o s.seg (s.procs p)
  rw [hi] at hspec
  have hid (hno : ¬ NoSemaphore (s.procs p) o) :
      if (s.procs p).semId = 0 then pr.semId = sid else pr.semId = (s.procs p).semId := by
    rw [hsemId]
    split
    · rename_i h0
      exact hfit.resolve_left fun hbad => hno ⟨h0, hbad⟩
    · rfl
  cases hspec with
  | noSemaphore _ hnd hno hc =>
    rw [if_pos hno.1, hno.2] at hsemId
    refine h.refused hnd hno.1 ?_
    show pr = ⟨(s.procs p).cDb, -1⟩
    rw [← hc, ← hsemId]
  | attaches _ hc hno ho hpr =>
    refine h.works (by rw [hc]; decide) (hid hno) hpr ?_
    rw [h.proc p] at hc
    rw [proc_null hc]
    rfl
  | again g _ hc hg hno hpr =>
    refine h.works (by rw [hc]; decide) (hid hno) hpr ?_
    rw [h.proc p] at hc
    rw [(proc_attached hc).1, hg]
    rfl

/-- A process that is not attached has nothing mapped. -/
theorem Realises.unmapped (h : Realises sid f s) (hc : (s.procs p).cDb ≠ .attached) : (f.tasks p).mapped = none := by
  rw [h.proc p] at hc
  cases hd : (f.tasks p).cDb with
  | false => exact (h.inv.task p).unset (by rw [h.idle p]; rfl) hd
  | true =>
    cases hm : (f.tasks p).mapped with
    | none => rfl
    | some id => exact absurd (by simp [Task.proc, hd, hm]) hc

theorem Realises.mapped (h : Realises sid f s) (hc : (s.procs p).cDb = .attached) :
    ∃ id, (f.tasks p).mapped = some id ∧ f.kernel.key = some id := by
  rw [h.proc p] at hc
  obtain ⟨-, id, hm⟩ := proc_attached hc
  exact ⟨id, hm, h.shared p id hm⟩

theorem exit_realised (h : Realises sid f s) (hs : SysStep s (.exit p) s') :
    ∃ ls f', Lts.Run (OsStep sid) f ls f' ∧ ls.filter (fun l => l.2.isCall) = [(p, .exit)] ∧
      Realises sid f' s' := by
  cases hs
  have hm : Move sid f.kernel (f.tasks p) .exit _ {} := .exits
  have hsem : (((f.tasks p).mapped.map f.kernel.detach).getD f.kernel).sem = f.kernel.sem := by
    cases (f.tasks p).mapped <;> rfl
  have hkey : (((f.tasks p).mapped.map f.kernel.detach).getD f.kernel).key = f.kernel.key := by
    cases (f.tasks p).mapped <;> rfl
  obtain ⟨ls, f', hrun, hfilter, hk', ht', hq⟩ := call_run rfl hm (.nil _)
  refine ⟨ls, f', hrun, hfilter, h.after {} hrun hq (by rw [ht']) (by rw [ht']; rfl) ?_ ?_ ?_⟩
  · rw [hk']
    by_cases hc : (s.procs p).cDb = .attached
    · obtain ⟨id, hm, hk⟩ := h.mapped hc
      rw [hc, if_pos rfl, hm, h.seg, hk]
      exact congrArg (Sys.mk · _) (segment_detach hk).symm
    · rw [if_neg hc, h.unmapped hc, h.seg]
      rfl
  · intro q j hj
    rw [hk', hkey]
    by_cases e : q = p
    · rw [e, ht'] at hj
      cases hj
    · rw [hq q e] at hj
      exact h.shared q j hj
  · rw [hk', hsem]
    exact h.sem

theorem call_realised {E : Env} {c : Call} {errno : Int} {fl : U32} (h : Realises sid f s)
    (hs : SysStep s (.call p E c errno fl) s') :
    ∃ ls f', Lts.Run (OsStep sid) f ls f' ∧ ls.filter (fun l => l.2.isCall) = [(p, .call E c errno fl)] ∧
      Realises sid f' s' := by
  unfold SysStep Sys.step at hs
  dsimp only at hs
  split at hs
  · rename_i g hc hg
    obtain ⟨⟨x, w⟩, hx, hs⟩ := bind_eq_ok.mp hs
    cases hs
    obtain ⟨id, hm, hk⟩ := h.mapped hc
    have hdb : g = ⟨(f.kernel.shm id).db, (f.kernel.shm id).nattch⟩ := by
      rw [h.seg, hk] at hg
      exact (Option.some_inj.mp hg).symm
    rw [h.proc p] at hc
    subst hdb
    have hmove : Move sid f.kernel (f.tasks p) (.call E c errno fl) (f.kernel.write id w.db) (f.tasks p) :=
      .calls (h.idle p) (proc_attached hc).1 hm hx
    obtain ⟨ls, f', hrun, hfilter, hk', ht', hq⟩ := call_run rfl hmove (.nil _)
    refine ⟨ls, f', hrun, hfilter, h.after (s.procs p) hrun hq (by rw [ht']; exact h.idle p) ?_ ?_ ?_ ?_⟩
    · rw [ht', h.proc p]
    · rw [hk', segment_write hk, Function.update_eq_self]
    · intro q j hj
      rw [hk']
      by_cases e : q = p
      · subst e
        rw [ht'] at hj
        exact h.shared q j hj
      · rw [hq q e] at hj
        exact h.shared q j hj
    · rw [hk']
      exact h.sem
  · cases hs

theorem Realises.finalize_attached (h : Realises sid f s) (hc : (s.procs p).cDb = .attached) {g : Segment}
    (hg : s.seg = some g) :
    ∃ ls f', Lts.Run (OsStep sid) f ls f' ∧ ls.filter (fun l => l.2.isCall) = [(p, .finalize)] ∧
      Realises sid f' ⟨if g.nattch - 1 = 0 then none else some { g with nattch := g.nattch - 1 },
        Function.update s.procs p { s.procs p with cDb := .dangling }⟩ := by
  obtain ⟨id, hm, hk⟩ := h.mapped hc
  have hdb : g = ⟨(f.kernel.shm id).db, (f.kernel.shm id).nattch⟩ := by
    rw [h.seg, hk] at hg
    exact (Option.some_inj.mp hg).symm
  subst hdb
  obtain ⟨hmade, hrem⟩ := (h.inv.key id).mp hk
  have ha : (f.kernel.detach id).alive id = true := by
    simp only [Kernel.alive, Kernel.detach_removed, hrem]
    simpa [Kernel.detach, Kernel.setShm] using hmade
  obtain ⟨os, k', hr, hsem, hk1⟩ := finalize_runs sid (h.idle p) hm hk ha
  obtain ⟨ls, f', hrun, hfilter, hk', ht', hq⟩ := call_run (a := .finalize) rfl (.finalizes (h.idle p)) hr
  have hkey : (f.kernel.detach id).key = some id := hk
  have hproc : (f.tasks p).cDb = true := by
    rw [h.proc p] at hc
    exact (proc_attached hc).1
  refine ⟨ls, f', hrun, hfilter, h.after { s.procs p with cDb := .dangling } hrun hq
    (by rw [ht']; exact h.idle p) ?_ ?_ ?_ (by rw [hk', hsem]; exact h.sem)⟩
  · rw [ht', h.proc p]
    simp [Task.proc, hproc]
  · rw [hk', hk1]
    dsimp only
    split
    · rw [Kernel.segment, show ((f.kernel.detach id).remove id).key = none from if_pos hkey]
      rfl
    · rw [segment_detach hk]
  · intro q j hj
    rw [hk', hk1]
    have hqp : q ≠ p := by
      rintro rfl
      rw [ht'] at hj
      cases hj
    rw [hq q hqp] at hj
    cases hk.symm.trans (h.shared q j hj)
    have htwo : ¬ (f.kernel.shm id).nattch - 1 = 0 := by
      intro h0
      have := (h.inv.count id).only (by omega) hj hm
      exact hqp this
    rw [if_neg htwo]
    exact hkey

theorem finalize_realised (h : Realises sid f s) (hs : SysStep s (.finalize p) s') :
    ∃ ls f', Lts.Run (OsStep sid) f ls f' ∧ ls.filter (fun l => l.2.isCall) = [(p, .finalize)] ∧
      Realises sid f' s' := by
  have hs' : s' = ⟨(transFinalize s.seg (s.procs p)).1,
      Function.update s.procs p (transFinalize s.seg (s.procs p)).2⟩ := by
    cases hs
    rfl
  rw [hs']
  by_cases hc : (s.procs p).cDb = .attached
  · obtain ⟨id, hm, hk⟩ := h.mapped hc
    have hg : s.seg = some ⟨(f.kernel.shm id).db, (f.kernel.shm id).nattch⟩ := by rw [h.seg, hk]; rfl
    have hfin := h.finalize_attached hc hg
    simpa only [transFinalize, hc, hg] using hfin
  · have hstay : transFinalize s.seg (s.procs p) = (s.seg, s.procs p) := by
      unfold transFinalize
      split
      · rename_i hc' _
        exact absurd hc' hc
      · rfl
    rw [hstay]
    obtain ⟨os, hr⟩ := finalize_stops sid (h.idle p) (h.unmapped hc) (k := f.kernel)
    obtain ⟨ls, f', hrun, hfilter, hk', ht', hq⟩ := call_run (a := .finalize) rfl (.finalizes (h.idle p)) hr
    refine ⟨ls, f', hrun, hfilter, h.after (s.procs p) hrun hq (by rw [ht']; exact h.idle p) ?_ ?_ ?_ ?_⟩
    · rw [ht', h.proc p]
    · rw [hk', h.seg]
      rfl
    · intro q j hj
      rw [hk']
      by_cases e : q = p
      · subst e
        rw [ht'] at hj
        exact h.shared q j hj
      · rw [hq q e] at hj
        exact h.shared q j hj
    · rw [hk']
      exact h.sem

end

/-! ## The runs -/

theorem Realises.init : Realises sid {} Sys.init := by
  refine ⟨fun _ => rfl, fun _ => rfl, rfl, fun q id hq => ?_, SegInv.init, .inl rfl, fun p hp => ?_⟩
  · cases hq
  · simp [Met] at hp

theorem step_realised {f : Os} {s s' : Sys} {l : SysLabel} (h : Realises sid f s) (hl : FitsSet sid l)
    (hs : SysStep s l s') :
    ∃ ls f', Lts.Run (OsStep sid) f ls f' ∧ ls.filter (fun l => l.2.isCall) = [l.act] ∧ Realises sid f' s' := by
  cases l with
  | initialise p d n a o => exact initialise_realised h hl hs
  | finalize p => exact finalize_realised h hs
  | exit p => exact exit_realised h hs
  | call p E c errno fl => exact call_realised h hs

/-- Every run of whole calls is a run of system calls, with the same calls in the same order, to
    a state that realises the one it leads to. -/
theorem whole_calls_realised {s : Sys} {cs : List SysLabel} (h : Lts.Run SysStep Sys.init cs s)
    (hfit : ∀ c ∈ cs, FitsSet sid c) :
    ∃ ls f, Lts.Run (OsStep sid) {} ls f ∧ ls.filter (fun l => l.2.isCall) = cs.map SysLabel.act ∧ Realises sid f s :=
  h.realised (R := fun s f => Realises sid f s) step_realised hfit Realises.init

/-- Two processes attach, and one lets go. -/
theorem whole_calls_realised_two : ∃ s ls f,
    Lts.Run SysStep Sys.init [.initialise 0 0 0 none ⟨7, true⟩, .initialise 1 0 1 none ⟨7, true⟩, .finalize 0] s ∧
    Lts.Run (OsStep 7) {} ls f ∧
    ls.filter (fun l => l.2.isCall) = [(0, .initialise 0 0 none), (1, .initialise 0 1 none), (0, .finalize)] ∧
    Realises 7 f s := by
  have hrun : ∃ s, Lts.Run SysStep Sys.init
      [.initialise 0 0 0 none ⟨7, true⟩, .initialise 1 0 1 none ⟨7, true⟩, .finalize 0] s :=
    ⟨_, .cons rfl <| .cons rfl <| .single rfl⟩
  obtain ⟨s, hrun⟩ := hrun
  have hfit : ∀ c ∈ [SysLabel.initialise 0 0 0 none ⟨7, true⟩, .initialise 1 0 1 none ⟨7, true⟩, .finalize 0],
      FitsSet 7 c := by
    intro c hc
    simp only [List.mem_cons, List.not_mem_nil, or_false] at hc
    rcases hc with rfl | rfl | rfl
    · exact .inr rfl
    · exact .inr rfl
    · trivial
  obtain ⟨ls, f, hls, hfilter, hf⟩ := whole_calls_realised hrun hfit
  exact ⟨s, ls, f, hrun, hls, hfilter, hf⟩

end Mcapi
