/-
  Mcapi.SystemCalls — `mcapi_initialize` and `mcapi_finalize` by their system calls
  (`transport_sm_create_semaphore`, `transport_sm_lock_semaphore`,
  `transport_sm_unlock_semaphore`, `transport_sm_create_shared_mem`,
  `sm_attach_shared_mem`, `transport_sm_free_shared_mem`, `mcapi_trans_initialize_`,
  `mcapi_trans_finalize`).

  `Os` is the kernel's side (one semaphore set and the segments, both found by key) and any
  number of processes. A step of the system is a step of one process: a system call of
  an initialisation or of a finalisation, one of the writes to the segment that follow
  them, a whole call of the library in between, or its death. So a run is any
  interleaving of them. Each system call may fail (`SysResult.fails`), and the code looks at
  `errno` after a `shmget` whether or not it failed (`SysResult.stale`).

  A new semaphore set has the value 0 until `SETVAL` gives it 1. None of the semaphore
  operations has `SEM_UNDO`, so a process that dies leaves the value as it is. A segment
  that is removed lives on without its key until the last process detaches.

  An access through a null or dangling `c_db` is no step: the process can only end.

  `Move` lists what a step of a process can be; `step_iff_move`: the step function takes
  exactly these.
-/

import Mcapi.Processes

namespace Mcapi

/-! ## The kernel -/

structure Shm where
  db : Database := zeroed
  nattch : Nat := 0
  removed : Bool := false

/-- `sem` is the value of the semaphore, where the set exists; `key` the segment that the
    key names; `shm` the segments by their ids, of which the first `made` were made. -/
structure Kernel where
  sem : Option Nat := none
  key : Option Nat := none
  shm : Nat → Shm := fun _ => {}
  made : Nat := 0

namespace Kernel

/-- `shmat` and `shmctl` find the segment. -/
def alive (k : Kernel) (id : Nat) : Bool := k.made > id && !((k.shm id).removed && (k.shm id).nattch = 0)

def setShm (k : Kernel) (id : Nat) (g : Shm) : Kernel := { k with shm := Function.update k.shm id g }

/-- `shmget` with `IPC_CREAT`, of a key that names nothing. -/
def create (k : Kernel) : Kernel := { k.setShm k.made {} with key := some k.made, made := k.made + 1 }

def attach (k : Kernel) (id : Nat) : Kernel := k.setShm id { k.shm id with nattch := (k.shm id).nattch + 1 }

def detach (k : Kernel) (id : Nat) : Kernel := k.setShm id { k.shm id with nattch := (k.shm id).nattch - 1 }

def write (k : Kernel) (id : Nat) (db : Database) : Kernel := k.setShm id { k.shm id with db := db }

/-- `IPC_RMID`. -/
def remove (k : Kernel) (id : Nat) : Kernel :=
  { k.setShm id { k.shm id with removed := true } with key := if k.key = some id then none else k.key }

variable (k : Kernel) (id j : Nat) (db : Database)

theorem setShm_shm (g : Shm) : (k.setShm id g).shm j = if j = id then g else k.shm j := Function.update_apply ..

theorem create_shm : k.create.shm j = if j = k.made then {} else k.shm j := setShm_shm ..

theorem attach_nattch : ((k.attach id).shm j).nattch = (k.shm j).nattch + if j = id then 1 else 0 := by
  rw [attach, setShm_shm]
  split <;> simp_all

theorem attach_removed : ((k.attach id).shm j).removed = (k.shm j).removed := by
  rw [attach, setShm_shm]
  split <;> simp_all

theorem detach_nattch : ((k.detach id).shm j).nattch = (k.shm j).nattch - if j = id then 1 else 0 := by
  rw [detach, setShm_shm]
  split <;> simp_all

theorem detach_removed : ((k.detach id).shm j).removed = (k.shm j).removed := by
  rw [detach, setShm_shm]
  split <;> simp_all

theorem write_nattch : ((k.write id db).shm j).nattch = (k.shm j).nattch := by
  rw [write, setShm_shm]
  split <;> simp_all

theorem write_removed : ((k.write id db).shm j).removed = (k.shm j).removed := by
  rw [write, setShm_shm]
  split <;> simp_all

theorem remove_nattch : ((k.remove id).shm j).nattch = (k.shm j).nattch := by
  rw [remove]
  dsimp only
  rw [setShm_shm]
  split <;> simp_all

theorem remove_removed : ((k.remove id).shm j).removed = ((k.shm j).removed || decide (j = id)) := by
  rw [remove]
  dsimp only
  rw [setShm_shm]
  split <;> simp_all

end Kernel

/-! ## The processes -/

/-- What a process does next: one constructor for each system call or write, in the order
    of the source. -/
inductive Stage where
  | idle
  -- transport_sm_create_semaphore
  | semCreate
  | semOpen
  | semSet
  | lock
  -- transport_sm_create_shared_mem, sm_attach_shared_mem
  | shmCreate
  | shmOpen
  | shmAttach (id : Nat)
  | shmStat (id : Nat)
  | clear (id : Nat)
  | unlock
  | initArray
  | addNode
  -- mcapi_trans_finalize, transport_sm_free_shared_mem
  | finGet
  | finDetach (id : Nat)
  | finStat (id : Nat)
  | finRemove (id : Nat)
  deriving DecidableEq, Repr

/-- A process: the globals of the library (`cDb` says that `c_db` is not null), the
    segment it has attached, the arguments of the `mcapi_initialize` it is in. -/
structure Task where
  stage : Stage := .idle
  semId : Int := 0
  cDb : Bool := false
  mapped : Option Nat := none
  domainId : U32 := 0
  nodeId : U32 := 0
  nodeAttrs : Option NodeAttributes := none

def Task.goto (t : Task) (g : Stage) : Task := { t with stage := g }

structure SysResult where
  fails : Bool := false
  stale : Bool := false
  deriving DecidableEq, Repr

inductive Act where
  | initialise (domainId nodeId : U32) (nodeAttrs : Option NodeAttributes)
  | finalize
  /-- The next system call or write of the call the process is in. -/
  | sys (o : SysResult)
  | call (E : Env) (c : Call) (errno : Int) (fl : U32)
  | exit

structure Os where
  kernel : Kernel := {}
  tasks : Nat → Task := fun _ => {}

/-! ## A step -/

-- The id of the semaphore set that the key names.
variable (sid : Nat)

/-- `semop` fails: the id is not that of the set, or the call is interrupted. -/
def semopFails (k : Kernel) (t : Task) (o : SysResult) : Bool := o.fails || t.semId ≠ sid || k.sem = none

def Task.begun (t : Task) (d n : U32) (a : Option NodeAttributes) : Task :=
  { t with stage := if t.semId = 0 then .semCreate else .lock, domainId := d, nodeId := n, nodeAttrs := a }

/-- After `mcapi_trans_initialized`, which reads through `c_db` unless it is null. -/
def beginInitialise (k : Kernel) (t : Task) (d n : U32) (a : Option NodeAttributes) : Option Task :=
  match t.cDb, t.mapped with
  | false, _ => some (t.begun d n a)
  | true, some id => some (if transInitialized (k.shm id).db d n then t else t.begun d n a)
  | true, none => none

/-- What follows the lock: nothing is attached where `c_db` is set already. -/
def Task.next (t : Task) : Stage := if t.cDb then .unlock else .shmCreate

/-- The two writes through `c_db` after the semaphore is released. -/
def writeDb (k : Kernel) (t : Task) (f : Database → Database) (next : Stage) : Option (Kernel × Task) :=
  match t.cDb, t.mapped with
  | true, some id => some (k.write id (f (k.shm id).db), t.goto next)
  | _, _ => none

/-- One system call. The ones after a semaphore operation go on whether or not it failed. -/
def sysStep (k : Kernel) (t : Task) (o : SysResult) : Option (Kernel × Task) :=
  match t.stage with
  | .idle => none
  | .semCreate =>
    if o.fails then some (k, { t with semId := -1, stage := .idle })
    else match k.sem with
      | some _ => some (k, t.goto .semOpen)
      | none => some ({ k with sem := some 0 }, t.goto .semSet)
  | .semOpen =>
    if o.fails then some (k, { t with semId := -1, stage := .idle })
    else some (k, { t with semId := sid, stage := .lock })
  | .semSet =>
    if o.fails then some (k, { t with semId := -1, stage := .idle })
    else some ({ k with sem := some 1 }, { t with semId := sid, stage := .lock })
  | .lock =>
    if semopFails sid k t o then some (k, t.goto t.next)
    else match k.sem with
      | some (v + 1) => some ({ k with sem := some v }, t.goto t.next)
      | _ => none
  | .shmCreate =>
    if k.key.isSome then some (k, t.goto (if o.fails then .unlock else .shmOpen))
    else if o.fails then some (k, t.goto .unlock)
    else if o.stale then some (k.create, t.goto .shmOpen)
    else some (k.create, t.goto (.shmAttach k.made))
  | .shmOpen =>
    if o.fails then some (k, t.goto .unlock)
    else match k.key with
      | some id => some (k, t.goto (.shmAttach id))
      | none => some (k.create, t.goto (.shmAttach k.made))
  | .shmAttach id =>
    if o.fails || !k.alive id then some (k, t.goto .unlock)
    else some (k.attach id, { t with mapped := some id, stage := .shmStat id })
  | .shmStat id =>
    if o.fails then some (k.detach id, { t with mapped := none, stage := .unlock })
    else if (k.shm id).nattch = 1 then some (k, t.goto (.clear id))
    else some (k, { t with cDb := true, stage := .unlock })
  | .clear id => some (k.write id zeroed, { t with cDb := true, stage := .unlock })
  | .unlock =>
    if semopFails sid k t o then some (k, t.goto .initArray)
    else some ({ k with sem := k.sem.map (· + 1) }, t.goto .initArray)
  | .initArray => writeDb k t transInitRequestIndexedArray .addNode
  | .addNode => writeDb k t (fun db => (transAddNode db t.domainId t.nodeId t.nodeAttrs).2) .idle
  | .finGet =>
    match k.key with
    | some id => some (k, t.goto (if o.fails then .idle else .finDetach id))
    | none => some (k, t.goto .idle)
  | .finDetach id =>
    match t.mapped with
    | some j =>
      if o.fails then some (k, t.goto .idle) else some (k.detach j, { t with mapped := none, stage := .finStat id })
    | none => some (k, t.goto .idle)
  | .finStat id =>
    if o.fails || !k.alive id || (k.shm id).nattch ≠ 0 then some (k, t.goto .idle)
    else some (k, t.goto (.finRemove id))
  | .finRemove id =>
    if o.fails || !k.alive id then some (k, t.goto .idle) else some (k.remove id, t.goto .idle)

def Task.step (k : Kernel) (t : Task) : Act → Option (Kernel × Task)
  | .initialise d n a => if t.stage = .idle then (beginInitialise k t d n a).map (k, ·) else none
  | .finalize => if t.stage = .idle then some (k, t.goto .finGet) else none
  | .sys o => sysStep sid k t o
  | .call E c errno fl =>
    match t.stage, t.cDb, t.mapped with
    | .idle, true, some id =>
      match c.exec .std E { db := (k.shm id).db, errno := errno, fl := fl } with
      | .ok (_, w) => some (k.write id w.db, t)
      | .error _ => none
    | _, _, _ => none
  | .exit => some ((t.mapped.map k.detach).getD k, {})

def Os.put (s : Os) (p : Nat) (k : Kernel) (t : Task) : Os := ⟨k, Function.update s.tasks p t⟩

def Os.step (s : Os) (p : Nat) (a : Act) : Option Os :=
  ((s.tasks p).step sid s.kernel a).map fun r => s.put p r.1 r.2

def OsStep (s : Os) (l : Nat × Act) (s' : Os) : Prop := s.step sid l.1 l.2 = some s'

/-! ## What a step can be -/

/-- A finalisation ends without removing the segment. -/
def finStops (k : Kernel) (t : Task) (o : SysResult) : Bool :=
  match t.stage with
  | .finGet => o.fails || k.key = none
  | .finDetach _ => o.fails || t.mapped = none
  | .finStat id => o.fails || !k.alive id || (k.shm id).nattch ≠ 0
  | .finRemove id => o.fails || !k.alive id
  | _ => false

inductive Move (k : Kernel) (t : Task) : Act → Kernel → Task → Prop
  | begins {d n : U32} {a : Option NodeAttributes} : t.stage = .idle → (t.cDb = true → ∃ id, t.mapped = some id) →
      Move k t (.initialise d n a) k (t.begun d n a)
  | semFails {o : SysResult} : t.stage = .semCreate ∨ t.stage = .semOpen ∨ t.stage = .semSet → o.fails = true →
      Move k t (.sys o) k { t with semId := -1, stage := .idle }
  | semExists {o : SysResult} {v : Nat} : t.stage = .semCreate → o.fails = false → k.sem = some v →
      Move k t (.sys o) k (t.goto .semOpen)
  | semCreates {o : SysResult} : t.stage = .semCreate → o.fails = false → k.sem = none →
      Move k t (.sys o) { k with sem := some 0 } (t.goto .semSet)
  | semOpens {o : SysResult} : t.stage = .semOpen → o.fails = false →
      Move k t (.sys o) k { t with semId := sid, stage := .lock }
  | semSets {o : SysResult} : t.stage = .semSet → o.fails = false →
      Move k t (.sys o) { k with sem := some 1 } { t with semId := sid, stage := .lock }
  | lockFails {o : SysResult} : t.stage = .lock → semopFails sid k t o = true → Move k t (.sys o) k (t.goto t.next)
  | locks {o : SysResult} {v : Nat} : t.stage = .lock → semopFails sid k t o = false → k.sem = some (v + 1) →
      Move k t (.sys o) { k with sem := some v } (t.goto t.next)
  | shmFails {o : SysResult} : t.stage = .shmCreate ∨ t.stage = .shmOpen → o.fails = true →
      Move k t (.sys o) k (t.goto .unlock)
  | shmExists {o : SysResult} {id : Nat} : t.stage = .shmCreate → o.fails = false → k.key = some id →
      Move k t (.sys o) k (t.goto .shmOpen)
  | shmOpens {o : SysResult} {id : Nat} : t.stage = .shmOpen → o.fails = false → k.key = some id →
      Move k t (.sys o) k (t.goto (.shmAttach id))
  | shmCreates {o : SysResult} {g : Stage} : t.stage = .shmCreate ∨ t.stage = .shmOpen → o.fails = false →
      k.key = none →
      g = (if t.stage = .shmCreate ∧ o.stale = true then .shmOpen else .shmAttach k.made) →
      Move k t (.sys o) k.create (t.goto g)
  | attachFails {o : SysResult} {id : Nat} : t.stage = .shmAttach id → (o.fails || !k.alive id) = true →
      Move k t (.sys o) k (t.goto .unlock)
  | attaches {o : SysResult} {id : Nat} : t.stage = .shmAttach id → o.fails = false → k.alive id = true →
      Move k t (.sys o) (k.attach id) { t with mapped := some id, stage := .shmStat id }
  | statFails {o : SysResult} {id : Nat} : t.stage = .shmStat id → o.fails = true →
      Move k t (.sys o) (k.detach id) { t with mapped := none, stage := .unlock }
  | statFirst {o : SysResult} {id : Nat} : t.stage = .shmStat id → o.fails = false → (k.shm id).nattch = 1 →
      Move k t (.sys o) k (t.goto (.clear id))
  | statLater {o : SysResult} {id : Nat} : t.stage = .shmStat id → o.fails = false → (k.shm id).nattch ≠ 1 →
      Move k t (.sys o) k { t with cDb := true, stage := .unlock }
  | clears {o : SysResult} {id : Nat} : t.stage = .clear id →
      Move k t (.sys o) (k.write id zeroed) { t with cDb := true, stage := .unlock }
  | unlockFails {o : SysResult} : t.stage = .unlock → semopFails sid k t o = true →
      Move k t (.sys o) k (t.goto .initArray)
  | unlocks {o : SysResult} {v : Nat} : t.stage = .unlock → semopFails sid k t o = false → k.sem = some v →
      Move k t (.sys o) { k with sem := some (v + 1) } (t.goto .initArray)
  | initArrays {o : SysResult} {id : Nat} : t.stage = .initArray → t.cDb = true → t.mapped = some id →
      Move k t (.sys o) (k.write id (transInitRequestIndexedArray (k.shm id).db)) (t.goto .addNode)
  | addNodes {o : SysResult} {id : Nat} : t.stage = .addNode → t.cDb = true → t.mapped = some id →
      Move k t (.sys o) (k.write id (transAddNode (k.shm id).db t.domainId t.nodeId t.nodeAttrs).2) (t.goto .idle)
  | finalizes : t.stage = .idle → Move k t .finalize k (t.goto .finGet)
  | finGets {o : SysResult} {id : Nat} : t.stage = .finGet → o.fails = false → k.key = some id →
      Move k t (.sys o) k (t.goto (.finDetach id))
  | finDetaches {o : SysResult} {id j : Nat} : t.stage = .finDetach id → o.fails = false → t.mapped = some j →
      Move k t (.sys o) (k.detach j) { t with mapped := none, stage := .finStat id }
  | finStats {o : SysResult} {id : Nat} : t.stage = .finStat id → o.fails = false → k.alive id = true →
      (k.shm id).nattch = 0 → Move k t (.sys o) k (t.goto (.finRemove id))
  | finRemoves {o : SysResult} {id : Nat} : t.stage = .finRemove id → o.fails = false → k.alive id = true →
      Move k t (.sys o) (k.remove id) (t.goto .idle)
  | finStops {o : SysResult} : finStops k t o = true → Move k t (.sys o) k (t.goto .idle)
  | calls {E : Env} {c : Call} {errno : Int} {fl : U32} {id : Nat} {x : Ret} {w : World} : t.stage = .idle →
      t.cDb = true → t.mapped = some id →
      c.exec .std E { db := (k.shm id).db, errno := errno, fl := fl } = .ok (x, w) →
      Move k t (.call E c errno fl) (k.write id w.db) t
  | exits : Move k t .exit ((t.mapped.map k.detach).getD k) {}

variable {sid} {k k' : Kernel} {t t' : Task}

@[simp] theorem goto_stage (t : Task) (g : Stage) : (t.goto g).stage = g := rfl

@[simp] theorem put_kernel (s : Os) (p : Nat) : (s.put p k t).kernel = k := rfl

@[simp] theorem put_same (s : Os) (p : Nat) : (s.put p k t).tasks p = t := Function.update_self ..

theorem put_ne (s : Os) {p q : Nat} (h : q ≠ p) : (s.put p k t).tasks q = s.tasks q := Function.update_of_ne h ..

/-- `mcapi_trans_initialized` never finds the node. -/
theorem beginInitialise_iff {d n : U32} {a : Option NodeAttributes} :
    beginInitialise k t d n a = some t' ↔ t' = t.begun d n a ∧ (t.cDb = true → ∃ id, t.mapped = some id) := by
  unfold beginInitialise
  split
  · rename_i hc
    rw [hc, Option.some_inj, eq_comm]
    simp
  · rename_i id hc hm
    rw [transInitialized_false, if_neg Bool.false_ne_true, Option.some_inj, hm, eq_comm]
    simp
  · rename_i hc hm
    simp [hc, hm]

theorem writeDb_cases {f : Database → Database} {next : Stage} (h : writeDb k t f next = some (k', t')) :
    ∃ id, t.cDb = true ∧ t.mapped = some id ∧ k' = k.write id (f (k.shm id).db) ∧ t' = t.goto next := by
  unfold writeDb at h
  split at h
  · rename_i id hc hm
    cases h
    exact ⟨id, hc, hm, rfl, rfl⟩
  · cases h

theorem sem_some_of_semop {o : SysResult} (h : semopFails sid k t o = false) : ∃ v, k.sem = some v := by
  simp only [semopFails, Bool.or_eq_false_iff, decide_eq_false_iff_not] at h
  exact Option.ne_none_iff_exists'.mp h.2

theorem sysStep_move {o : SysResult} (h : sysStep sid k t o = some (k', t')) : Move sid k t (.sys o) k' t' := by
  unfold sysStep at h
  split at h <;> rename_i hst
  case h_1 => cases h
  case h_2 =>
    split at h
    · rename_i hf
      cases h
      exact .semFails (.inl hst) hf
    rename_i hf
    split at h <;> rename_i hs <;> cases h
    · exact .semExists hst (by simpa using hf) hs
    · exact .semCreates hst (by simpa using hf) hs
  case h_3 =>
    split at h <;> rename_i hf <;> cases h
    · exact .semFails (.inr (.inl hst)) hf
    · exact .semOpens hst (by simpa using hf)
  case h_4 =>
    split at h <;> rename_i hf <;> cases h
    · exact .semFails (.inr (.inr hst)) hf
    · exact .semSets hst (by simpa using hf)
  case h_5 =>
    split at h
    · rename_i hf
      cases h
      exact .lockFails hst hf
    rename_i hf
    split at h
    · rename_i hs
      cases h
      exact .locks hst (by simpa using hf) hs
    · cases h
  case h_6 =>
    split at h
    · rename_i hk
      obtain ⟨id, hk⟩ := Option.isSome_iff_exists.mp hk
      cases hf : o.fails <;> rw [hf] at h <;> cases h
      · exact .shmExists hst hf hk
      · exact .shmFails (.inl hst) hf
    rename_i hk
    have hk : k.key = none := by simpa using hk
    split at h
    · rename_i hf
      cases h
      exact .shmFails (.inl hst) hf
    rename_i hf
    have hf : o.fails = false := by simpa using hf
    split at h <;> rename_i hs <;> cases h
    · exact .shmCreates (.inl hst) hf hk (by simp [hst, hs])
    · exact .shmCreates (.inl hst) hf hk (by simp [hs])
  case h_7 =>
    split at h
    · rename_i hf
      cases h
      exact .shmFails (.inr hst) hf
    rename_i hf
    have hf : o.fails = false := by simpa using hf
    split at h <;> rename_i hk <;> cases h
    · exact .shmOpens hst hf hk
    · exact .shmCreates (.inr hst) hf hk (by simp [hst])
  case h_8 =>
    split at h <;> rename_i hf <;> cases h
    · exact .attachFails hst hf
    · simp only [Bool.not_eq_true, Bool.or_eq_false_iff, Bool.not_eq_false'] at hf
      exact .attaches hst hf.1 hf.2
  case h_9 =>
    split at h
    · rename_i hf
      cases h
      exact .statFails hst hf
    rename_i hf
    have hf : o.fails = false := by simpa using hf
    split at h <;> rename_i hn <;> cases h
    · exact .statFirst hst hf hn
    · exact .statLater hst hf hn
  case h_10 =>
    cases h
    exact .clears hst
  case h_11 =>
    split at h <;> rename_i hf
    · cases h
      exact .unlockFails hst hf
    · have hf : semopFails sid k t o = false := by simpa using hf
      obtain ⟨v, hv⟩ := sem_some_of_semop hf
      rw [hv] at h
      cases h
      exact .unlocks hst hf hv
  case h_12 =>
    obtain ⟨id, hc, hm, rfl, rfl⟩ := writeDb_cases h
    exact .initArrays hst hc hm
  case h_13 =>
    obtain ⟨id, hc, hm, rfl, rfl⟩ := writeDb_cases h
    exact .addNodes hst hc hm
  case h_14 =>
    split at h <;> rename_i hk
    · cases hf : o.fails <;> rw [hf] at h <;> cases h
      · exact .finGets hst hf hk
      · exact .finStops (by simp [finStops, hst, hf])
    · cases h
      exact .finStops (by simp [finStops, hst, hk])
  case h_15 =>
    split at h <;> rename_i hm
    · cases hf : o.fails <;> rw [hf] at h <;> cases h
      · exact .finDetaches hst hf hm
      · exact .finStops (by simp [finStops, hst, hf])
    · cases h
      exact .finStops (by simp [finStops, hst, hm])
  case h_16 =>
    split at h <;> rename_i hf <;> cases h
    · exact .finStops (by simpa [finStops, hst] using hf)
    · simp only [Bool.not_eq_true, Bool.or_eq_false_iff, Bool.not_eq_false', decide_eq_false_iff_not, not_not] at hf
      exact .finStats hst hf.1.1 hf.1.2 hf.2
  case h_17 =>
    split at h <;> rename_i hf <;> cases h
    · exact .finStops (by simpa [finStops, hst] using hf)
    · simp only [Bool.not_eq_true, Bool.or_eq_false_iff, Bool.not_eq_false'] at hf
      exact .finRemoves hst hf.1 hf.2

theorem move_of_step {a : Act} (h : t.step sid k a = some (k', t')) : Move sid k t a k' t' := by
  cases a with
  | initialise d n at' =>
    simp only [Task.step] at h
    split at h
    · rename_i hst
      obtain ⟨u, hb, hu⟩ := Option.map_eq_some_iff.mp h
      cases hu
      obtain ⟨rfl, hc⟩ := beginInitialise_iff.mp hb
      exact .begins hst hc
    · cases h
  | finalize =>
    simp only [Task.step] at h
    split at h <;> rename_i hst <;> cases h
    exact .finalizes hst
  | sys o => exact sysStep_move h
  | call E c errno fl =>
    simp only [Task.step] at h
    split at h
    · rename_i hst hc hm
      split at h <;> rename_i hx <;> cases h
      exact .calls hst hc hm hx
    · cases h
  | exit =>
    cases h
    exact .exits

theorem step_of_move {a : Act} (h : Move sid k t a k' t') : t.step sid k a = some (k', t') := by
  cases h with
  | begins hst hc => simp [Task.step, hst, beginInitialise_iff.mpr ⟨rfl, hc⟩]
  | semFails hst hf => rcases hst with hst | hst | hst <;> simp [Task.step, sysStep, hst, hf]
  | shmFails hst hf => rcases hst with hst | hst <;> simp [Task.step, sysStep, hst, hf]
  | shmCreates hst hf hk hg =>
    subst hg
    rename_i o
    rcases hst with hst | hst <;> cases hs : o.stale <;> simp [Task.step, sysStep, hst, hf, hk, hs]
  | finStops hf =>
    unfold finStops at hf
    split at hf <;> rename_i hst
    · cases hk : k.key <;> simp_all [Task.step, sysStep]
    · cases hm : t.mapped <;> simp_all [Task.step, sysStep]
    · simp_all [Task.step, sysStep]
    · simp_all [Task.step, sysStep]
    · cases hf
  | _ => simp_all [Task.step, sysStep, writeDb]

theorem step_iff_move {a : Act} : t.step sid k a = some (k', t') ↔ Move sid k t a k' t' :=
  ⟨move_of_step, step_of_move⟩

theorem osStep_iff {s s' : Os} {l : Nat × Act} :
    OsStep sid s l s' ↔ ∃ k' t', Move sid s.kernel (s.tasks l.1) l.2 k' t' ∧ s.put l.1 k' t' = s' := by
  simp only [OsStep, Os.step, Option.map_eq_some_iff, Prod.exists, step_iff_move]

theorem osStep_of_move {s : Os} {p : Nat} {a : Act} (h : Move sid s.kernel (s.tasks p) a k' t') :
    OsStep sid s (p, a) (s.put p k' t') :=
  osStep_iff.mpr ⟨k', t', h, rfl⟩

theorem osStep_unique {s t u : Os} {l : Nat × Act} (h : OsStep sid s l t) (h' : OsStep sid s l u) : t = u :=
  Option.some_inj.mp (h.symm.trans h')

end Mcapi
