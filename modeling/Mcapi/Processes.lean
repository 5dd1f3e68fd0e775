/-
  Mcapi.Processes — processes on one shared segment (`mcapi_initialize`,
  `mcapi_trans_initialize_`, `transport_sm_create_shared_mem`, `mcapi_trans_finalize`).

  `Sys` is the segment and the processes. A step is one whole call of one process, or a
  process ending without `mcapi_finalize`, which takes its attachment with it. A call
  that faults ends its process and is not a step. What the system calls of an
  initialisation come to is a parameter of it (`InitEnv`). A call before
  `mcapi_initialize` is taken to fault on the null pointer: some return before they read
  through it, with nothing changed.

  Every initialisation that gets past its semaphore rebuilds the request array, also
  where the segment is in use, and leaves the flags of the requests as they are.

  - `Healthy` are the systems that runs lead to in which no initialisation rebuilds the
    array while requests are reserved; `Healthy.inv`: their databases satisfy `PoolInv`.
  - `initialise_undisturbed_iff`: in those, an initialisation leaves live requests
    undisturbed exactly when it does not rebuild the array or finds none reserved.
-/

import Mcapi.Pool

namespace Mcapi

/-! ## The system -/

/-- The shared memory segment: its contents and how many have it attached. -/
structure Segment where
  db : Database
  nattch : Nat

/-- `c_db`: null, mapped, or left behind by `mcapi_finalize`. -/
inductive DbPtr where
  | null
  | attached
  | dangling
  deriving DecidableEq, Repr

/-- The library's globals in one process. Its `errno` and the flags of its descriptor
    are not kept here: they come with each call. -/
structure Proc where
  cDb : DbPtr := .null
  semId : Int := 0
  deriving DecidableEq, Repr

structure Sys where
  seg : Option Segment
  procs : Nat → Proc

def Sys.init : Sys := ⟨none, fun _ => {}⟩

/-- What an initialisation gets from the system: the semaphore's id or -1, and whether
    the segment can be created and attached. -/
structure InitEnv where
  semaphore : Int
  attaches : Bool
  deriving DecidableEq, Repr

/-- `sm_attach_shared_mem`, on a segment created where there is none: the first to attach
    zeroes it. -/
def smAttachSharedMem (seg : Option Segment) : Segment :=
  let found : Segment := seg.getD ⟨zeroed, 0⟩
  let nattch := found.nattch + 1
  ⟨if nattch = 1 then zeroed else found.db, nattch⟩

/-- `mcapi_trans_initialize_`. Where no segment can be attached, the array is initialised
    all the same, through the null pointer. -/
def transInitializeInternal (o : InitEnv) (seg : Option Segment) (pr : Proc) : Res (Bool × Option Segment × Proc) :=
  if pr.semId = 0 ∧ o.semaphore = -1 then .ok (false, seg, { pr with semId := -1 })
  else
    let pr := if pr.semId = 0 then { pr with semId := o.semaphore } else pr
    match pr.cDb, seg with
    | .null, _ =>
      if !o.attaches then .error .badPointer
      else
        let g := smAttachSharedMem seg
        .ok (true, some { g with db := transInitRequestIndexedArray g.db }, { pr with cDb := .attached })
    | .attached, some g => .ok (true, some { g with db := transInitRequestIndexedArray g.db }, pr)
    | _, _ => .error .badPointer

/-- `mcapi_trans_initialized` reads through `c_db` unless it is null. -/
def initializedIn (seg : Option Segment) (pr : Proc) (domainId nodeId : U32) : Res Bool :=
  match pr.cDb, seg with
  | .null, _ => .ok false
  | .attached, some g => .ok (transInitialized g.db domainId nodeId)
  | _, _ => .error .badPointer

/-- `mcapi_initialize`, with its status. -/
def mcapiInitialize (domainId nodeId : U32) (nodeAttrs : Option NodeAttributes) (o : InitEnv) (seg : Option Segment)
    (pr : Proc) : Res (Status × Option Segment × Proc) := do
  if !transValidNode nodeId then .ok (.errNodeInvalid, seg, pr)
  else if ← initializedIn seg pr domainId nodeId then .ok (.errNodeInitialized, seg, pr)
  else
    let (rc, seg, pr) ← transInitializeInternal o seg pr
    if !rc then .ok (.errNodeInitfailed, seg, pr)
    else
      let seg := seg.map fun g => { g with db := (transAddNode g.db domainId nodeId nodeAttrs).2 }
      .ok (.success, seg, pr)

/-- `mcapi_trans_finalize`: detach, and the last one removes the segment. `c_db` keeps
    its value. -/
def transFinalize (seg : Option Segment) (pr : Proc) : Option Segment × Proc :=
  match pr.cDb, seg with
  | .attached, some g =>
    (if g.nattch - 1 = 0 then none else some { g with nattch := g.nattch - 1 }, { pr with cDb := .dangling })
  | _, _ => (seg, pr)

inductive SysLabel where
  | initialise (p : Nat) (domainId nodeId : U32) (nodeAttrs : Option NodeAttributes) (o : InitEnv)
  | finalize (p : Nat)
  /-- The process ends, and its number may be used again. -/
  | exit (p : Nat)
  | call (p : Nat) (E : Env) (c : Call) (errno : Int) (fl : U32)

def Sys.step (s : Sys) : SysLabel → Res Sys
  | .initialise p d n a o => do
    let (_, seg, pr) ← mcapiInitialize d n a o s.seg (s.procs p)
    .ok ⟨seg, Function.update s.procs p pr⟩
  | .finalize p =>
    let (seg, pr) := transFinalize s.seg (s.procs p)
    .ok ⟨seg, Function.update s.procs p pr⟩
  | .exit p =>
    let seg := if (s.procs p).cDb = .attached then s.seg.map fun g => { g with nattch := g.nattch - 1 } else s.seg
    .ok ⟨seg, Function.update s.procs p {}⟩
  | .call p E c errno fl =>
    match (s.procs p).cDb, s.seg with
    | .attached, some g => do
      let (_, w) ← c.exec .std E { db := g.db, errno := errno, fl := fl }
      .ok ⟨some { g with db := w.db }, s.procs⟩
    | _, _ => .error .badPointer

def SysStep (s : Sys) (l : SysLabel) (s' : Sys) : Prop := s.step l = .ok s'

/-- What a call of the library returns. -/
def Sys.returns (s : Sys) : SysLabel → Option Ret
  | .call p E c errno fl =>
    match (s.procs p).cDb, s.seg with
    | .attached, some g => (c.exec .std E { db := g.db, errno := errno, fl := fl }).toOption.map Prod.fst
    | _, _ => none
  | _ => none

/-! ## Healthy runs -/

/-- The initialisation gets past the semaphore, and so to the request array. -/
def Rebuilds (s : Sys) (p : Nat) (o : InitEnv) : Prop := ¬ ((s.procs p).semId = 0 ∧ o.semaphore = -1)

instance (s : Sys) (p : Nat) (o : InitEnv) : Decidable (Rebuilds s p o) := inferInstanceAs (Decidable (¬ _))

/-- It rebuilds the array only where no request is reserved. -/
def Harmless (s : Sys) (p : Nat) (o : InitEnv) : Prop :=
  Rebuilds s p o → ∀ g, s.seg = some g → reserved g.db = ∅

/-- The initialisations of a run are harmless. -/
def HarmlessStep (s : Sys) : SysLabel → Prop
  | .initialise p _ _ _ o => Harmless s p o
  | _ => True

def Healthy (s : Sys) : Prop := Lts.Reachable (Lts.Guarded SysStep HarmlessStep) Sys.init s

/-! ### What a step does to the segment -/

theorem attach_db (seg : Option Segment) :
    (smAttachSharedMem seg).db = zeroed ∨ ∃ g, seg = some g ∧ (smAttachSharedMem seg).db = g.db := by
  cases seg with
  | none => exact .inl rfl
  | some g =>
    by_cases hn : g.nattch + 1 = 1
    · exact .inl (if_pos hn)
    · exact .inr ⟨g, rfl, if_neg hn⟩

theorem internal_cases {o : InitEnv} {seg seg' : Option Segment} {pr pr' : Proc} {rc : Bool}
    (h : transInitializeInternal o seg pr = .ok (rc, seg', pr')) :
    ((pr.semId = 0 ∧ o.semaphore = -1) ∧ rc = false ∧ seg' = seg) ∨
    (¬ (pr.semId = 0 ∧ o.semaphore = -1) ∧ rc = true ∧
      ∃ db n, (db = zeroed ∨ ∃ g, seg = some g ∧ db = g.db) ∧
        seg' = some ⟨transInitRequestIndexedArray db, n⟩) := by
  unfold transInitializeInternal at h
  split at h
  · rename_i hsem
    cases h
    exact .inl ⟨hsem, rfl, rfl⟩
  rename_i hsem
  refine .inr ⟨hsem, ?_⟩
  dsimp only at h
  split at h
  · split at h
    · cases h
    cases h
    exact ⟨rfl, _, _, attach_db _, rfl⟩
  · rename_i g _
    cases h
    exact ⟨rfl, g.db, g.nattch, .inr ⟨g, rfl, rfl⟩, rfl⟩
  · cases h

theorem initializedIn_false {seg : Option Segment} {pr : Proc} {d n : U32} {b : Bool}
    (h : initializedIn seg pr d n = .ok b) : b = false := by
  unfold initializedIn at h
  split at h
  · cases h; rfl
  · rw [transInitialized_false] at h; cases h; rfl
  · cases h

/-- An initialisation stops at the semaphore, or rebuilds the array over the database it
    finds or a zeroed one and adds the node. -/
theorem initialise_cases {s s' : Sys} {p : Nat} {d n : U32} {a : Option NodeAttributes} {o : InitEnv}
    (h : SysStep s (.initialise p d n a o) s') :
    (¬ Rebuilds s p o ∧ s'.seg = s.seg) ∨
    (Rebuilds s p o ∧ ∃ db k, (db = zeroed ∨ ∃ g, s.seg = some g ∧ db = g.db) ∧
      s'.seg = some ⟨(transAddNode (transInitRequestIndexedArray db) d n a).2, k⟩) := by
  obtain ⟨⟨st, seg, pr⟩, hi, h⟩ := bind_eq_ok.mp h
  cases h
  simp only [mcapiInitialize, transValidNode, Bool.not_true, Bool.false_eq_true, if_false] at hi
  obtain ⟨known, hk, hi⟩ := bind_eq_ok.mp hi
  cases initializedIn_false hk
  obtain ⟨⟨rc, seg1, pr1⟩, h1, hi⟩ := bind_eq_ok.mp hi
  rcases internal_cases h1 with ⟨hsem, rfl, rfl⟩ | ⟨hsem, rfl, db, k, hdb, rfl⟩
  · cases hi
    exact .inl ⟨not_not.mpr hsem, rfl⟩
  · cases hi
    exact .inr ⟨hsem, db, k, hdb, rfl⟩

theorem call_cases {s s' : Sys} {p : Nat} {E : Env} {c : Call} {errno : Int} {fl : U32}
    (h : SysStep s (.call p E c errno fl) s') :
    ∃ g g' l, s.seg = some g ∧ s'.seg = some g' ∧ l.call = c ∧ s.returns (.call p E c errno fl) = some l.ret ∧
      CallStep g.db l g'.db := by
  unfold SysStep Sys.step at h
  dsimp only at h
  split at h
  · rename_i g hc hg
    obtain ⟨⟨x, w⟩, hx, h⟩ := bind_eq_ok.mp h
    cases h
    refine ⟨g, _, ⟨E, c, _, x, w⟩, hg, rfl, rfl, ?_, rfl, rfl, rfl, hx⟩
    simp only [Sys.returns, hc, hg, hx]
    rfl
  · cases h

/-- Finalising or ending never changes what is in the segment. -/
theorem leave_cases {s s' : Sys} {l : SysLabel} (hl : (∃ p, l = .finalize p) ∨ ∃ p, l = .exit p) (h : SysStep s l s')
    {g' : Segment} (hg : s'.seg = some g') : ∃ g, s.seg = some g ∧ g'.db = g.db := by
  rcases hl with ⟨p, rfl⟩ | ⟨p, rfl⟩
  · cases h
    dsimp only [transFinalize] at hg
    split at hg
    · rename_i g _ hs
      dsimp only at hg
      split at hg
      · cases hg
      · cases hg; exact ⟨g, hs, rfl⟩
    · exact ⟨g', hg, rfl⟩
  · cases h
    dsimp only at hg
    split at hg
    · obtain ⟨g, hs, rfl⟩ := Option.map_eq_some_iff.mp hg
      exact ⟨g, hs, rfl⟩
    · exact ⟨g', hg, rfl⟩

/-- What initialisations make and calls keep is so of the segment after any step. -/
theorem segment_keeps {I : Database → Prop} {s s' : Sys} {l : SysLabel} (hI : ∀ g, s.seg = some g → I g.db)
    (hs : SysStep s l s')
    (hinit : ∀ p d n a o db, l = .initialise p d n a o → Rebuilds s p o →
      (db = zeroed ∨ ∃ g, s.seg = some g ∧ db = g.db) → I (transAddNode (transInitRequestIndexedArray db) d n a).2)
    (hcall : ∀ db c db', CallStep db c db' → I db → I db') : ∀ g, s'.seg = some g → I g.db := by
  intro g' hg'
  cases l with
  | initialise p d n a o =>
    rcases initialise_cases hs with ⟨-, heq⟩ | ⟨hreb, db, k, hdb, heq⟩
    · exact hI g' (heq ▸ hg')
    · rw [heq] at hg'
      cases hg'
      exact hinit p d n a o db rfl hreb hdb
  | finalize p =>
    obtain ⟨g, hg, hdb⟩ := leave_cases (.inl ⟨p, rfl⟩) hs hg'
    rw [hdb]
    exact hI g hg
  | exit p =>
    obtain ⟨g, hg, hdb⟩ := leave_cases (.inr ⟨p, rfl⟩) hs hg'
    rw [hdb]
    exact hI g hg
  | call p E c errno fl =>
    obtain ⟨g, g1, l, hg, hg1, -, -, hc⟩ := call_cases hs
    cases hg1.symm.trans hg'
    exact hcall g.db l g'.db hc (hI g hg)

theorem rebuilt_inv {db : Database} (h : reserved db = ∅) (d n : U32) (a : Option NodeAttributes) :
    PoolInv (transAddNode (transInitRequestIndexedArray db) d n a).2 := by
  have hfree : ∀ r, IsFree db r := by
    intro r
    have hr : r ∉ reserved db := by rw [h]; exact Finset.notMem_empty r
    simpa [IsFree] using hr
  exact (init_inv hfree).congr (fun r => by rw [addNode_requests]) (addNode_header ..)

theorem reserved_zeroed : reserved zeroed = ∅ := by
  ext r
  simp [zeroed]

theorem Healthy.inv {s : Sys} (h : Healthy s) : ∀ g, s.seg = some g → PoolInv g.db := by
  refine h.invariant (I := fun s => ∀ g, s.seg = some g → PoolInv g.db) (fun g hg => nomatch hg) ?_
  rintro s l s' ih ⟨hguard, hs⟩
  refine segment_keeps ih hs ?_ fun db c db' hc hi => CallStep.inv hc hi
  rintro p d n a o db rfl hreb (rfl | ⟨g, hg, rfl⟩)
  · exact rebuilt_inv reserved_zeroed d n a
  · exact rebuilt_inv (hguard hreb g hg) d n a

/-- The databases that healthy runs lead to. -/
def Reached (db : Database) : Prop := ∃ s g, Healthy s ∧ s.seg = some g ∧ g.db = db

theorem Reached.inv {db : Database} (h : Reached db) : PoolInv db := by
  obtain ⟨s, g, hs, hg, rfl⟩ := h
  exact hs.inv g hg

/-- A process with the segment to itself. -/
def alone (db : Database) : Sys := ⟨some ⟨db, 1⟩, Function.update (fun _ => {}) 0 ⟨.attached, 1⟩⟩

/-- A call, made by that process. -/
def CallRec.label (l : CallRec) : SysLabel := .call 0 l.env l.call l.before.errno l.before.fl

theorem alone_step {db db' : Database} {l : CallRec} (hs : CallStep db l db') :
    SysStep (alone db) l.label (alone db') ∧ (alone db).returns l.label = some l.ret := by
  obtain ⟨hb, ha, ht, he⟩ := hs
  have hw : l.before = { db := db, errno := l.before.errno, fl := l.before.fl } := by
    rw [← hb, ← ht]
  rw [hw] at he
  simp only [SysStep, Sys.step, Sys.returns, CallRec.label, alone, Function.update_self]
  rw [he, ← ha]
  exact ⟨rfl, rfl⟩

theorem Live.healthy_alone {db : Database} (h : Live db) : Healthy (alone db) := by
  obtain ⟨d, n, a, h⟩ := h
  refine h.invariant (I := fun db => Healthy (alone db)) ?_ ?_
  · exact Lts.Reachable.tail (.refl _) (l := .initialise 0 d n a ⟨1, true⟩) ⟨fun _ _ hg => (nomatch hg), rfl⟩
  · intro db l db' ih hs
    exact Lts.Reachable.tail ih (l := l.label) ⟨trivial, (alone_step hs).1⟩

theorem Live.reached {db : Database} (h : Live db) : Reached db := ⟨_, _, h.healthy_alone, rfl, rfl⟩

/-! ## Live requests and a further initialisation -/

/-- What an initialisation must not disturb: no request that was valid is on the free
    list, the walk of it ends and visits no slot twice, the counter is right, and no
    later reserve hands out a slot that is still reserved. -/
structure Undisturbed (before after : Database) : Prop where
  offList : ∀ r, (before.requests r).valid = true → ¬ OnFreeList after r
  ends : ∃ l, FreeChain.Chain (nextOf after) after.requestReservesHeader.emptyHeadIndex l ∧ l.Nodup
  count : after.requestReservesHeader.currCount = (reserved after).card
  later : ∀ db, Lts.Reachable CallStep after db → ReserveSound db

theorem undisturbed_of_inv {before after : Database} (h : PoolInv after)
    (hv : ∀ r, (before.requests r).valid = true → (after.requests r).valid = true) : Undisturbed before after := by
  obtain ⟨l, hl, hm⟩ := h.free
  refine ⟨?_, ⟨l, hl, hl.nodup⟩, h.count, ?_⟩
  · intro r hr hon
    obtain ⟨l', hl', hrl⟩ := hon
    have hfree : (after.requests r).valid = false := (hm r).mp (hl.unique hl' ▸ hrl)
    rw [hv r hr] at hfree
    cases hfree
  · intro db hdb
    exact reserve_sound (hdb.invariant h fun hi hs => CallStep.inv hs hi)

/-- A rebuilt array has every slot on its free list. -/
theorem rebuilt_onFreeList (db : Database) (d n : U32) (a : Option NodeAttributes) (r : Req) :
    OnFreeList (transAddNode (transInitRequestIndexedArray db) d n a).2 r := by
  obtain ⟨l, hl, hm⟩ : FreeChain.FreeList (fun _ => True) (FreeChain.ascending maxRequests) (some 0) :=
    FreeChain.ascending_freeList fun _ => trivial
  refine ⟨l, ?_, (hm r).mpr trivial⟩
  have hn : nextOf (transAddNode (transInitRequestIndexedArray db) d n a).2 = FreeChain.ascending maxRequests := by
    funext q
    rw [nextOf, addNode_header]
    rfl
  rw [hn, addNode_header]
  exact hl

theorem initialise_harmless {s s' : Sys} (hs : Healthy s) {p : Nat} {d n : U32} {a : Option NodeAttributes}
    {o : InitEnv} (h : SysStep s (.initialise p d n a o) s') {g g' : Segment} (hg : s.seg = some g)
    (hg' : s'.seg = some g')
    (hc : Rebuilds s p o → reserved g.db = ∅) : Undisturbed g.db g'.db := by
  have hguard : HarmlessStep s (.initialise p d n a o) := by
    intro hr g1 hg1
    cases hg.symm.trans hg1
    exact hc hr
  have hinv : PoolInv g'.db := Healthy.inv (hs.tail ⟨hguard, h⟩) g' hg'
  refine undisturbed_of_inv hinv ?_
  intro r hr
  rcases initialise_cases h with ⟨-, heq⟩ | ⟨hreb, -⟩
  · cases (heq.trans hg).symm.trans hg'
    exact hr
  · have hmem := mem_reserved.mpr hr
    rw [hc hreb] at hmem
    exact absurd hmem (Finset.notMem_empty r)

theorem initialise_disturbs {s s' : Sys} {p : Nat} {d n : U32} {a : Option NodeAttributes} {o : InitEnv}
    (h : SysStep s (.initialise p d n a o) s') {g g' : Segment} (hg' : s'.seg = some g') (hr : Rebuilds s p o)
    {r : Req} (hv : (g.db.requests r).valid = true) : ¬ Undisturbed g.db g'.db := by
  intro hu
  rcases initialise_cases h with ⟨hn, -⟩ | ⟨-, db, k, -, heq⟩
  · exact hn hr
  · rw [heq] at hg'
    cases hg'
    exact hu.offList r hv (rebuilt_onFreeList db d n a r)

/-- In a healthy run, an initialisation of a segment in use leaves live requests
    undisturbed exactly when it stops before the request array or no request is
    reserved. -/
theorem initialise_undisturbed_iff {s s' : Sys} (hs : Healthy s) {p : Nat} {d n : U32} {a : Option NodeAttributes}
    {o : InitEnv} (h : SysStep s (.initialise p d n a o) s') {g g' : Segment} (hg : s.seg = some g)
    (hg' : s'.seg = some g') : Undisturbed g.db g'.db ↔ (Rebuilds s p o → reserved g.db = ∅) := by
  refine ⟨fun hu hr => ?_, initialise_harmless hs h hg hg'⟩
  by_contra hne
  obtain ⟨r, hmem⟩ := Finset.nonempty_iff_ne_empty.mpr hne
  exact initialise_disturbs h hg' hr (mem_reserved.mp hmem) hu

/-! ### Two processes -/

/-- The system after a step that is taken. -/
def Sys.after (s : Sys) (l : SysLabel) : Sys :=
  match s.step l with
  | .ok s' => s'
  | .error _ => s

/-- What is in the segment. -/
def Sys.db (s : Sys) : Database := (s.seg.map Segment.db).getD zeroed

/-- The semaphore is there and the segment can be attached. -/
def granted : InitEnv := ⟨1, true⟩

/-- The first process initialises node 0, the second node 1. -/
def firstInit : SysLabel := .initialise 0 0 0 none granted
def secondInit : SysLabel := .initialise 1 0 1 none granted

/-- The first process asks for an endpoint of another node. -/
def firstGet : SysLabel := .call 0 notYet (.endpointGetI 0 7 5 4096 (some 0)) 0 2

theorem healthy_firstInit : Healthy (Sys.init.after firstInit) :=
  Lts.Reachable.tail (.refl _) (l := firstInit) ⟨fun _ _ hg => (nomatch hg), rfl⟩

/-- The second process initialises node 1, and there is no semaphore to be had. -/
def deniedInit : SysLabel := .initialise 1 0 1 none ⟨-1, true⟩

theorem healthy_firstGet : Healthy ((Sys.init.after firstInit).after firstGet) :=
  healthy_firstInit.tail (l := firstGet) ⟨trivial, rfl⟩

/-- It stops there, and the request of the first one is left alone. -/
theorem denied_init_undisturbed :
    (((Sys.init.after firstInit).after firstGet).db.requests 0).valid = true ∧
    Undisturbed ((Sys.init.after firstInit).after firstGet).db
      (((Sys.init.after firstInit).after firstGet).after deniedInit).db := by
  have hstep : SysStep ((Sys.init.after firstInit).after firstGet) deniedInit
      (((Sys.init.after firstInit).after firstGet).after deniedInit) := rfl
  have hnot : ¬ Rebuilds ((Sys.init.after firstInit).after firstGet) 1 ⟨-1, true⟩ := by decide
  exact ⟨rfl, (initialise_undisturbed_iff healthy_firstGet hstep rfl rfl).mpr fun hr => absurd hr hnot⟩

/-- One that gets past its semaphore does not leave it alone: the request is still valid and on the free list. -/
theorem second_init_disturbs :
    ¬ ∀ s, Lts.Reachable SysStep Sys.init s → ∀ p d n a o s', SysStep s (.initialise p d n a o) s' →
      ∀ g g', s.seg = some g → s'.seg = some g' → Undisturbed g.db g'.db := by
  intro h
  have hr : Lts.Reachable SysStep Sys.init ((Sys.init.after firstInit).after firstGet) :=
    Lts.Reachable.tail (Lts.Reachable.tail (.refl _) (l := firstInit) rfl) (l := firstGet) rfl
  have hs : SysStep ((Sys.init.after firstInit).after firstGet) secondInit
      (((Sys.init.after firstInit).after firstGet).after secondInit) := rfl
  exact initialise_disturbs hs rfl (by decide) (r := 0) rfl (h _ hr _ _ _ _ _ _ hs _ _ rfl rfl)

end Mcapi
