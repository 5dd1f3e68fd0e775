/-
  Mcapi.Initialise — what the status of `mcapi_initialize` says (`mcapi_initialize`,
  `mcapi_trans_initialized`, `mcapi_trans_initialize`, `mcapi_trans_add_node`).

  A success should mean that the device was opened, the segment attached and the node
  registered, and an error that nothing changed. But the results of
  `sm_dev_initialize` and `mcapi_trans_add_node` are both ignored, the search for the
  node never finds it (`transInitialized_false`), and the request array is rebuilt
  before the node is added. So the status is a success for a pair that is already
  registered, for a full registry and for a device that was not opened.

  - `registers_iff`: a registration adds the pair exactly when there is a place for it.
  - `reports_registration_iff`: when the calls of a run report what they did.
-/

import Mcapi.Attachment
import Mcapi.Domains

namespace Mcapi

variable {db : Database} {d n : U32}

/-! ## Registered pairs -/

/-- The database has a valid entry for the pair. -/
def HasPair (db : Database) (domainId nodeId : U32) : Prop :=
  ∃ i, (db.domains i).valid = true ∧ (db.domains i).domainId = domainId ∧ (db.domains i).HasNode nodeId

theorem HasPair.congr {db' : Database} (h : HasPair db d n) (he : db'.domains = db.domains) : HasPair db' d n := by
  unfold HasPair
  rw [he]
  exact h

theorem Registers.congr {db' : Database} {i : Fin maxDomains} {j : Fin maxNodes} (h : Registers db d n i j)
    (he : db'.domains = db.domains) : Registers db' d n i j := by
  refine ⟨?_, ?_, ?_, ?_⟩
  · rw [he]; exact h.open0
  · unfold domainSlot
    rw [he]
    exact h.slot
  · rw [he]; exact h.fresh
  · rw [he]; exact h.free

theorem Registers.not_hasPair (hinv : RegistryInv db) {i : Fin maxDomains} {j : Fin maxNodes}
    (h : Registers db d n i j) : ¬ HasPair db d n := by
  rintro ⟨m, hv, hd, hn⟩
  rcases domainSlot_free hinv h.slot with ⟨hvi, hdi⟩ | ⟨-, hno⟩
  · obtain rfl := hinv.distinct m i hv hvi (hd.trans hdi.symm)
    exact h.fresh hn
  · exact hno m hv hd

/-- The pair is new in the database after a registration exactly when there was a place
    for it. -/
theorem registers_iff (hinv : RegistryInv db) (a : Option NodeAttributes) :
    (HasPair (transAddNode db d n a).2 d n ∧ ¬ HasPair db d n) ↔ ∃ i j, Registers db d n i j := by
  have hcases := addNode_cases db d n a
  generalize transAddNode db d n a = x at hcases ⊢
  cases hcases with
  | refused hno => exact iff_of_false (fun h => h.2 h.1) fun ⟨i, j, h⟩ => hno i j h
  | added i j attributes hr =>
    refine iff_of_true ⟨⟨i, ?_, ?_, j, ?_⟩, hr.not_hasPair hinv⟩ ⟨i, j, hr⟩
    all_goals simp [Database.addNode]

/-! ## What the status says -/

/-- One call of `mcapi_initialize`, and what it gets from the system. Whether
    `sm_dev_initialize` could open the device is part of that, though nothing reads it. -/
structure InitCall where
  domainId : U32
  nodeId : U32
  nodeAttrs : Option NodeAttributes
  env : InitEnv
  opened : Bool

def InitCall.exec (c : InitCall) (seg : Option Segment) (pr : Proc) : Res (Status × Option Segment × Proc) :=
  mcapiInitialize c.domainId c.nodeId c.nodeAttrs c.env seg pr

/-- The database a process works on: the one it has mapped, or else the one it would
    find on attaching. -/
def dbOf (seg : Option Segment) (pr : Proc) : Database :=
  match pr.cDb with
  | .null => (smAttachSharedMem seg).db
  | _ => (seg.map Segment.db).getD zeroed

/-- The call returns a success exactly when the device was opened, the segment is
    attached and the pair is newly registered; and else an error that names a pair already
    registered as such, with registry, endpoints and free list as they were. -/
def ReportsRegistration (p : Nat) (s : Sys) (c : InitCall) : Prop :=
  let before := dbOf s.seg (s.procs p)
  ∃ st seg pr, c.exec s.seg (s.procs p) = .ok (st, seg, pr) ∧
    (st = .success ↔ c.opened = true ∧ pr.cDb = .attached ∧ HasPair (dbOf seg pr) c.domainId c.nodeId ∧
      ¬ HasPair before c.domainId c.nodeId) ∧
    (st ≠ .success → (HasPair before c.domainId c.nodeId → st = .errNodeInitialized) ∧
      (dbOf seg pr).domains = before.domains ∧
      (dbOf seg pr).requestReservesHeader = before.requestReservesHeader)

/-- The process has not left `c_db` behind, and either the call stops at the semaphore
    with the pair not registered, or the device is opened, the segment is attached or can
    be, and there is a place for the pair. -/
def HasPlace (p : Nat) (s : Sys) (c : InitCall) : Prop :=
  let before := dbOf s.seg (s.procs p)
  (s.procs p).cDb ≠ .dangling ∧
    ((NoSemaphore (s.procs p) c.env ∧ ¬ HasPair before c.domainId c.nodeId) ∨
      (¬ NoSemaphore (s.procs p) c.env ∧ c.opened = true ∧ ((s.procs p).cDb = .attached ∨ c.env.attaches = true) ∧
        ∃ i j, Registers before c.domainId c.nodeId i j))

/-- `mcapi_initialize` calls of one process. -/
def InitStep (p : Nat) (s : Sys) (c : InitCall) (s' : Sys) : Prop :=
  ∃ st seg pr, c.exec s.seg (s.procs p) = .ok (st, seg, pr) ∧ s' = ⟨seg, Function.update s.procs p pr⟩

theorem initStep_sysStep {p : Nat} {s s' : Sys} {c : InitCall} (h : InitStep p s c s') :
    SysStep s (.initialise p c.domainId c.nodeId c.nodeAttrs c.env) s' := by
  obtain ⟨st, seg, pr, hx, rfl⟩ := h
  unfold InitCall.exec at hx
  simp only [SysStep, Sys.step, hx]
  rfl

/-- A success has the segment attached, and has tried to add the node to what it found. -/
theorem initialise_success {a : Option NodeAttributes} {o : InitEnv} {seg seg' : Option Segment} {pr pr' : Proc}
    (h : mcapiInitialize d n a o seg pr = .ok (.success, seg', pr')) :
    ∃ g, seg' = some g ∧ pr'.cDb = .attached ∧
      g.db = (transAddNode (transInitRequestIndexedArray (dbOf seg pr)) d n a).2 := by
  have hspec := initialise_spec d n a o seg pr
  rw [h] at hspec
  unfold dbOf
  cases hspec with
  | attaches pr' hnull _ _ hc => exact ⟨_, rfl, hc, by rw [hnull]⟩
  | again g pr' hatt hg _ hc => exact ⟨_, rfl, hc, by rw [hatt, hg]; rfl⟩

theorem dbOf_cases {s : Sys} (hs : Lts.Reachable SysStep Sys.init s) (p : Nat) :
    (dbOf s.seg (s.procs p)).domains = zeroed.domains ∨ Registered (dbOf s.seg (s.procs p)) := by
  unfold dbOf
  split
  · rcases attach_db s.seg with he | ⟨g, hg, he⟩
    · exact .inl (by rw [he])
    · exact .inr (he ▸ registered_run hs g hg)
  · cases hg : s.seg with
    | none => exact .inl rfl
    | some g => exact .inr (registered_run hs g hg)

theorem dbOf_registry {s : Sys} (hs : Lts.Reachable SysStep Sys.init s) (p : Nat) :
    RegistryInv (dbOf s.seg (s.procs p)) :=
  (dbOf_cases hs p).elim (fun he => zeroed_registry.congr (.of_eq he)) Registered.inv

variable {p : Nat} {s : Sys} {c : InitCall}

/-- A call that faults reports nothing. -/
theorem fault_reports {e : Fault} (hx : c.exec s.seg (s.procs p) = .error e) : ¬ ReportsRegistration p s c := by
  rintro ⟨st, seg, pr, hok, -⟩
  cases hx.symm.trans hok

/-- A call that stops at the semaphore changes nothing, so all that can be wrong is its
    status. -/
theorem stopped_reports {pr : Proc} (hx : c.exec s.seg (s.procs p) = .ok (.errNodeInitfailed, s.seg, pr))
    (hc : pr.cDb = (s.procs p).cDb) :
    ReportsRegistration p s c ↔ ¬ HasPair (dbOf s.seg (s.procs p)) c.domainId c.nodeId := by
  have hdb : dbOf s.seg pr = dbOf s.seg (s.procs p) := by unfold dbOf; rw [hc]
  constructor
  · rintro ⟨st, seg, pr', hok, -, herr⟩ hpair
    cases hx.symm.trans hok
    cases (herr nofun).1 hpair
  · intro hno
    refine ⟨_, _, _, hx, ?_, fun _ => ⟨fun hpair => absurd hpair hno, by rw [hdb], by rw [hdb]⟩⟩
    rw [hdb]
    exact iff_of_false nofun fun h => h.2.2.2 h.2.2.1

/-- A call that adds the node to the database it finds reports a success, rightly if the
    device is open and there is a place. -/
theorem added_reports (hs : Lts.Reachable SysStep Sys.init s) {pr : Proc} {g : Segment}
    (hx : c.exec s.seg (s.procs p) = .ok (.success, some g, pr)) (hpr : pr.cDb = .attached)
    (hg : g.db =
      (transAddNode (transInitRequestIndexedArray (dbOf s.seg (s.procs p))) c.domainId c.nodeId c.nodeAttrs).2) :
    ReportsRegistration p s c ↔
      c.opened = true ∧ ∃ i j, Registers (dbOf s.seg (s.procs p)) c.domainId c.nodeId i j := by
  have hinv := dbOf_registry hs p
  unfold ReportsRegistration
  generalize dbOf s.seg (s.procs p) = before at hinv hg ⊢
  -- rebuilding the request array leaves the domains alone
  have hafter : dbOf (some g) pr = g.db := by unfold dbOf; rw [hpr]; rfl
  have hinv' : RegistryInv (transInitRequestIndexedArray before) := hinv.congr (.of_eq rfl)
  have hadds := registers_iff (d := c.domainId) (n := c.nodeId) hinv' c.nodeAttrs
  rw [← hg] at hadds
  have hplace : (∃ i j, Registers before c.domainId c.nodeId i j) ↔
      HasPair g.db c.domainId c.nodeId ∧ ¬ HasPair before c.domainId c.nodeId := by
    constructor
    · rintro ⟨i, j, hr⟩
      obtain ⟨hpair, hnew⟩ := hadds.mpr ⟨i, j, hr.congr rfl⟩
      exact ⟨hpair, fun hb => hnew (hb.congr rfl)⟩
    · rintro ⟨hpair, hnew⟩
      obtain ⟨i, j, hr⟩ := hadds.mp ⟨hpair, fun hb => hnew (hb.congr rfl)⟩
      exact ⟨i, j, hr.congr rfl⟩
  rw [hplace]
  constructor
  · rintro ⟨st, seg, pr', hok, hsucc, -⟩
    cases hx.symm.trans hok
    obtain ⟨ho, -, hpair, hnew⟩ := hsucc.mp rfl
    rw [hafter] at hpair
    exact ⟨ho, hpair, hnew⟩
  · rintro ⟨ho, hpair, hnew⟩
    refine ⟨_, _, _, hx, ?_, fun hne => absurd rfl hne⟩
    rw [hafter]
    exact iff_of_true rfl ⟨ho, hpr, hpair, hnew⟩

theorem hasPlace_past (hd : (s.procs p).cDb ≠ .dangling) (hsem : ¬ NoSemaphore (s.procs p) c.env)
    (ha : (s.procs p).cDb = .attached ∨ c.env.attaches = true) :
    HasPlace p s c ↔ c.opened = true ∧ ∃ i j, Registers (dbOf s.seg (s.procs p)) c.domainId c.nodeId i j := by
  constructor
  · rintro ⟨-, ⟨hsem', -⟩ | ⟨-, hopen, -, hplace⟩⟩
    · exact absurd hsem' hsem
    · exact ⟨hopen, hplace⟩
  · rintro ⟨hopen, hplace⟩
    exact ⟨hd, .inr ⟨hsem, hopen, ha, hplace⟩⟩

theorem reportsRegistration_iff (hs : Lts.Reachable SysStep Sys.init s) (p : Nat) (c : InitCall) :
    ReportsRegistration p s c ↔ HasPlace p s c := by
  have hspec := initialise_spec c.domainId c.nodeId c.nodeAttrs c.env s.seg (s.procs p)
  generalize hx : mcapiInitialize c.domainId c.nodeId c.nodeAttrs c.env s.seg (s.procs p) = x at hspec
  cases hspec with
  | unmapped h =>
    refine iff_of_false (fault_reports hx) ?_
    intro hplace
    rcases h with hd | ⟨ha, hn⟩
    · exact hplace.1 hd
    · obtain ⟨g, hg, -⟩ := attached_segment hs ha
      cases hg.symm.trans hn
  | noSemaphore pr hd hsem hc =>
    rw [stopped_reports hx hc]
    constructor
    · intro hno
      exact ⟨hd, .inl ⟨hsem, hno⟩⟩
    · rintro ⟨-, ⟨-, hno⟩ | ⟨hsem', -⟩⟩
      · exact hno
      · exact absurd hsem hsem'
  | noSegment hnull hsem ho =>
    refine iff_of_false (fault_reports hx) ?_
    intro hplace
    rcases hplace.2 with ⟨hsem', -⟩ | ⟨-, -, ha | ha, -⟩
    · exact hsem hsem'
    · cases hnull.symm.trans ha
    · cases ho.symm.trans ha
  | attaches pr hnull hsem ho hc =>
    have hdb : dbOf s.seg (s.procs p) = (smAttachSharedMem s.seg).db := by unfold dbOf; rw [hnull]
    rw [added_reports hs hx hc (by rw [hdb])]
    exact (hasPlace_past (by rw [hnull]; nofun) hsem (.inr ho)).symm
  | again g pr hatt hg hsem hc =>
    have hdb : dbOf s.seg (s.procs p) = g.db := by unfold dbOf; rw [hatt, hg]; rfl
    rw [added_reports hs hx hc (by rw [hdb])]
    exact (hasPlace_past (by rw [hatt]; nofun) hsem (.inl hatt)).symm

theorem initSteps_reachable (hs : Lts.Reachable SysStep Sys.init s) {cs : List InitCall} {t : Sys}
    (h : Lts.Run (InitStep p) s cs t) : Lts.Reachable SysStep Sys.init t := by
  induction h with
  | nil s => exact hs
  | cons hstep _ ih => exact ih (hs.tail (initStep_sysStep hstep))

/-- In a run of `mcapi_initialize` calls of a process, from any state of the system, all
    report what they did exactly when each has a place for its pair, with the device
    open and the segment there, or stops at the semaphore with its pair not registered. -/
theorem reports_registration_iff (hs : Lts.Reachable SysStep Sys.init s) (p : Nat) (cs : List InitCall) :
    (∀ c t, Lts.Turn (InitStep p) s cs c t → ReportsRegistration p t c) ↔
      ∀ c t, Lts.Turn (InitStep p) s cs c t → HasPlace p t c := by
  have hiff {c : InitCall} {t : Sys} (ht : Lts.Turn (InitStep p) s cs c t) :
      ReportsRegistration p t c ↔ HasPlace p t c := by
    obtain ⟨pre, post, -, hrun⟩ := ht
    exact reportsRegistration_iff (initSteps_reachable hs hrun) p c
  exact ⟨fun h c t ht => (hiff ht).mp (h c t ht), fun h c t ht => (hiff ht).mpr (h c t ht)⟩

/-- Node 3 of domain 5, with everything granted. -/
def initCall : InitCall := ⟨5, 3, none, granted, true⟩

theorem initCall_hasPlace : HasPlace 0 Sys.init initCall :=
  ⟨nofun, .inr ⟨by decide, rfl, .inr rfl, 0, 0, registers_first rfl 5 3⟩⟩

/-- The first call of a process reports the registration. -/
theorem first_initialise_reports : ReportsRegistration 0 Sys.init initCall := by
  refine (reports_registration_iff (.refl _) 0 [initCall]).mpr ?_ initCall Sys.init ⟨[], [], rfl, .nil _⟩
  intro c t ht
  obtain ⟨rfl, rfl⟩ := ht.single
  exact initCall_hasPlace

/-- The system after it. -/
def initOnce : Sys := Sys.init.after (.initialise 0 5 3 none granted)

/-- The second of the same pair is a success as well. -/
theorem second_initialise_reports_success :
    ¬ ∀ cs c t, Lts.Turn (InitStep 0) Sys.init cs c t → ReportsRegistration 0 t c := by
  intro h
  have hstep : InitStep 0 Sys.init initCall initOnce := ⟨_, _, _, rfl, rfl⟩
  have hs : Lts.Reachable SysStep Sys.init initOnce := initSteps_reachable (.refl _) (.single hstep)
  have hturn : Lts.Turn (InitStep 0) Sys.init [initCall, initCall] initCall initOnce :=
    ⟨[initCall], [], rfl, .single hstep⟩
  have hpair : HasPair (dbOf initOnce.seg (initOnce.procs 0)) 5 3 := ⟨0, rfl, rfl, 0, rfl, rfl⟩
  rcases ((reportsRegistration_iff hs 0 initCall).mp (h _ _ _ hturn)).2 with ⟨hsem, -⟩ | ⟨-, -, -, i, j, hr⟩
  · exact absurd hsem (by decide)
  · exact hr.not_hasPair (dbOf_registry hs 0) hpair

end Mcapi
