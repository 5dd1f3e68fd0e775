/-
  Mcapi.Identity — the node a process acts as (`mcapi_trans_get_node_num`,
  `mcapi_trans_get_domain_num`, `mcapi_trans_endpoint_create`).

  Who a process is should be the pair it passed to `mcapi_initialize`. But the pair is
  kept in the shared database only, and the queries read its first entry for every
  process. That entry is written by the first registration in the segment and stays as
  it is for as long as the segment is there (`first_run`).

  `acts_as_own_pair_iff`: so a process acts as its own node exactly when its pair is the
  first in the segment and, as long as an endpoint can be created, its node id fits the
  8 bits a handle has for it.
-/

import Mcapi.Initialise
import Mcapi.Sessions

namespace Mcapi

variable {s s' : Sys} {p : Nat} {db : Database} {d n : U32}

/-! ## The first entry of the segment -/

/-- The pair in the first entry. -/
def firstPair (db : Database) : U32 × U32 := ((db.domains 0).domainId, db.node0.nodeNum)

theorem SameRegistry.firstPair {db' : Database} (h : SameRegistry db db') : firstPair db' = firstPair db :=
  Prod.ext (h.ids 0) (h.numbers 0 0)

/-- A further registration leaves the first entry alone. -/
theorem addNode_first (h : Registered db) (d n : U32) (a : Option NodeAttributes) :
    ((transAddNode db d n a).2.domains 0).domainId = (db.domains 0).domainId ∧
      (transAddNode db d n a).2.node0 = db.node0 := by
  have hcases := addNode_cases db d n a
  generalize transAddNode db d n a = x at hcases ⊢
  cases hcases with
  | refused => exact ⟨rfl, rfl⟩
  | added i j attributes hr =>
    by_cases hi : i = 0
    · subst hi
      -- the domain is the first, and the node goes to another of its entries
      have hd : (db.domains 0).domainId = d := by
        rcases domainSlot_free h.inv hr.slot with ⟨-, hd⟩ | ⟨hfree, -⟩
        · exact hd
        · have hunused := (Tables.find_eq_some_iff.mp hfree).1
          rw [h.domain0] at hunused
          cases hunused
      have hj : (0 : Fin maxNodes) ≠ j := by
        rintro rfl
        have hunused := (Tables.find_eq_some_iff.mp hr.free).1
        rw [show ((db.domains 0).nodes 0).valid = true from h.node0] at hunused
        cases hunused
      simp [Database.node0, Database.addNode, hd, hj]
    · have hother : (db.addNode i j d ⟨n, true, attributes, 1, fun _ => {}⟩).domains 0 = db.domains 0 :=
        Function.update_of_ne (Ne.symm hi) ..
      simp only [Database.node0, hother, and_self]

theorem addNode_firstPair (h : Registered db) (d n : U32) (a : Option NodeAttributes) :
    firstPair (transAddNode db d n a).2 = firstPair db := by
  obtain ⟨hdomain, hnode⟩ := addNode_first h d n a
  exact Prod.ext hdomain (congrArg NodeEntry.nodeNum hnode)

/-- The calls with which a process changes who it is. -/
def ChangesOwn (p : Nat) : SysLabel → Prop
  | .initialise q _ _ _ _ => q = p
  | .finalize q => q = p
  | .exit q => q = p
  | .call .. => False

theorem procs_kept {l : SysLabel} (hs : SysStep s l s') (hl : ¬ ChangesOwn p l) : s'.procs p = s.procs p := by
  have hother {q : Nat} (hq : ¬ q = p) (pr : Proc) : Function.update s.procs q pr p = s.procs p :=
    Function.update_of_ne (Ne.symm hq) ..
  cases l with
  | initialise q d n a o =>
    obtain ⟨⟨st, seg, pr⟩, -, hs⟩ := bind_eq_ok.mp hs
    cases hs
    exact hother hl pr
  | finalize q =>
    cases hs
    exact hother hl _
  | exit q =>
    cases hs
    exact hother hl _
  | call q E c errno fl =>
    obtain ⟨g, db, -, rfl⟩ := call_keeps hs
    rfl

theorem sys_db {g : Segment} (hg : s.seg = some g) : s.db = g.db := by
  rw [Sys.db, hg]
  rfl

/-- A segment that somebody has attached is not zeroed. -/
theorem attach_shared {g : Segment} (h : 0 < g.nattch) : (smAttachSharedMem (some g)).db = g.db := by
  have hn : ¬ g.nattch + 1 = 1 := by omega
  exact if_neg hn

theorem first_step (hr : Lts.Reachable SysStep Sys.init s) (hp : (s.procs p).cDb = .attached) {l : SysLabel}
    (hs : SysStep s l s') (hl : ¬ ChangesOwn p l) : firstPair s'.db = firstPair s.db := by
  obtain ⟨g, hg, hn⟩ := attached_segment hr hp
  have hp' : (s'.procs p).cDb = .attached := by rw [procs_kept hs hl]; exact hp
  obtain ⟨g', hg', -⟩ := attached_segment (hr.tail hs) hp'
  rw [sys_db hg, sys_db hg']
  have hreg : Registered (transInitRequestIndexedArray g.db) := (registered_run hr g hg).congr (.of_eq rfl)
  cases l with
  | initialise q d n a o =>
    obtain ⟨⟨st, seg, pr⟩, hi, hs⟩ := bind_eq_ok.mp hs
    cases hs
    have hspec := initialise_spec d n a o s.seg (s.procs q)
    rw [hi] at hspec
    cases hspec with
    | noSemaphore => rw [Option.some.inj (hg.symm.trans hg')]
    | attaches =>
      cases hg'
      show firstPair (transAddNode (transInitRequestIndexedArray (smAttachSharedMem s.seg).db) d n a).2 = _
      rw [hg, attach_shared hn]
      exact addNode_firstPair hreg d n a
    | again g1 pr' _ hg1 =>
      cases hg'
      cases hg.symm.trans hg1
      exact addNode_firstPair hreg d n a
  | finalize q =>
    obtain ⟨g1, hg1, hdb⟩ := leave_cases (.inl ⟨q, rfl⟩) hs hg'
    cases hg.symm.trans hg1
    rw [hdb]
  | exit q =>
    obtain ⟨g1, hg1, hdb⟩ := leave_cases (.inr ⟨q, rfl⟩) hs hg'
    cases hg.symm.trans hg1
    rw [hdb]
  | call q E c errno fl =>
    obtain ⟨g1, g2, l, hg1, hg2, -, -, hc⟩ := call_cases hs
    cases hg.symm.trans hg1
    cases hg'.symm.trans hg2
    exact hc.table.sameRegistry.firstPair

/-- While a process stays as it is, so does the first entry. -/
theorem first_run {s0 : Sys} (hr : Lts.Reachable SysStep Sys.init s0) (hp : (s0.procs p).cDb = .attached)
    {ls : List SysLabel} (hrun : Lts.Run SysStep s0 ls s) (hown : ∀ l ∈ ls, ¬ ChangesOwn p l) :
    Lts.Reachable SysStep Sys.init s ∧ (s.procs p).cDb = .attached ∧ firstPair s.db = firstPair s0.db := by
  refine hrun.keeps (I := fun s => Lts.Reachable SysStep Sys.init s ∧ (s.procs p).cDb = .attached ∧
    firstPair s.db = firstPair s0.db) ?_ ⟨hr, hp, rfl⟩
  rintro s l s' hl ⟨hr, hp, hfirst⟩ hs
  refine ⟨hr.tail hs, ?_, (first_step hr hp hs (hown l hl)).trans hfirst⟩
  rw [procs_kept hs (hown l hl)]
  exact hp

/-! ## Acting as a node -/

/-- An endpoint on the port is put in a free slot of the entry of the pair. -/
def PutsEndpoint (db db' : Database) (domainId nodeId portId : U32) : Prop :=
  ∃ i j k, ((db.domains i).valid = true ∧ (db.domains i).domainId = domainId) ∧
    (((db.domains i).nodes j).valid = true ∧ ((db.domains i).nodes j).nodeNum = nodeId) ∧
    (((db.domains i).nodes j).endpoints k).valid = false ∧
    (((db'.domains i).nodes j).endpoints k).valid = true ∧ (((db'.domains i).nodes j).endpoints k).portNum = portId

/-- The queries of the process return the pair, and an endpoint it creates is put under
    the pair and gets a handle of the node. -/
structure ActsAs (s : Sys) (p : Nat) (domainId nodeId : U32) : Prop where
  domain : ∀ E errno fl, s.returns (.call p E .domainIdGet errno fl) = some (.value domainId .success)
  node : ∀ E errno fl, s.returns (.call p E .nodeIdGet errno fl) = some (.value nodeId .success)
  create : ∀ E errno fl portId handle s', SysStep s (.call p E (.endpointCreate portId) errno fl) s' →
    s.returns (.call p E (.endpointCreate portId) errno fl) = some (.value handle .success) →
    (transDecodeHandleInternal handle).nodeId.setWidth 32 = nodeId ∧ PutsEndpoint s.db s'.db domainId nodeId portId

theorem Registered.first (h : Registered db) : FirstNode db.node0.nodeNum db :=
  ⟨((h.inv.nodes 0).filled 0).mp h.node0, h.domain0, rfl⟩

theorem returns_call {g : Segment} (hg : s.seg = some g) (hp : (s.procs p).cDb = .attached) {E : Env} {c : Call}
    {errno : Int} {fl : U32} {x : Ret} {w : World}
    (hx : c.exec .std E { db := g.db, errno := errno, fl := fl } = .ok (x, w)) :
    s.returns (.call p E c errno fl) = some x := by
  simp only [Sys.returns, hp, hg, hx]
  rfl

/-- A create of a process puts the endpoint in the first entry, under the handle of its node. -/
theorem create_first {g : Segment} (hg : s.seg = some g) (hreg : Registered g.db) {E : Env} {errno : Int} {fl : U32}
    {portId handle : U32} (hs : SysStep s (.call p E (.endpointCreate portId) errno fl) s')
    (hret : s.returns (.call p E (.endpointCreate portId) errno fl) = some (.value handle .success)) :
    handle = endpointHandle g.db.node0.nodeNum portId ∧ ∃ k, (g.db.node0.endpoints k).valid = false ∧
      s'.db = g.db.setNode 0 (g.db.node0.create k portId) := by
  obtain ⟨g1, g2, ⟨E1, c, w, x, w1⟩, hg1, hg2, hcall, hlret, hb, ha, -, hx⟩ := call_cases hs
  cases hg.symm.trans hg1
  dsimp only at hcall hlret hb ha hx
  subst hcall
  cases hlret.symm.trans hret
  obtain ⟨⟨⟨v, st⟩, w1⟩, hc, hx⟩ := bind_eq_ok.mp hx
  cases hx
  rw [sys_db hg2, ← ha]
  cases create_cases hc with
  | created i k w1 hi _ hfree hdb _ =>
    rw [hb] at hi hfree hdb
    have hi0 : i = 0 := by
      have h0 := hi.symm.trans hreg.first.nodeIndex
      simpa using h0
    subst hi0
    exact ⟨by rw [← hb]; rfl, k, hfree, hdb⟩

/-- A driver that opens session `k`. -/
def opens (k : Slot) : Env := { drv := fun _ p => ⟨0, 0, { p with sessionIdx := sessionOf k }, {}⟩ }

/-- Whoever asks gets the first entry, and creates endpoints in it. -/
theorem actsAs_iff {g : Segment} (hg : s.seg = some g) (hp : (s.procs p).cDb = .attached) (hreg : Registered g.db) :
    ActsAs s p d n ↔
      firstPair g.db = (d, n) ∧ (n.toNat < 256 ∨ ∀ k, (g.db.node0.endpoints k).valid = true) := by
  have hdomain (E : Env) (errno : Int) (fl : U32) : s.returns (.call p E .domainIdGet errno fl) =
      some (.value (g.db.domains 0).domainId .success) := by
    refine returns_call hg hp (w := { db := g.db, errno := errno, fl := fl }) ?_
    simp only [Call.exec, domainIdGet, transGetDomainNum, hreg.domain0, if_true]
  have hnode (E : Env) (errno : Int) (fl : U32) : s.returns (.call p E .nodeIdGet errno fl) =
      some (.value g.db.node0.nodeNum .success) := returns_call hg hp rfl
  constructor
  · intro h
    have hd : (g.db.domains 0).domainId = d := by
      cases (hdomain notYet 0 0).symm.trans (h.domain notYet 0 0)
      rfl
    have hn : g.db.node0.nodeNum = n := by
      cases (hnode notYet 0 0).symm.trans (h.node notYet 0 0)
      rfl
    refine ⟨Prod.ext hd hn, ?_⟩
    by_cases hfull : ∀ k, (g.db.node0.endpoints k).valid = true
    · exact .inr hfull
    -- a driver that opens a free session gets a handle of the node
    obtain ⟨k, hk⟩ := not_forall.mp hfull
    have hmapped : s.mapped p = .ok g := by simp only [Sys.mapped, hp, hg]
    have hc := create_free (B := .std) (E := opens k) (w := { db := g.db, errno := 0, fl := 0 }) (p := 0) rfl hreg.first
      (slotOf_sessionOf k) hk
    obtain ⟨w, hx⟩ : ∃ w, (Call.endpointCreate 0).exec .std (opens k) { db := g.db, errno := 0, fl := 0 } =
        .ok (.value (endpointHandle g.db.node0.nodeNum 0) .success, w) :=
      ⟨_, by simp only [Call.exec, hc, ok_bind]; rfl⟩
    have hhandle := (h.create _ _ _ _ _ _ (call_step hmapped hx) (returns_call hg hp hx)).1
    rw [(endpointHandle_names _ _).1, hn] at hhandle
    exact .inl (nodeField_eq_iff.mp hhandle)
  · rintro ⟨hpair, hfit⟩
    obtain ⟨rfl, rfl⟩ := Prod.mk.inj hpair
    refine ⟨hdomain, hnode, fun E errno fl portId handle s' hs hret => ?_⟩
    obtain ⟨rfl, k, hfree, hdb⟩ := create_first hg hreg hs hret
    rw [(endpointHandle_names _ _).1, nodeField_eq_iff]
    refine ⟨hfit.resolve_right fun hfull => ?_, 0, 0, k, ?_⟩
    · rw [hfull k] at hfree
      cases hfree
    · rw [sys_db hg, hdb]
      refine ⟨⟨hreg.domain0, rfl⟩, ⟨hreg.node0, rfl⟩, hfree, ?_, ?_⟩
      all_goals simp [Database.setNode, NodeEntry.create, filledEntry]

/-- The first entry, if it is in use, is the pair's. -/
def LedBy (db : Database) (domainId nodeId : U32) : Prop := db.node0.valid = true → firstPair db = (domainId, nodeId)

/-- After an initialisation the first entry is the pair's, if it was or was not in use. -/
theorem initialised_first (h : db.domains = zeroed.domains ∨ Registered db) (a : Option NodeAttributes) :
    firstPair (transAddNode db d n a).2 = (d, n) ↔ LedBy db d n := by
  rcases h with he | h
  · have hr := registers_first he d n
    have hcases := addNode_cases db d n a
    generalize transAddNode db d n a = x at hcases ⊢
    refine iff_of_true ?_ fun hv => ?_
    · cases hcases with
      | refused hno => exact absurd hr (hno 0 0)
      | added i j attributes hr' =>
        obtain ⟨rfl, rfl⟩ := hr.unique hr'
        simp [firstPair, Database.node0, Database.addNode]
    · rw [Database.node0, he] at hv
      cases hv
  · rw [addNode_firstPair h]
    exact ⟨fun he _ => he, fun hl => hl h.node0⟩

/-- After its initialisation with a success, as long as it does not initialise again,
    finalise or end, a process acts as its own node exactly when the database it found
    had no node or had this one first, and its node id fits a handle or no endpoint can
    be created. -/
theorem acts_as_own_pair_iff {s0 : Sys} (h0 : Lts.Reachable SysStep Sys.init s0) {a : Option NodeAttributes}
    {o : InitEnv} {seg : Option Segment} {pr : Proc}
    (hinit : mcapiInitialize d n a o s0.seg (s0.procs p) = .ok (.success, seg, pr))
    {ls : List SysLabel} (hrun : Lts.Run SysStep ⟨seg, Function.update s0.procs p pr⟩ ls s)
    (hown : ∀ l ∈ ls, ¬ ChangesOwn p l) :
    ActsAs s p d n ↔ LedBy (dbOf s0.seg (s0.procs p)) d n ∧
      (n.toNat < 256 ∨ ∀ k, (s.db.node0.endpoints k).valid = true) := by
  obtain ⟨g, rfl, hpr, hg⟩ := initialise_success hinit
  have hstep : SysStep s0 (.initialise p d n a o) ⟨some g, Function.update s0.procs p pr⟩ := by
    simp only [SysStep, Sys.step, hinit]
    rfl
  have hattached : ((Function.update s0.procs p pr) p).cDb = .attached := by rw [Function.update_self]; exact hpr
  obtain ⟨hr, hp, hfirst⟩ := first_run (h0.tail hstep) hattached hrun hown
  obtain ⟨g', hg', -⟩ := attached_segment hr hp
  have hfound : (dbOf s0.seg (s0.procs p)).domains = zeroed.domains ∨ Registered (dbOf s0.seg (s0.procs p)) :=
    dbOf_cases h0 p
  generalize dbOf s0.seg (s0.procs p) = found at hg hfound ⊢
  have hrebuilt : (transInitRequestIndexedArray found).domains = zeroed.domains ∨
      Registered (transInitRequestIndexedArray found) := hfound.imp_right fun h => h.congr (.of_eq rfl)
  have hpair : firstPair g'.db = firstPair g.db := by rw [← sys_db hg', hfirst]; rfl
  rw [actsAs_iff hg' hp (registered_run hr g' hg'), hpair, hg, initialised_first hrebuilt, sys_db hg']
  rfl

/-- The second process creates an endpoint. -/
def secondCreate : SysLabel := .call 1 sessionOne (.endpointCreate 5) 0 2

/-- The first process to initialise acts as its node, also when a second one has initialised
    another and created an endpoint. -/
theorem first_acts_as_own : ActsAs (((Sys.init.after firstInit).after secondInit).after secondCreate) 0 0 0 := by
  have hrun : Lts.Run SysStep (Sys.init.after firstInit) [secondInit, secondCreate]
      (((Sys.init.after firstInit).after secondInit).after secondCreate) := .cons rfl (.single rfl)
  have hown : ∀ l ∈ [secondInit, secondCreate], ¬ ChangesOwn 0 l := by
    simp [secondInit, secondCreate, ChangesOwn]
  refine (acts_as_own_pair_iff (a := none) (o := granted) (.refl _) rfl hrun hown).mpr ⟨?_, .inl (by decide)⟩
  intro hv
  cases hv

/-- The second one, which initialised node 1, is told that it is node 0. -/
theorem second_acts_as_first :
    ¬ ∀ s0 p d n a o seg pr ls s, Lts.Reachable SysStep Sys.init s0 →
      mcapiInitialize d n a o s0.seg (s0.procs p) = .ok (.success, seg, pr) →
      Lts.Run SysStep ⟨seg, Function.update s0.procs p pr⟩ ls s → (∀ l ∈ ls, ¬ ChangesOwn p l) → ActsAs s p d n := by
  intro h
  have hacts := h (Sys.init.after firstInit) 1 0 1 none granted _ _ [] _
    (Lts.Reachable.tail (.refl _) (l := firstInit) rfl)
    rfl (.nil _) nofun
  cases hacts.node notYet 0 0

end Mcapi
