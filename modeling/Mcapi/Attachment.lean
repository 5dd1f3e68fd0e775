/-
  Mcapi.Attachment — `c_db` over the life of a process (`mcapi_trans_initialize_`,
  `mcapi_finalize`, `mcapi_trans_finalize`, `transport_sm_free_shared_mem`).

  `c_db` is null at the start, is set when the segment is attached, and keeps its value
  when `mcapi_finalize` detaches it: nothing sets it back to null, and a call tells an
  attached process from others by the null test alone, where it has one.
  `mcapi_initialize` goes on into the request array also where the segment could not be
  attached, and `mcapi_finalize` takes its status from the result of a function that
  returns none, so from whatever the register held.

  - `Initialises` and `initialise_spec`: all that `mcapi_initialize` does.
  - `attached_segment`: in a run of the system the segment counts the processes that
    have it attached, so while one has, it is there.
  - `used_while_attached_iff`: when the calls of a run use the database only while
    attached, report errors otherwise, and attach again when they can.
-/

import Mcapi.Processes
import Mathlib.Data.Finset.Card

namespace Mcapi

/-! ## What an initialisation comes to -/

/-- There is no semaphore yet, and none is to be had. -/
def NoSemaphore (pr : Proc) (o : InitEnv) : Prop := pr.semId = 0 ∧ o.semaphore = -1

instance (pr : Proc) (o : InitEnv) : Decidable (NoSemaphore pr o) := inferInstanceAs (Decidable (_ ∧ _))

/-- How `mcapi_initialize` ends. -/
inductive Initialises (d n : U32) (a : Option NodeAttributes) (o : InitEnv) (seg : Option Segment) (pr : Proc) :
    Res (Status × Option Segment × Proc) → Prop
  | unmapped : pr.cDb = .dangling ∨ (pr.cDb = .attached ∧ seg = none) → Initialises d n a o seg pr (.error .badPointer)
  | noSemaphore (pr' : Proc) : pr.cDb ≠ .dangling → NoSemaphore pr o → pr'.cDb = pr.cDb →
      Initialises d n a o seg pr (.ok (.errNodeInitfailed, seg, pr'))
  | noSegment : pr.cDb = .null → ¬ NoSemaphore pr o → o.attaches = false →
      Initialises d n a o seg pr (.error .badPointer)
  | attaches (pr' : Proc) : pr.cDb = .null → ¬ NoSemaphore pr o → o.attaches = true → pr'.cDb = .attached →
      Initialises d n a o seg pr (.ok (.success, some { smAttachSharedMem seg with
        db := (transAddNode (transInitRequestIndexedArray (smAttachSharedMem seg).db) d n a).2 }, pr'))
  | again (g : Segment) (pr' : Proc) : pr.cDb = .attached → seg = some g → ¬ NoSemaphore pr o → pr'.cDb = .attached →
      Initialises d n a o seg pr (.ok (.success, some { g with
        db := (transAddNode (transInitRequestIndexedArray g.db) d n a).2 }, pr'))

/-- Past the semaphore, `c_db` decides. -/
theorem internal_past {o : InitEnv} (seg : Option Segment) {pr : Proc} (h : ¬ NoSemaphore pr o) :
    ∃ pr1 : Proc, pr1.cDb = pr.cDb ∧
      (pr.cDb = .null → o.attaches = false → transInitializeInternal o seg pr = .error .badPointer) ∧
      (pr.cDb = .null → o.attaches = true → transInitializeInternal o seg pr =
        .ok (true, some { smAttachSharedMem seg with
          db := transInitRequestIndexedArray (smAttachSharedMem seg).db }, { pr1 with cDb := .attached })) ∧
      ∀ g, pr.cDb = .attached → seg = some g →
        transInitializeInternal o seg pr =
          .ok (true, some { g with db := transInitRequestIndexedArray g.db }, pr1) := by
  unfold transInitializeInternal
  rw [if_neg (show ¬ (pr.semId = 0 ∧ o.semaphore = -1) from h)]
  by_cases h0 : pr.semId = 0
  · refine ⟨{ pr with semId := o.semaphore }, rfl, ?_, ?_, ?_⟩
    · intro hc ho
      simp [h0, hc, ho]
    · intro hc ho
      simp [h0, hc, ho]
    · intro g hc hg
      simp [h0, hc, hg]
  · refine ⟨pr, rfl, ?_, ?_, ?_⟩
    · intro hc ho
      simp [h0, hc, ho]
    · intro hc ho
      simp [h0, hc, ho]
    · intro g hc hg
      simp [h0, hc, hg]

theorem initialise_spec (d n : U32) (a : Option NodeAttributes) (o : InitEnv) (seg : Option Segment) (pr : Proc) :
    Initialises d n a o seg pr (mcapiInitialize d n a o seg pr) := by
  unfold mcapiInitialize
  simp only [transValidNode, Bool.not_true, Bool.false_eq_true, if_false]
  cases hc : pr.cDb with
  | dangling =>
    simp only [initializedIn, hc]
    exact .unmapped (.inl hc)
  | null =>
    simp only [initializedIn, hc]
    by_cases hsem : NoSemaphore pr o
    · have hstop : transInitializeInternal o seg pr = .ok (false, seg, { pr with semId := -1 }) := if_pos hsem
      rw [hstop]
      exact .noSemaphore _ (by simp [hc]) hsem rfl
    · obtain ⟨pr1, -, hoff, hon, -⟩ := internal_past seg hsem
      cases ho : o.attaches with
      | false =>
        rw [hoff hc ho]
        exact .noSegment hc hsem ho
      | true =>
        rw [hon hc ho]
        exact .attaches _ hc hsem ho rfl
  | attached =>
    cases hseg : seg with
    | none =>
      simp only [initializedIn, hc]
      exact .unmapped (.inr ⟨hc, rfl⟩)
    | some g =>
      simp only [initializedIn, hc, transInitialized_false]
      by_cases hsem : NoSemaphore pr o
      · have hstop : transInitializeInternal o (some g) pr = .ok (false, some g, { pr with semId := -1 }) := if_pos hsem
        rw [hstop]
        exact .noSemaphore _ (by simp [hc]) hsem rfl
      · obtain ⟨pr1, h1, -, -, hagain⟩ := internal_past (some g) hsem
        rw [hagain g hc rfl]
        exact .again g pr1 hc rfl hsem (h1.trans hc)

/-! ## Who has the segment -/

/-- The processes in `S` are those that are attached, and the segment counts them. -/
structure Attachments (s : Sys) (S : Finset Nat) : Prop where
  mem : ∀ p, p ∈ S ↔ (s.procs p).cDb = .attached
  gone : s.seg = none → S = ∅
  count : ∀ g, s.seg = some g → g.nattch = S.card

variable {s s' : Sys} {S : Finset Nat} {p : Nat}

theorem attached_update {pr : Proc} (hc : pr.cDb = .attached ↔ (s.procs p).cDb = .attached) (q : Nat) :
    (Function.update s.procs p pr q).cDb = .attached ↔ (s.procs q).cDb = .attached := by
  by_cases hq : q = p
  · rw [hq, Function.update_self, hc]
  · rw [Function.update_of_ne hq]

theorem Attachments.kept (h : Attachments s S)
    (hc : ∀ q, (s'.procs q).cDb = .attached ↔ (s.procs q).cDb = .attached)
    (hseg : s'.seg.map Segment.nattch = s.seg.map Segment.nattch) : Attachments s' S := by
  refine ⟨fun q => (h.mem q).trans (hc q).symm, ?_, ?_⟩
  · intro hn
    rw [hn] at hseg
    exact h.gone (Option.map_eq_none_iff.mp hseg.symm)
  · intro g hg
    rw [hg] at hseg
    obtain ⟨g1, hg1, hn⟩ := Option.map_eq_some_iff.mp hseg.symm
    exact hn ▸ h.count g1 hg1

theorem Attachments.attach (h : Attachments s S) {pr : Proc} (hp : (s.procs p).cDb ≠ .attached)
    (hc : pr.cDb = .attached)
    {g : Segment} (hg : g.nattch = (smAttachSharedMem s.seg).nattch) :
    Attachments ⟨some g, Function.update s.procs p pr⟩ (insert p S) := by
  have hnot : p ∉ S := fun hmem => hp ((h.mem p).mp hmem)
  refine ⟨?_, nofun, ?_⟩
  · intro q
    rw [Finset.mem_insert, h.mem q]
    by_cases hq : q = p
    · simp [hq, hc]
    · simp [hq]
  · intro g1 hg1
    cases hg1
    rw [hg, Finset.card_insert_of_notMem hnot]
    cases hseg : s.seg with
    | none => rw [h.gone hseg]; rfl
    | some g1 => rw [← h.count g1 hseg]; rfl

/-- The process leaves, and the last one may take the segment with it. -/
theorem Attachments.detach (h : Attachments s S) {pr : Proc} (hp : (s.procs p).cDb = .attached)
    (hc : pr.cDb ≠ .attached) {g : Segment} (hg : s.seg = some g) {seg : Option Segment}
    (hseg : seg = (if g.nattch - 1 = 0 then none else some { g with nattch := g.nattch - 1 }) ∨
      seg = some { g with nattch := g.nattch - 1 }) :
    Attachments ⟨seg, Function.update s.procs p pr⟩ (S.erase p) := by
  have hmem : p ∈ S := (h.mem p).mpr hp
  have hcount := h.count g hg
  have hcard := Finset.card_erase_of_mem hmem
  refine ⟨?_, ?_, ?_⟩
  · intro q
    rw [Finset.mem_erase, h.mem q]
    by_cases hq : q = p
    · simp [hq, hc]
    · simp [hq]
  · intro hn
    rcases hseg with rfl | rfl
    · dsimp only at hn
      split at hn
      · exact Finset.card_eq_zero.mp (by omega)
      · cases hn
    · cases hn
  · intro g1 hg1
    rcases hseg with rfl | rfl
    · dsimp only at hg1
      split at hg1
      · cases hg1
      · cases hg1
        show g.nattch - 1 = (S.erase p).card
        omega
    · cases hg1
      show g.nattch - 1 = (S.erase p).card
      omega

/-- A call changes nothing but the database. -/
theorem call_keeps {E : Env} {c : Call} {errno : Int} {fl : U32} (h : SysStep s (.call p E c errno fl) s') :
    ∃ g db, s.seg = some g ∧ s' = ⟨some { g with db := db }, s.procs⟩ := by
  unfold SysStep Sys.step at h
  dsimp only at h
  split at h
  · rename_i g _ hg
    obtain ⟨⟨x, w⟩, -, h⟩ := bind_eq_ok.mp h
    cases h
    exact ⟨g, w.db, hg, rfl⟩
  · cases h

theorem attachments_step (h : Attachments s S) {l : SysLabel} (hs : SysStep s l s') : ∃ S', Attachments s' S' := by
  cases l with
  | initialise p d n a o =>
    obtain ⟨⟨st, seg, pr⟩, hi, hs⟩ := bind_eq_ok.mp hs
    cases hs
    have hspec := initialise_spec d n a o s.seg (s.procs p)
    rw [hi] at hspec
    cases hspec with
    | noSemaphore pr' _ _ hc => exact ⟨S, h.kept (attached_update (by rw [hc])) rfl⟩
    | attaches pr' hnull _ _ hc => exact ⟨_, h.attach (by simp [hnull]) hc rfl⟩
    | again g pr' hatt hseg _ hc => exact ⟨S, h.kept (attached_update (by rw [hc, hatt])) (by rw [hseg]; rfl)⟩
  | finalize p =>
    cases hs
    split
    · rename_i g hc hseg
      exact ⟨_, h.detach hc (by nofun) hseg (.inl rfl)⟩
    · exact ⟨S, h.kept (attached_update Iff.rfl) rfl⟩
  | exit p =>
    cases hs
    by_cases hc : (s.procs p).cDb = .attached
    · rw [if_pos hc]
      cases hseg : s.seg with
      | none =>
        have hmem := (h.mem p).mpr hc
        rw [h.gone hseg] at hmem
        exact absurd hmem (Finset.notMem_empty p)
      | some g => exact ⟨_, h.detach hc (by nofun) hseg (.inr rfl)⟩
    · rw [if_neg hc]
      exact ⟨S, h.kept (attached_update (by simp [hc])) rfl⟩
  | call p E c errno fl =>
    obtain ⟨g, db, hg, rfl⟩ := call_keeps hs
    exact ⟨S, h.kept (fun _ => Iff.rfl) (by rw [hg]; rfl)⟩

theorem attachments_run (h : Lts.Reachable SysStep Sys.init s) : ∃ S, Attachments s S := by
  refine h.invariant (I := fun s => ∃ S, Attachments s S) ?_ fun ⟨S, hS⟩ hs => attachments_step hS hs
  exact ⟨∅, fun q => by simp [Sys.init], fun _ => rfl, nofun⟩

/-- While a process is attached, the segment is there, and counts one. -/
theorem attached_segment (h : Lts.Reachable SysStep Sys.init s) (hp : (s.procs p).cDb = .attached) :
    ∃ g, s.seg = some g ∧ 0 < g.nattch := by
  obtain ⟨S, hS⟩ := attachments_run h
  have hmem : p ∈ S := (hS.mem p).mpr hp
  cases hseg : s.seg with
  | some g => exact ⟨g, rfl, by rw [hS.count g hseg]; exact Finset.card_pos.mpr ⟨p, hmem⟩⟩
  | none =>
    rw [hS.gone hseg] at hmem
    exact absurd hmem (Finset.notMem_empty p)

/-! ## The calls of a process -/

/-- `mcapi_finalize`. `mcapi_trans_finalize` returns nothing: `result` is what is found
    where its result would be. -/
def mcapiFinalize (result : Int) (seg : Option Segment) (pr : Proc) : Status × Option Segment × Proc :=
  let (seg, pr) := transFinalize seg pr
  (if result = 0 then .errNodeFinalfailed else .success, seg, pr)

/-- What a process finds through `c_db`. -/
def Sys.mapped (s : Sys) (p : Nat) : Res Segment :=
  match (s.procs p).cDb, s.seg with
  | .attached, some g => .ok g
  | _, _ => .error .badPointer

inductive LifeCall where
  | initialise (domainId nodeId : U32) (nodeAttrs : Option NodeAttributes) (o : InitEnv)
  | finalize (result : Int)
  | domainIdGet
  | nodeIdGet
  | endpointCreate (E : Env) (portId : U32) (errno : Int) (fl : U32)

/-- A call of process `p`, with its status. -/
def Sys.life (s : Sys) (p : Nat) : LifeCall → Res (Status × Sys)
  | .initialise d n a o => do
    let (st, seg, pr) ← mcapiInitialize d n a o s.seg (s.procs p)
    .ok (st, ⟨seg, Function.update s.procs p pr⟩)
  | .finalize result =>
    let (st, seg, pr) := mcapiFinalize result s.seg (s.procs p)
    .ok (st, ⟨seg, Function.update s.procs p pr⟩)
  | .domainIdGet => do
    let g ← s.mapped p
    .ok ((domainIdGet g.db).2, s)
  | .nodeIdGet => do
    let g ← s.mapped p
    .ok ((nodeIdGet g.db).2, s)
  | .endpointCreate E portId errno fl => do
    let g ← s.mapped p
    let ((_, st), w) ← endpointCreate .std E { db := g.db, errno := errno, fl := fl } portId
    .ok (st, ⟨some { g with db := w.db }, s.procs⟩)

/-- A call of one of any number of processes. -/
def LifeStep (s : Sys) (l : Nat × LifeCall) (s' : Sys) : Prop := ∃ st, s.life l.1 l.2 = .ok (st, s')

theorem mapped_ok {g : Segment} (h : s.mapped p = .ok g) : (s.procs p).cDb = .attached ∧ s.seg = some g := by
  unfold Sys.mapped at h
  split at h
  · rename_i hc hg
    cases h
    exact ⟨hc, hg⟩
  · cases h

theorem mapped_detached (h : (s.procs p).cDb ≠ .attached) : s.mapped p = .error .badPointer := by
  unfold Sys.mapped
  split
  · exact absurd ‹_› h
  · rfl

theorem call_step {g : Segment} (hg : s.mapped p = .ok g) {E : Env} {c : Call} {errno : Int} {fl : U32} {x : Ret}
    {w : World} (h : c.exec .std E { db := g.db, errno := errno, fl := fl } = .ok (x, w)) :
    SysStep s (.call p E c errno fl) ⟨some { g with db := w.db }, s.procs⟩ := by
  obtain ⟨hc, hseg⟩ := mapped_ok hg
  simp only [SysStep, Sys.step, hc, hseg, h]
  rfl

theorem query_step {g : Segment} (hg : s.mapped p = .ok g) {c : Call} {x : Ret}
    (h : c.exec .std notYet { db := g.db } = .ok (x, { db := g.db })) : SysStep s (.call p notYet c 0 2) s := by
  have hs := call_step hg h
  obtain ⟨-, hseg⟩ := mapped_ok hg
  rwa [show (⟨some { g with db := g.db }, s.procs⟩ : Sys) = s by rw [← hseg]] at hs

/-- Such a call is a step of the system. -/
theorem life_step {c : LifeCall} (h : LifeStep s (p, c) s') : ∃ l, SysStep s l s' := by
  obtain ⟨st, h⟩ := h
  cases c with
  | initialise d n a o =>
    obtain ⟨⟨st, seg, pr⟩, hi, h⟩ := bind_eq_ok.mp h
    cases h
    exact ⟨.initialise p d n a o, by simp only [SysStep, Sys.step, hi]; rfl⟩
  | finalize result =>
    cases h
    exact ⟨.finalize p, rfl⟩
  | domainIdGet =>
    obtain ⟨g, hg, h⟩ := bind_eq_ok.mp h
    cases h
    exact ⟨_, query_step hg (c := .domainIdGet) rfl⟩
  | nodeIdGet =>
    obtain ⟨g, hg, h⟩ := bind_eq_ok.mp h
    cases h
    exact ⟨_, query_step hg (c := .nodeIdGet) rfl⟩
  | endpointCreate E portId errno fl =>
    obtain ⟨g, hg, h⟩ := bind_eq_ok.mp h
    obtain ⟨⟨⟨v, st⟩, w⟩, hc, h⟩ := bind_eq_ok.mp h
    cases h
    exact ⟨.call p E (.endpointCreate portId) errno fl, call_step hg (by simp only [Call.exec, hc]; rfl)⟩

/-! ## While attached -/

/-- The call attaches its process if it is not attached. -/
def LifeCall.Attaches (pr : Proc) : LifeCall → Prop
  | .initialise _ _ _ o => ¬ NoSemaphore pr o ∧ o.attaches = true
  | _ => False

/-- A call that a process makes while not attached returns; it attaches and succeeds
    where it can attach, and otherwise reports an error. -/
def UsedWhileAttached (s : Sys) (l : Nat × LifeCall) : Prop :=
  (s.procs l.1).cDb ≠ .attached → ∃ st s', s.life l.1 l.2 = .ok (st, s') ∧
    (l.2.Attaches (s.procs l.1) → st = .success ∧ (s'.procs l.1).cDb = .attached) ∧
    (¬ l.2.Attaches (s.procs l.1) → st ≠ .success)

/-- The call is one of an attached process; or an initialisation of one that never was,
    and stops at the semaphore or can attach; or a finalisation that finds a 0. -/
def StaysOff (s : Sys) (l : Nat × LifeCall) : Prop :=
  (s.procs l.1).cDb = .attached ∨
  match l.2 with
  | .initialise _ _ _ o => (s.procs l.1).cDb = .null ∧ (NoSemaphore (s.procs l.1) o ∨ o.attaches = true)
  | .finalize result => result = 0
  | _ => False

theorem initialise_used_iff (hp : (s.procs p).cDb ≠ .attached) (d n : U32) (a : Option NodeAttributes) (o : InitEnv) :
    UsedWhileAttached s (p, .initialise d n a o) ↔
      (s.procs p).cDb = .null ∧ (NoSemaphore (s.procs p) o ∨ o.attaches = true) := by
  have hspec := initialise_spec d n a o s.seg (s.procs p)
  have hlife : s.life p (.initialise d n a o) = (mcapiInitialize d n a o s.seg (s.procs p)).map
      fun x => (x.1, ⟨x.2.1, Function.update s.procs p x.2.2⟩) := by
    show (mcapiInitialize d n a o s.seg (s.procs p) >>= _) = _
    cases mcapiInitialize d n a o s.seg (s.procs p) <;> rfl
  unfold UsedWhileAttached
  rw [hlife]
  generalize mcapiInitialize d n a o s.seg (s.procs p) = x at hspec ⊢
  cases hspec with
  | unmapped h =>
    have hd : (s.procs p).cDb = .dangling := h.resolve_right fun he => hp he.1
    refine iff_of_false (fun hu => ?_) fun hn => by rw [hd] at hn; cases hn.1
    obtain ⟨st, s', hl, -⟩ := hu hp
    cases hl
  | noSemaphore pr' hd hsem hc =>
    have hnull : (s.procs p).cDb = .null := by
      cases h : (s.procs p).cDb with
      | null => rfl
      | attached => exact absurd h hp
      | dangling => exact absurd h hd
    exact iff_of_true (fun _ => ⟨_, _, rfl, fun ha => absurd hsem ha.1, fun _ => nofun⟩) ⟨hnull, .inl hsem⟩
  | noSegment hc hsem ho =>
    refine iff_of_false (fun hu => ?_) fun hn => ?_
    · obtain ⟨st, s', hl, -⟩ := hu hp
      cases hl
    · have ha := hn.2.resolve_left hsem
      rw [ho] at ha
      cases ha
  | attaches pr' hc hsem ho hc' =>
    refine iff_of_true (fun _ => ⟨_, _, rfl, fun _ => ⟨rfl, ?_⟩, fun hn => absurd ⟨hsem, ho⟩ hn⟩) ⟨hc, .inr ho⟩
    show (Function.update s.procs p pr' p).cDb = .attached
    rw [Function.update_self]
    exact hc'
  | again g pr' hc => exact absurd hc hp

theorem finalize_used_iff (hp : (s.procs p).cDb ≠ .attached) (result : Int) :
    UsedWhileAttached s (p, .finalize result) ↔ result = 0 := by
  constructor
  · intro hu
    obtain ⟨st, s', hl, -, hst⟩ := hu hp
    cases hl
    by_contra hr
    exact hst id (if_neg hr)
  · rintro rfl -
    exact ⟨_, _, rfl, False.elim, fun _ => nofun⟩

/-- A call that reads through `c_db` at once. -/
theorem mapped_used_iff (hp : (s.procs p).cDb ≠ .attached) {c : LifeCall} {f : Segment → Res (Status × Sys)}
    (h : s.life p c = (s.mapped p >>= f)) : ¬ UsedWhileAttached s (p, c) := by
  intro hu
  obtain ⟨st, s', hl, -⟩ := hu hp
  rw [h, mapped_detached hp] at hl
  cases hl

theorem usedWhileAttached_iff (s : Sys) (l : Nat × LifeCall) : UsedWhileAttached s l ↔ StaysOff s l := by
  obtain ⟨p, c⟩ := l
  by_cases hp : (s.procs p).cDb = .attached
  · exact ⟨fun _ => .inl hp, fun _ h => absurd hp h⟩
  refine Iff.trans ?_ (or_iff_right hp).symm
  cases c with
  | initialise d n a o => exact initialise_used_iff hp d n a o
  | finalize result => exact finalize_used_iff hp result
  | domainIdGet => exact iff_of_false (mapped_used_iff hp rfl) id
  | nodeIdGet => exact iff_of_false (mapped_used_iff hp rfl) id
  | endpointCreate E portId errno fl => exact iff_of_false (mapped_used_iff hp rfl) id

/-- In a run of calls by any number of processes, each uses the database only while
    attached, reports an error otherwise, and attaches again where it can, exactly when
    each is one of an attached process, an initialisation of a process that never was
    attached and that stops at the semaphore or can attach, or a finalisation whose
    result happens to be 0. -/
theorem used_while_attached_iff (s : Sys) (cs : List (Nat × LifeCall)) :
    (∀ l t, Lts.Turn LifeStep s cs l t → UsedWhileAttached t l) ↔ ∀ l t, Lts.Turn LifeStep s cs l t → StaysOff t l := by
  simp only [usedWhileAttached_iff]

/-- The system after a call that returns. -/
def Sys.lived (s : Sys) (l : Nat × LifeCall) : Sys :=
  match s.life l.1 l.2 with
  | .ok (_, s') => s'
  | .error _ => s

def lifeInit : Nat × LifeCall := (0, .initialise 0 0 none granted)
def lifeFinal : Nat × LifeCall := (0, .finalize 1)

/-- After initialising and finalising, a second initialisation reads through the pointer
    that was left behind. -/
theorem second_life_faults :
    ¬ ∀ cs l t, Lts.Turn LifeStep Sys.init cs l t → UsedWhileAttached t l := by
  intro h
  have hrun : Lts.Run LifeStep Sys.init [lifeInit, lifeFinal] ((Sys.init.lived lifeInit).lived lifeFinal) :=
    .cons ⟨.success, rfl⟩ (.cons ⟨.success, rfl⟩ (.nil _))
  have hdangling : (((Sys.init.lived lifeInit).lived lifeFinal).procs 0).cDb = .dangling := rfl
  have hall : UsedWhileAttached _ lifeInit := h _ _ _ ⟨[lifeInit, lifeFinal], [], rfl, hrun⟩
  have hused := (usedWhileAttached_iff _ _).mp hall
  rcases hused with hatt | ⟨hnull, -⟩
  · cases hdangling.symm.trans hatt
  · cases hdangling.symm.trans hnull

end Mcapi
