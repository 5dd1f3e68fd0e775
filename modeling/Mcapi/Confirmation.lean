/-
  Mcapi.Confirmation — what `mcapi_test` has reported, `mcapi_wait` should confirm.

  A send or receive that a test has reported done has a completed record (`Settled`),
  and nothing but a wait on it changes that record, as long as its segment lives and no
  initialisation rebuilds the request array (`Spares`). Every further test reports the
  same (`settled_test`). A wait looks the request's endpoint up before it looks at
  `completed`, where a test does it the other way round. So it confirms the report
  exactly when the endpoint its handle names can be found then
  (`reported_is_confirmed_iff`): once the endpoint is deleted it fails with
  `MCAPI_ERR_NODE_NOTINIT` (`deleted_not_confirmed`).
-/

import Mcapi.Processes

namespace Mcapi

variable {E : Env} {w w' : World} {db db' : Database}

/-! ## The record of a request reported done -/

/-- A send or receive, done with `size`. -/
structure Settled (d : RequestData) (size : U32) : Prop where
  valid : d.valid = true
  completed : d.completed = true
  uncancelled : d.cancelled = false
  message : d.type ≠ .getEndpt
  length : d.size = size

/-- A test that reports a send or receive done leaves it settled. -/
theorem test_settles {r : Req} {q z : U32} (ht : (w.db.requests r).type ≠ .getEndpt)
    (h : test .std E w (handleOf r) (some q) = .ok (⟨true, some z, .success⟩, w')) :
    Settled (w'.db.requests r) z := by
  unfold test at h
  rw [if_neg (by simp [transValidSizeParam])] at h
  split at h
  · cases h
  rename_i hv
  simp only [Bool.not_eq_true, Bool.not_eq_false'] at hv
  have hval : (w.db.requests r).valid = true := (valid_handle hv (requestSlot_handleOf r)).2
  unfold transTestI at h
  simp only [hv, Bool.not_true, Bool.and_false, Bool.false_eq_true, if_false, requestSlot_handleOf, ok_bind, hval] at h
  split at h
  · cases h
  rename_i hcan
  have hcan : (w.db.requests r).cancelled = false := by simpa using hcan
  split at h
  · rename_i hc
    cases h
    exact ⟨hval, hc, hcan, ht, rfl⟩
  obtain ⟨t, -, h⟩ := bind_eq_ok.mp h
  cases t with
  | none => cases h
  | some t =>
    dsimp only at h
    rw [Option.map_some, smWaitNonblocking_eq] at h
    dsimp only at h
    split at h
    · cases h
    · cases h
      simp only [setRequest_same, ioctl_db, setBlocking_db]
      exact ⟨rfl, rfl, hcan, ht, rfl⟩

/-- A test of a settled request reports it, and changes nothing. -/
theorem settled_test {r : Req} {z : U32} (h : Settled (w.db.requests r) z) (q : U32) :
    test .std E w (handleOf r) (some q) = .ok (⟨true, some z, .success⟩, w) := by
  have hv : transValidRequestHandle w.db (handleOf r) = true := by simp [h.valid]
  unfold test transTestI
  simp [transValidSizeParam, hv, h.valid, h.uncancelled, h.completed, h.length]

/-- A wait on it first looks up the endpoint of its handle. -/
theorem settled_wait {r : Req} {z : U32} (h : Settled (w.db.requests r) z) (q t : U32) :
    wait .std E w (handleOf r) (some q) t = (do
      match ← lookup w.db (w.db.requests r).handle with
      | none => .ok (⟨false, some q, .errNodeNotinit⟩, w)
      | some _ => .ok (⟨true, some z, .success⟩, { w with db := dropped w.db r })) := by
  have hv : transValidRequestHandle w.db (handleOf r) = true := by simp [h.valid]
  unfold wait transWait completionTarget lookup
  simp only [transValidSizeParam, hv, Option.isSome_some, Bool.not_true, Bool.and_false, Bool.false_eq_true, if_false,
    requestSlot_handleOf, ok_bind, h.message, ne_eq, not_false_eq_true, if_true, assertDecode_std]
  generalize transGetPortIndex .std w.db _ _ = k
  rcases k with f | k
  · rfl
  · cases k with
    | none => rfl
    | some k =>
      simp only [ok_bind, h.completed, if_true, dropRequest_valid h.valid, Option.map_some, h.length]

/-! ## Until it is waited for -/

/-- A step that leaves request `r` to be waited for: not a wait on it, nor the finalize
    that removes the segment, nor an initialisation that rebuilds the request array. -/
def Spares (r : Req) (s : Sys) : SysLabel → Prop
  | .initialise p _ _ _ o => ¬ Rebuilds s p o
  | .finalize p => ∀ g, s.seg = some g → (s.procs p).cDb = .attached → 1 < g.nattch
  | .exit _ => True
  | .call _ _ c _ _ => ∀ size timeout, c ≠ .wait (handleOf r) size timeout

/-- A call other than a wait on it leaves a settled record as it is. -/
theorem settled_kept (hi : PoolInv db) {r : Req} {z : U32} (hd : Settled (db.requests r) z) {l : CallRec}
    (hs : CallStep db l db') (hn : ∀ size timeout, l.call ≠ .wait (handleOf r) size timeout) :
    db'.requests r = db.requests r := by
  by_cases hh : l.call.handle = some (handleOf r)
  · have hon := hs.on_request hh
    obtain ⟨rfl, rfl, -, -⟩ := hs
    rcases hon with ⟨size, d, -, -, hx⟩ | ⟨size, timeout, d, hc, -, -⟩
    · generalize l.after = w' at hx ⊢
      cases size with
      | none => cases hx; rfl
      | some q =>
        rw [settled_test hd] at hx
        cases hx
        rfl
    · exact absurd hc (hn size timeout)
  · exact (call_effect hs).frame hi hd.valid hh

/-- The segment is there, its pool is sound and request `r` is settled. -/
def Settles (s : Sys) (r : Req) (z : U32) : Prop :=
  ∃ g, s.seg = some g ∧ PoolInv g.db ∧ Settled (g.db.requests r) z

theorem Settles.step {s s' : Sys} {r : Req} {z : U32} (h : Settles s r z) {l : SysLabel}
    (hs : Lts.Guarded SysStep (Spares r) s l s') : Settles s' r z := by
  obtain ⟨g, hg, hi, hd⟩ := h
  obtain ⟨hsp, hs⟩ := hs
  cases l with
  | initialise p d n a o =>
    rcases initialise_cases hs with ⟨-, heq⟩ | ⟨hreb, -⟩
    · exact ⟨g, heq.trans hg, hi, hd⟩
    · exact absurd hreb hsp
  | finalize p =>
    cases hs
    simp only [Settles, hg]
    cases hc : (s.procs p).cDb with
    | attached =>
      have hlast : ¬ g.nattch - 1 = 0 := by
        have h1 := hsp g hg hc
        omega
      exact ⟨_, if_neg hlast, hi, hd⟩
    | null => exact ⟨g, rfl, hi, hd⟩
    | dangling => exact ⟨g, rfl, hi, hd⟩
  | exit p =>
    cases hs
    simp only [Settles, hg]
    by_cases hc : (s.procs p).cDb = .attached
    · exact ⟨_, if_pos hc, hi, hd⟩
    · exact ⟨g, if_neg hc, hi, hd⟩
  | call p E c errno fl =>
    obtain ⟨g1, g', l, hg1, hg', hc, -, hstep⟩ := call_cases hs
    cases hg.symm.trans hg1
    have hk : g'.db.requests r = g.db.requests r := by
      refine settled_kept hi hd hstep ?_
      rw [hc]
      exact hsp
    exact ⟨g', hg', CallStep.inv hstep hi, by rw [hk]; exact hd⟩

/-! ## What a wait then returns -/

/-- Every test and every wait on request `r` now returns TRUE with `MCAPI_SUCCESS` and
    this size, the wait without a driver command. -/
def Confirms (db : Database) (r : Req) (z : U32) : Prop :=
  (∀ E w q, w.db = db → ∃ w', test .std E w (handleOf r) (some q) = .ok (⟨true, some z, .success⟩, w')) ∧
  ∀ E w q t, w.db = db → ∃ w', wait .std E w (handleOf r) (some q) t = .ok (⟨true, some z, .success⟩, w') ∧
    commands w'.trace = commands w.trace

theorem settled_confirms_iff {r : Req} {z : U32} (h : Settled (db.requests r) z) :
    Confirms db r z ↔ ∃ k, lookup db (db.requests r).handle = .ok (some k) := by
  constructor
  · intro hc
    obtain ⟨w', hw, -⟩ := hc.2 ⟨fun _ p => ⟨0, 0, p, {}⟩, {}⟩ { db := db } 0 0 rfl
    rw [settled_wait h] at hw
    obtain ⟨k, hk, hw⟩ := bind_eq_ok.mp hw
    cases k with
    | none => cases hw
    | some k => exact ⟨k, hk⟩
  · intro hk
    obtain ⟨k, hk⟩ := hk
    refine ⟨?_, ?_⟩
    · intro E w q hw
      subst hw
      exact ⟨w, settled_test h q⟩
    · intro E w q t hw
      subst hw
      refine ⟨{ w with db := dropped w.db r }, ?_, rfl⟩
      rw [settled_wait h, hk]
      rfl

/-- After a test that reported a send or receive done, whatever is called but a wait on
    it: every test and wait confirms the report exactly when the endpoint that the
    request's handle names can be found. -/
theorem reported_is_confirmed_iff {s s1 s2 : Sys} (hs : Healthy s) {p : Nat} {E : Env} {r : Req} {q z : U32}
    {errno : Int} {fl : U32} (htest : SysStep s (.call p E (.test (handleOf r) (some q)) errno fl) s1)
    (hret : s.returns (.call p E (.test (handleOf r) (some q)) errno fl) = some (.done ⟨true, some z, .success⟩))
    (hty : (s.db.requests r).type ≠ .getEndpt) {ls : List SysLabel}
    (hrun : Lts.Run (Lts.Guarded SysStep (Spares r)) s1 ls s2) :
    Confirms s2.db r z ↔ ∃ k, lookup s2.db (s2.db.requests r).handle = .ok (some k) := by
  have h1 : Settles s1 r z := by
    obtain ⟨g, g', l, hg, hg', hc, hl, hstep⟩ := call_cases htest
    have hi : PoolInv g.db := hs.inv g hg
    have hl : l.ret = .done ⟨true, some z, .success⟩ := Option.some.inj (hl.symm.trans hret)
    have hx : test .std l.env l.before (handleOf r) (some q) = .ok (⟨true, some z, .success⟩, l.after) := by
      obtain ⟨-, -, -, he⟩ := hstep
      rw [hc, hl] at he
      obtain ⟨d, hd, he⟩ := test_exec he
      cases hd
      exact he
    refine ⟨g', hg', CallStep.inv hstep hi, ?_⟩
    have hdb : s.db = g.db := by rw [Sys.db, hg]; rfl
    rw [hdb, ← hstep.1] at hty
    rw [← hstep.2.1]
    exact test_settles hty hx
  obtain ⟨g, hg, -, hd⟩ := hrun.keeps (I := fun s => Settles s r z) (fun _ h hs => h.step hs) h1
  have hdb : s2.db = g.db := by rw [Sys.db, hg]; rfl
  rw [hdb]
  exact settled_confirms_iff hd

/-! ### A receive that is done -/

/-- A receive on port 5, and the test that reports it done. -/
def received5 : Database := (Call.msgRecvI (endpointHandle 0 5) 4096 8 (some 0)).after notYet onePort
def tested5 : CallRec := (Call.test 0 (some 0)).record willing received5

theorem tested5_step : CallStep received5 tested5 tested5.after.db := record_step rfl

/-- Then an endpoint is created on port 6, and a message is sent to it. -/
def created6 : CallRec := (Call.endpointCreate 6).record sessionTwo tested5.after.db
def sent6 : CallRec :=
  (Call.msgSendI (endpointHandle 0 5) (endpointHandle 0 6) 8192 8 0 (some 0)).record notYet created6.after.db

theorem created6_step : CallStep tested5.after.db created6 created6.after.db := record_step rfl
theorem sent6_step : CallStep created6.after.db sent6 sent6.after.db := record_step rfl

/-- The wait that follows still confirms the receive. -/
theorem tested5_confirmed : Confirms sent6.after.db 0 8 := by
  have hh : Healthy (alone received5) := (onePort_live.after _ _).healthy_alone
  obtain ⟨hs, hret⟩ := alone_step tested5_step
  have hrun : Lts.Run (Lts.Guarded SysStep (Spares 0)) (alone tested5.after.db) [created6.label, sent6.label]
      (alone sent6.after.db) :=
    .cons ⟨nofun, (alone_step created6_step).1⟩ (.single ⟨nofun, (alone_step sent6_step).1⟩)
  exact (reported_is_confirmed_iff (r := 0) (q := 0) (z := 8) hh hs hret (by decide) hrun).mpr ⟨1, rfl⟩

/-- The endpoint is deleted before the wait. -/
def deleted5 : CallRec := (Call.endpointDelete (endpointHandle 0 5)).record willing tested5.after.db

theorem deleted_not_confirmed :
    ¬ ∀ s s1 s2, Healthy s → ∀ p E r q z errno fl,
      SysStep s (.call p E (.test (handleOf r) (some q)) errno fl) s1 →
      s.returns (.call p E (.test (handleOf r) (some q)) errno fl) = some (.done ⟨true, some z, .success⟩) →
      (s.db.requests r).type ≠ .getEndpt →
      ∀ ls, Lts.Run (Lts.Guarded SysStep (Spares r)) s1 ls s2 → Confirms s2.db r z := by
  intro h
  have hh : Healthy (alone received5) := (onePort_live.after _ _).healthy_alone
  obtain ⟨hs, hret⟩ := alone_step tested5_step
  have hdel : CallStep tested5.after.db deleted5 deleted5.after.db := record_step rfl
  have hrun : Lts.Run (Lts.Guarded SysStep (Spares 0)) (alone tested5.after.db) [deleted5.label]
      (alone deleted5.after.db) := .single ⟨nofun, (alone_step hdel).1⟩
  have hc := h _ _ _ hh 0 _ 0 0 8 _ _ hs hret (by decide) _ hrun
  obtain ⟨w', hw, -⟩ := hc.2 willing { db := deleted5.after.db } 0 0 rfl
  cases hw

end Mcapi
