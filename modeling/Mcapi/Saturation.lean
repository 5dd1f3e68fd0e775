/-
  Mcapi.Saturation — the request pool once it has run out.

  `mcapi_trans_remove_request` compares its counter the wrong way round for a release, so
  with every request reserved a wait gives nothing back. The pool can then only stay as it
  is: `mcapi_test` and `mcapi_wait` work on its records, and nobody is handed one.

  - `Full.call`: a call leaves a full pool full.
  - `limit_full`: only a full pool answers `MCAPI_ERR_REQUEST_LIMIT`.
  - `limit_is_final`: after the first such answer, to any process, every issuing call of
    every process gets it, until an initialisation rebuilds the array. What the processes
    test, wait for, delete or finalise in between does not matter.
-/

import Mcapi.Processes

namespace Mcapi

variable {E : Env} {w w' : World} {db db' : Database}

/-- Every request is reserved, and the header says so. -/
structure Full (db : Database) : Prop where
  inv : PoolInv db
  all : (reserved db).card = maxRequests

theorem Full.head (h : Full db) : db.requestReservesHeader.emptyHeadIndex = none := h.inv.head_none_iff.mpr h.all

/-- A full pool gives nothing back. -/
theorem Full.dropped_eq (h : Full db) (r : Req) : dropped db r = db := by
  unfold dropped
  rw [if_neg]
  rw [h.inv.count, h.inv.max, h.all]
  omega

/-- Writing the record of a request that stays valid leaves a full pool full. -/
theorem Full.setRequest (h : Full db) {r : Req} {d : RequestData} (hd : d.valid = (db.requests r).valid) :
    Full (db.setRequest r d) := by
  have hi : PoolInv (db.setRequest r d) := h.inv.setRequest hd
  refine ⟨hi, hi.head_none_iff.mp ?_⟩
  rw [setRequest_header]
  exact h.head

theorem Full.effect {call : Call} (he : Effect call db db') (h : Full db) : Full db' := by
  cases he with
  | quiet db' hq =>
    have hi : PoolInv db' := h.inv.congr (fun r => by rw [hq.1]) hq.2
    refine ⟨hi, hi.head_none_iff.mp ?_⟩
    rw [hq.2]
    exact h.head
  | reserve i q id d _ hid _ =>
    -- there is no slot to hand out
    rw [h.head] at hid
    cases hid
  | rewrite r d _ _ hd => exact h.setRequest hd.valid
  | drop r d _ _ hd =>
    have hf : Full (db.setRequest r d) := h.setRequest hd.valid
    rw [hf.dropped_eq]
    exact hf

theorem Full.call {l : CallRec} (hs : CallStep db l db') (h : Full db) : Full db' := Full.effect (call_effect hs) h

/-! ## What an issuing call gets -/

/-- Only the exit before a reservation answers `MCAPI_ERR_REQUEST_LIMIT`. -/
theorem limit_head {i : Issuer} {q : Option U32} {x : Issue} (h : Issued E w q i x w')
    (hx : x.status = .errRequestLimit) : w.db.requestReservesHeader.emptyHeadIndex = none := by
  have hno : ∀ ret errno, issueStatus ret errno ≠ .errRequestLimit :=
    issueStatus_ne (by decide) (by decide) (by decide)
  cases h with
  | refused => cases hx
  | found => cases hx
  | limit hid => exact hid
  | missing => cases hx
  | noBuffer => exact (hno (-einval) w.errno hx).elim
  | command id c p => exact (hno (E.drv c p).ret (errnoAfter E w c p) hx).elim

theorem limit_full (hi : PoolInv w.db) {i : Issuer} {q : Option U32} {x : Issue} (h : Issued E w q i x w')
    (hx : x.status = .errRequestLimit) : Full w.db :=
  ⟨hi, hi.head_none_iff.mp (limit_head h hx)⟩

/-- What an issuing call comes to with no request to reserve: it is refused, or it is a get
    of an endpoint that is here and needs none. -/
inductive Exhausted (db : Database) (i : Issuer) (q : U32) : Issue → Prop
  | refused : i.route db ≠ .ok .found → Exhausted db i q ⟨some q, .errRequestLimit⟩
  | local : i.route db = .ok .found → Exhausted db i q ⟨some q, .success⟩

/-- A get of an endpoint that is here has its answer at once, and needs no request. -/
theorem found_answer {i : Issuer} {q : Option U32} {x : Issue} (h : i.exec .std E w q = .ok (x, w'))
    (hr : i.route w.db = .ok .found) : x = ⟨q, .success⟩ ∧ w'.db = w.db := by
  obtain ⟨d, n, p, e, rfl⟩ := route_found hr
  obtain ⟨k, hk, hr⟩ := bind_eq_ok.mp hr
  cases k with
  | none => cases hr
  | some k =>
    simp only [Issuer.exec, endpointGetI, transEndpointGetI, hk, ok_bind] at h
    obtain ⟨w1, hw1, h⟩ := bind_eq_ok.mp h
    cases h
    rw [storeAt_eq_ok hw1]
    exact ⟨rfl, rfl⟩

theorem Full.issue (hf : Full w.db) {i : Issuer} {q : U32} {x : Issue} (h : i.exec .std E w (some q) = .ok (x, w')) :
    Exhausted w.db i q x ∧ w'.db = w.db := by
  have hno : ∀ id, w.db.requestReservesHeader.emptyHeadIndex ≠ some id := by
    intro id hid
    rw [hf.head] at hid
    cases hid
  by_cases hr : i.route w.db = .ok .found
  · obtain ⟨rfl, hdb⟩ := found_answer h hr
    exact ⟨.local hr, hdb⟩
  · cases issue_cases h with
    | refused h0 => cases h0
    | found w' h0 => exact absurd h0 hr
    | limit => exact ⟨.refused hr, rfl⟩
    | missing id _ hid => exact absurd hid (hno id)
    | noBuffer id w' _ hid => exact absurd hid (hno id)
    | command id c p w' _ hid => exact absurd hid (hno id)

/-! ## Runs of the system -/

/-- The step is an initialisation that rebuilds the array. -/
def Rebuilding (s : Sys) : SysLabel → Prop
  | .initialise p _ _ _ o => Rebuilds s p o
  | _ => False

/-- Steps that leave the array as it was built. -/
def KeptArray (s : Sys) (l : SysLabel) : Prop := ¬ Rebuilding s l

theorem full_step {s s' : Sys} {l : SysLabel} (hf : ∀ g, s.seg = some g → Full g.db) (hk : KeptArray s l)
    (hs : SysStep s l s') : ∀ g, s'.seg = some g → Full g.db := by
  refine segment_keeps hf hs ?_ fun db c db' hc h => Full.call hc h
  intro p d n a o db hl hreb
  subst hl
  exact absurd hreb hk

/-- The steps up to the next rebuilt array keep the segment's pool full. -/
theorem full_run {s s' : Sys} {ls : List SysLabel} (hf : ∀ g, s.seg = some g → Full g.db)
    (h : Lts.Run (Lts.Guarded SysStep KeptArray) s ls s') : ∀ g, s'.seg = some g → Full g.db := by
  refine h.keeps (I := fun s => ∀ g, s.seg = some g → Full g.db) ?_ hf
  intro s l t _ ih hstep
  exact full_step ih hstep.1 hstep.2

/-- An issuing call as a step: what it returns, and what it leaves in the segment. -/
theorem issue_step {s s' : Sys} {p : Nat} {i : Issuer} {q : Option U32} {errno : Int} {fl : U32}
    (h : SysStep s (.call p E (i.call q) errno fl) s') :
    ∃ g x w', s.seg = some g ∧ s.returns (.call p E (i.call q) errno fl) = some (.issue x) ∧
      i.exec .std E { db := g.db, errno := errno, fl := fl } q = .ok (x, w') ∧
      s' = ⟨some { g with db := w'.db }, s.procs⟩ := by
  unfold SysStep Sys.step at h
  dsimp only at h
  split at h
  · rename_i g hc hg
    obtain ⟨⟨y, w'⟩, hy, h⟩ := bind_eq_ok.mp h
    cases h
    obtain ⟨x, rfl, hx⟩ := issue_exec hy
    refine ⟨g, x, w', hg, ?_, hx, rfl⟩
    simp only [Sys.returns, hc, hg, hy]
    rfl
  · cases h

/-- Once some process has been told `MCAPI_ERR_REQUEST_LIMIT`, and until the array is
    rebuilt, every issuing call of every process that returns is told so too, or is a get
    of an endpoint that is here; and it changes nothing. -/
theorem limit_is_final {s s1 t u : Sys} (hs : Healthy s) {p : Nat} {i : Issuer} {q : Option U32} {errno : Int}
    {fl : U32} {x : Issue} (hfirst : SysStep s (.call p E (i.call q) errno fl) s1)
    (hret : s.returns (.call p E (i.call q) errno fl) = some (.issue x)) (hlim : x.status = .errRequestLimit)
    {ls : List SysLabel} (hrun : Lts.Run (Lts.Guarded SysStep KeptArray) s1 ls t) {p' : Nat} {E' : Env} {j : Issuer}
    {q' : U32} {errno' : Int} {fl' : U32} (hlater : SysStep t (.call p' E' (j.call (some q')) errno' fl') u) :
    ∃ g y, t.seg = some g ∧ t.returns (.call p' E' (j.call (some q')) errno' fl') = some (.issue y) ∧
      Exhausted g.db j q' y ∧ u = t := by
  have h1 : ∀ g, s1.seg = some g → Full g.db := by
    obtain ⟨g, x0, w', hg, hx0, hexec, rfl⟩ := issue_step hfirst
    cases hret.symm.trans hx0
    have hf : Full g.db := limit_full (hs.inv g hg) (issue_cases hexec) hlim
    have hk : KeptArray s (.call p E (i.call q) errno fl) := not_false
    have hall : ∀ g0, s.seg = some g0 → Full g0.db := by
      intro g0 hg0
      cases hg.symm.trans hg0
      exact hf
    exact full_step hall hk hfirst
  obtain ⟨g, y, w', hg, hy, hexec, rfl⟩ := issue_step hlater
  have hf : Full g.db := full_run h1 hrun g hg
  obtain ⟨hex, hdb⟩ := hf.issue hexec
  refine ⟨g, y, hg, hy, hex, ?_⟩
  have hsame : ({ g with db := w'.db } : Segment) = g := by rw [hdb]
  rw [hsame, ← hg]

/-- One process has asked for an endpoint of another node until it was told to stop. -/
def exhausted : Sys := alone (asked maxRequests)

/-- It asks again. -/
def askAgain : SysLabel := .call 0 notYet (.endpointGetI 0 7 5 4096 (some 0)) 0 2

/-- It waits for its first question, in vain. -/
def waitFirst : SysLabel := .call 0 notYet (.wait 0 (some 0) 100) 0 2

theorem exhausted_step {s : Sys} {l : SysLabel} (h : (s.step l).isOk = true) : SysStep s l (s.after l) := by
  unfold SysStep Sys.after
  cases hs : s.step l with
  | error f => rw [hs] at h; cases h
  | ok s' => rfl

/-- It is refused, waits for its first question, and is refused again. -/
def afterWait : Sys := (exhausted.after askAgain).after waitFirst

theorem exhausted_still_refused :
    ∃ g y, afterWait.seg = some g ∧ afterWait.returns askAgain = some (.issue y) ∧
      Exhausted g.db (.endpointGetI 0 7 5 4096) 0 y ∧ afterWait.after askAgain = afterWait := by
  have hret : exhausted.returns askAgain = some (.issue ⟨some 0, .errRequestLimit⟩) := by decide +kernel
  have h1 : SysStep exhausted askAgain (exhausted.after askAgain) := exhausted_step (by decide +kernel)
  have h2 : SysStep (exhausted.after askAgain) waitFirst afterWait := exhausted_step (by decide +kernel)
  have h3 : SysStep afterWait askAgain (afterWait.after askAgain) := exhausted_step (by decide +kernel)
  exact limit_is_final (i := .endpointGetI 0 7 5 4096) (q := some 0) (asked_live maxRequests).healthy_alone h1 hret rfl
    (.single (l := waitFirst) ⟨not_false, h2⟩) (j := .endpointGetI 0 7 5 4096) h3

end Mcapi
