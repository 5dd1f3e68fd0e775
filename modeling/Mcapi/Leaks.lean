/-
  Mcapi.Leaks — what a failing non-blocking call leaves in the pool (`mcapi_msg_send_i`,
  `mcapi_msg_recv_i`, `mcapi_endpoint_get_i`).

  Each of them reserves a request before it knows whether its endpoint is there and what
  the driver answers, and no exit gives the reservation back. So a call that returns
  leaves the pool alone when it fails exactly if it fails before anything is reserved
  (`failed_issue_keeps_pool_iff`). A call whose lookup goes past the table is not one of
  these: it is made with the request already reserved.
-/

import Mcapi.Faults

namespace Mcapi

open Outcome (Fails)

variable {E : Env} {w w' : World} {i : Issuer} {q : Option U32}

/-- The call returns, and if it fails it leaves the pool as it was. -/
def KeepsPool (E : Env) (w : World) (request : Option U32) (i : Issuer) : Prop :=
  ∃ x w', i.exec .std E w request = .ok (x, w') ∧ (Failed x.status → SamePool w.db w'.db)

/-- The call returns, and it does not fail, or fails before it reserves: no slot is free,
    there is no request pointer, or the endpoint it needs is there and the driver takes
    its command or answers EAGAIN. A receive without a buffer gets no answer: what
    `errno` held before counts as one. -/
def Issuer.Kept (E : Env) (w : World) (request : Option U32) (i : Issuer) : Prop :=
  ¬ (i.call request).Faults E w.db ∧
    (request = none ∨ w.db.requestReservesHeader.emptyHeadIndex = none ∨
      match i.route w.db with
      | .ok .found => True
      | .ok .missing => False
      | .ok .noBuffer => w.errno = eagain
      | .ok (.command c p) => (E.drv c p).ret = 0 ∨ errnoAfter E w c p = eagain
      | .error _ => False)

theorem issue_fails : Fails (i.exec .std E w q) ↔ (i.call q).Faults E w.db := by
  cases i with
  | msgSendI s r b n p => exact sendI_fails
  | msgRecvI r b n => exact recvI_fails
  | endpointGetI d n p e => exact getI_fails

theorem not_samePool_of_header {db db' : Database} {id : Req}
    (h : db'.requestReservesHeader = (db.take id).requestReservesHeader) : ¬ SamePool db db' := by
  intro hs
  have hc := congrArg IndexedArrayHeader.currCount (h.symm.trans hs.2)
  simp only [Database.take] at hc
  omega

theorem kept_keeps (h : i.Kept E w q) : KeepsPool E w q i := by
  obtain ⟨hret, h⟩ := h
  obtain ⟨⟨x, w'⟩, he⟩ := Outcome.not_fails_iff.mp (mt issue_fails.mp hret)
  refine ⟨x, w', he, fun hf => ?_⟩
  cases issue_cases he with
  | refused => exact .refl _
  | found w' => exact absurd rfl hf.1
  | limit => exact .refl _
  | missing id hq hid hr => simp only [hid, hr, hq, reduceCtorEq, or_self] at h
  | noBuffer id w' hq hid hr =>
    simp only [hid, hr, hq, reduceCtorEq, false_or] at h
    have hf : Failed (issueStatus (-einval) w.errno) := hf
    exact absurd h (issueStatus_failed.mp hf).2
  | command id c p w' hq hid hr =>
    simp only [hid, hr, hq, reduceCtorEq, false_or] at h
    obtain ⟨h0, he⟩ := issueStatus_failed.mp hf
    exact (h.elim h0 he).elim

/-- A call that fails once it has a slot leaves the slot taken. -/
theorem kept_of_keeps (h : KeepsPool E w q i) : i.Kept E w q := by
  obtain ⟨x, w', he, hpool⟩ := h
  refine ⟨fun hf => Outcome.not_fails_ok _ (he ▸ issue_fails.mpr hf), ?_⟩
  cases issue_cases he with
  | refused hq => exact .inl hq
  | found w' hr => exact .inr (.inr (by rw [hr]; trivial))
  | limit hid => exact .inr (.inl hid)
  | missing => exact absurd (hpool missing_failed) (not_samePool_of_header rfl)
  | noBuffer id w' hq hid hr hdb =>
    refine .inr (.inr ?_)
    rw [hr]
    by_contra herrno
    have hret : -einval ≠ 0 := by decide
    exact not_samePool_of_header (by rw [hdb]; rfl) (hpool (issueStatus_failed.mpr ⟨hret, herrno⟩))
  | command id c p w' hq hid hr hdb =>
    refine .inr (.inr ?_)
    rw [hr]
    by_contra hn
    exact not_samePool_of_header (by rw [hdb]; rfl) (hpool (issueStatus_failed.mpr (not_or.mp hn)))

/-- One failing call of a run, of those that are kept. -/
def FailingStep (db : Database) (l : CallRec) (db' : Database) : Prop :=
  CallStep db l db' ∧ ∃ (i : Issuer) (q : Option U32) (x : Issue),
    l.call = i.call q ∧ l.ret = .issue x ∧ Failed x.status ∧ i.Kept l.env l.before q

theorem FailingStep.samePool {db db' : Database} {l : CallRec} (h : FailingStep db l db') : SamePool db db' := by
  obtain ⟨⟨rfl, rfl, -, he⟩, i, q, x, hc, hx, hf, hk⟩ := h
  rw [hc, hx] at he
  obtain ⟨y, hy, he⟩ := issue_exec he
  cases hy
  obtain ⟨z, w', hz, hpool⟩ := kept_keeps hk
  cases he.symm.trans hz
  exact hpool hf

/-- A call returns, and leaves the flags, the free list and the counter as they were if it
    fails, exactly when it is kept; and any number of failing calls that are leaves them
    so. -/
theorem failed_issue_keeps_pool_iff (E : Env) (w : World) (q : Option U32) (i : Issuer) :
    (KeepsPool E w q i ↔ i.Kept E w q) ∧ ∀ ls db', Lts.Run FailingStep w.db ls db' → SamePool w.db db' := by
  refine ⟨⟨kept_of_keeps, kept_keeps⟩, ?_⟩
  intro ls db' h
  exact h.keeps (fun _ h hs => h.trans hs.samePool) (.refl w.db)

/-- Node 0, with every request reserved. -/
def allReserved : World := { db := asked maxRequests }

/-- A send that finds no request free is refused, and leaves the pool alone. -/
theorem refused_send_keeps_pool :
    ((Issuer.msgSendI 5 6 4096 8 0).exec .std willing allReserved (some 0)).map (·.1.status) = .ok .errRequestLimit ∧
    KeepsPool willing allReserved (some 0) (.msgSendI 5 6 4096 8 0) := by
  have hnone : allReserved.db.requestReservesHeader.emptyHeadIndex = none := by decide +kernel
  have hcheck : ¬ CheckOverruns allReserved.db 5 := by decide +kernel
  refine ⟨by decide +kernel, (failed_issue_keeps_pool_iff _ _ _ _).1.mpr ⟨?_, .inr (.inl hnone)⟩⟩
  intro h
  rcases h with h | ⟨h, -⟩
  · exact hcheck h
  · obtain ⟨id, hid⟩ := spare_iff.mp h
    cases hnone.symm.trans hid

/-- A send from an endpoint that does not exist keeps a request for good. -/
theorem missing_endpoint_leaks : ¬ ∀ db, Live db → ∀ E w q i, w.db = db → KeepsPool E w q i := by
  intro h
  obtain ⟨-, hq | hid | hr⟩ := kept_of_keeps (h noEndpoints.db ⟨0, 0, none, .refl _⟩ willing noEndpoints (some 0)
    (.msgSendI 5 6 1 1 0) rfl)
  · cases hq
  · cases hid
  · exact hr

end Mcapi
