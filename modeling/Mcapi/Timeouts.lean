/-
  Mcapi.Timeouts — `mcapi_wait` calls that time out.

  The documentation of `mcapi_wait` has a timed-out wait leave its request alone. The
  code removes the request after every refused command, so it is left alone only where
  the removal itself is refused, with every slot reserved (`timeout_keeps_iff`). In a run
  whose timeouts all come then, the request is as it was (`timeouts_keep_request`).
-/

import Mcapi.Processes

namespace Mcapi

variable {E : Env} {w w' : World} {db db' : Database}

/-- A call that is not on request `r`, or a wait on it that times out. -/
def TimeoutStep (r : Req) (db : Database) (l : CallRec) (db' : Database) : Prop :=
  CallStep db l db' ∧ (l.call.handle = some (handleOf r) →
    ∃ size timeout d, l.call = .wait (handleOf r) size timeout ∧ l.ret = .done d ∧ d.status = .timeout)

/-- A call on request `r` comes with every slot reserved. -/
def WhenFull (r : Req) (db : Database) (l : CallRec) : Prop :=
  l.call.handle = some (handleOf r) → (reserved db).card = maxRequests

theorem dropped_eq (h : PoolInv db) {r : Req} :
    dropped db r = if (reserved db).card < maxRequests then db.release r else db := by
  unfold dropped
  rw [h.count, h.max]
  exact if_congr Nat.cast_lt rfl rfl

/-- A wait that times out drops its request, and does nothing else. -/
theorem timed_out {v timeout : U32} {size : Option U32} {d : Done} {r : Req}
    (h : wait .std E w v size timeout = .ok (d, w')) (hv : v = handleOf r) (ht : d.status = .timeout) :
    w'.db = dropped w.db r := by
  cases wait_cases h with
  | refused _ hd => rw [ht] at hd; rcases hd with hd | hd <;> cases hd
  | gone _ _ _ _ _ _ hd => rw [ht] at hd; cases hd
  | already _ _ _ _ _ _ _ hd => rw [ht] at hd; cases hd
  | failed q t d w' hq _ _ _ _ _ _ hdb _ =>
    obtain rfl : q = r := handleOf_inj (hq.symm.trans hv)
    exact hdb
  | done _ _ _ _ _ _ _ _ _ _ hd => rw [ht] at hd; cases hd

/-- A timed-out wait keeps its request exactly when every slot is reserved. -/
theorem timeout_keeps_iff (hi : PoolInv w.db) {timeout : U32} {size : Option U32} {d : Done} {r : Req}
    (hv : (w.db.requests r).valid = true) (h : wait .std E w (handleOf r) size timeout = .ok (d, w'))
    (ht : d.status = .timeout) : (w'.db.requests r).valid = true ↔ (reserved w.db).card = maxRequests := by
  have hle := reserved_le w.db
  rw [timed_out h rfl ht, dropped_eq hi]
  split
  · simp only [release_requests_same]
    constructor
    · nofun
    · omega
  · exact ⟨fun _ => by omega, fun _ => hv⟩

/-- One step of such a run leaves the record of `r` as it was. -/
theorem TimeoutStep.keeps {r : Req} {l : CallRec} (hs : TimeoutStep r db l db') (hg : WhenFull r db l) (hi : PoolInv db)
    (hv : (db.requests r).valid = true) : db'.requests r = db.requests r := by
  obtain ⟨hc, ht⟩ := hs
  by_cases hh : l.call.handle = some (handleOf r)
  · obtain ⟨size, timeout, d, hcall, hret, hst⟩ := ht hh
    obtain ⟨rfl, rfl, -, he⟩ := hc
    rw [hcall, hret] at he
    obtain ⟨d', hd, he⟩ := wait_exec he
    cases hd
    rw [timed_out he rfl hst, dropped_eq hi, if_neg (by rw [hg hh]; exact lt_irrefl _)]
  · exact (call_effect hc).frame hi hv hh

/-- A wait whose command succeeds completes its request. -/
theorem wait_success {v timeout : U32} {size : Option U32} {d : Done} (h : wait .std E w v size timeout = .ok (d, w'))
    (ht : commands w.trace = []) (hc : ∃ c ∈ commands w'.trace, c.reply.ret = 0) :
    d.rc = true ∧ d.status = .success := by
  obtain ⟨c, hmem, hret⟩ := hc
  cases wait_cases h with
  | refused => rw [ht] at hmem; cases hmem
  | gone => rw [ht] at hmem; cases hmem
  | already _ _ _ _ _ _ _ _ _ htr => rw [htr, ht] at hmem; cases hmem
  | failed q t d w' _ _ _ _ hne _ _ _ htr =>
    rw [htr, ht, List.nil_append, List.mem_singleton] at hmem
    subst hmem
    rw [hret] at hne
    exact absurd rfl hne
  | done _ _ _ _ _ _ _ _ _ hrc hst => exact ⟨hrc, hst⟩

/-- Where every timeout comes with all slots reserved, the request keeps its record, no
    reserve hands it out, and a later wait whose command succeeds completes it. -/
theorem timeouts_keep_request (h : Reached db) {r : Req} (hv : (db.requests r).valid = true) {ls : List CallRec}
    (hrun : Lts.Run (Lts.Guarded (TimeoutStep r) (WhenFull r)) db ls db') :
    db'.requests r = db.requests r ∧ (transReserveRequest db').1 ≠ some r ∧
    ∀ l db'' size timeout, CallStep db' l db'' → l.call = .wait (handleOf r) size timeout →
      (∃ c ∈ l.commands, c.reply.ret = 0) → ∃ d, l.ret = .done d ∧ d.rc = true ∧ d.status = .success := by
  have hkeep : PoolInv db' ∧ db'.requests r = db.requests r := by
    refine hrun.keeps (I := fun db1 => PoolInv db1 ∧ db1.requests r = db.requests r) ?_ ⟨h.inv, rfl⟩
    intro db1 l db2 _ hb hstep
    obtain ⟨hi, he⟩ := hb
    obtain ⟨hg, hs⟩ := hstep
    have hv1 : (db1.requests r).valid = true := by rw [he]; exact hv
    exact ⟨CallStep.inv hs.1 hi, (hs.keeps hg hi hv1).trans he⟩
  obtain ⟨hi, he⟩ := hkeep
  refine ⟨he, ?_, ?_⟩
  · intro hres
    have hsound := reserve_sound hi
    unfold ReserveSound at hsound
    split at hsound
    · rename_i heq
      rw [heq] at hres
      cases hres
    · rename_i q _ heq
      rw [heq] at hres
      cases hres
      have hfree : (db'.requests r).valid = false := hsound.1
      rw [he, hv] at hfree
      cases hfree
  · intro l db'' size timeout hs hc hcom
    obtain ⟨rfl, rfl, ht, hx⟩ := hs
    rw [hc] at hx
    obtain ⟨d, hd, hx⟩ := wait_exec hx
    exact ⟨d, hd, wait_success hx (by rw [ht]; rfl) hcom⟩

/-- A driver that lets every command time out. -/
def timedOut : Env := { drv := fun _ p => ⟨-1, etimedout, p, {}⟩ }

/-- A wait on request `r`. -/
def waitOn (r : Req) : Call := .wait (handleOf r) (some 0) 10

theorem timedOut_step {r : Req} {db : Database} (h : ((waitOn r).exec .std timedOut { db := db }).isOk = true)
    (hd : ((waitOn r).record timedOut db).ret = .done ⟨false, some 0, .timeout⟩) :
    TimeoutStep r db ((waitOn r).record timedOut db) ((waitOn r).after timedOut db) := by
  have hs := record_step h
  have hc : ((waitOn r).record timedOut db).call = waitOn r := by
    unfold Call.record
    split <;> rfl
  exact ⟨hs, fun _ => ⟨_, _, _, hc, hd, rfl⟩⟩

/-- With every slot reserved, request 3 survives a timeout. -/
theorem full_timeout_keeps :
    ((waitOn 3).after timedOut (asked maxRequests)).requests 3 = (asked maxRequests).requests 3 :=
  (timeouts_keep_request (asked_live _).reached (by decide +kernel)
    (.single ⟨fun _ => asked_full, timedOut_step (by decide +kernel) (by decide +kernel)⟩)).1

/-- The only request there is does not. -/
theorem timeout_releases :
    ¬ ∀ db, Reached db → ∀ r, (db.requests r).valid = true → (db.requests r).completed = false →
      ∀ ls db', Lts.Run (TimeoutStep r) db ls db' → db'.requests r = db.requests r := by
  intro h
  have he := h _ (asked_live 1).reached 0 rfl rfl _ _ (.single (timedOut_step rfl rfl))
  exact absurd (congrArg RequestData.valid he) (by decide)

end Mcapi
