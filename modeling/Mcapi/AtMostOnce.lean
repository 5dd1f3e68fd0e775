/-
  Mcapi.AtMostOnce — the driver commands of one reservation.

  From the call that reserves a slot until the slot is released, the commands given on
  its behalf are the one of that call and the WAITs of the tests and waits on it
  (`onBehalf`). A successful one completes the record, and no more are given: so one
  that is followed by another has failed (`reservation_completes_once`).

  This rests on the release. A wait that completes a request does not set its flag, and
  with every slot reserved it does not release it either: such waits (`Once` rules them
  out) can succeed again and again (`full_pool_completes_twice`).
-/

import Mcapi.Timeouts

namespace Mcapi

variable {E : Env} {w w' : World} {db db' : Database}

/-- The commands a later call gives on behalf of request `r`. -/
def onBehalf (r : Req) (l : CallRec) : List Command :=
  if l.call.handle = some (handleOf r) then l.commands else []

/-- The call does not complete a request by a wait that cannot release it. -/
def Once (db : Database) (l : CallRec) : Prop :=
  ∀ r size timeout t, l.call = .wait (handleOf r) size timeout → (db.requests r).completed = false →
    completionTarget .std l.env db (db.requests r) = .ok (some t) →
    (waitCommand l.env t (db.requests r) timeout).reply.ret = 0 → (reserved db).card < maxRequests

/-- One that is followed by another did not succeed. -/
def OneSuccess (cs : List Command) : Prop := cs.Pairwise fun c _ => c.reply.ret ≠ 0

/-- The commands given so far leave room for another only where the record is not
    completed. -/
structure Progress (r : Req) (db : Database) (cs : List Command) : Prop where
  inv : PoolInv db
  once : OneSuccess cs
  failed : (db.requests r).valid = true → (db.requests r).completed = false → ∀ c ∈ cs, c.reply.ret ≠ 0

theorem OneSuccess.snoc {cs : List Command} (h : ∀ c ∈ cs, c.reply.ret ≠ 0) (c : Command) : OneSuccess (cs ++ [c]) := by
  have hp : cs.Pairwise fun c _ => c.reply.ret ≠ 0 :=
    List.pairwise_iff_forall_sublist.mpr fun hs => h _ (hs.subset List.mem_cons_self)
  exact List.pairwise_append.mpr ⟨hp, List.pairwise_singleton .., fun a ha b _ => h a ha⟩

theorem truncated_ne {ret : Int} (h : truncated ret ≠ 0) : ret ≠ 0 := by
  intro h0
  rw [h0] at h
  exact h rfl

theorem Effect.issuer {call : Call} (he : Effect call db db') {r : Req} (hf : (db.requests r).valid = false)
    (hr : (db'.requests r).valid = true) : ∃ (i : Issuer) (q : Option U32), call = i.call q := by
  have hne : ∀ q, (db.requests q).valid = true → r ≠ q := by
    intro q hq he
    rw [← he, hf] at hq
    cases hq
  cases he with
  | quiet db' hq => rw [hq.1, hf] at hr; cases hr
  | reserve i q _ _ hc _ _ => exact ⟨i, q, hc⟩
  | rewrite q d _ hq _ => rw [setRequest_ne _ _ (hne q hq), hf] at hr; cases hr
  | drop q d _ hq _ => rw [dropped_requests_ne (hne q hq), setRequest_ne _ _ (hne q hq), hf] at hr; cases hr

theorem filled_ne {i : Issuer} {id r : Req} {ret : Int} {pkt : SmPacket} (h : r ≠ id) :
    (i.filled E db id ret pkt).requests r = db.requests r := by
  rw [Issuer.filled, setRequest_ne _ _ h, take_requests_ne _ h]

/-- The call that reserves the slot. -/
theorem first_progress (hi : PoolInv db) {l : CallRec} (hs : CallStep db l db') {r : Req}
    (hf : (db.requests r).valid = false) (hr : (db'.requests r).valid = true) : Progress r db' l.commands := by
  obtain ⟨i, q, hc⟩ := (call_effect hs).issuer hf hr
  have hi' := CallStep.inv hs hi
  obtain ⟨rfl, rfl, ht, hx⟩ := hs
  have hnil : commands l.before.trace = [] := by rw [ht]; rfl
  rw [hc] at hx
  obtain ⟨x, -, hx⟩ := issue_exec hx
  rcases (issue_cases hx).quiet_or_command with htr | ⟨id, c, p, -, hdb, htr⟩
  · rw [CallRec.commands, htr.trans hnil]
    exact ⟨hi', .nil, fun _ _ c hc => nomatch hc⟩
  · have hid : id = r := by
      by_contra hne
      rw [hdb, filled_ne (Ne.symm hne), hf] at hr
      cases hr
    subst hid
    rw [CallRec.commands, htr, hnil, List.nil_append]
    refine ⟨hi', List.pairwise_singleton .., fun _ hcomp c' hmem => ?_⟩
    rw [hdb, Issuer.filled, setRequest_same, record_completed] at hcomp
    rw [List.mem_singleton.mp hmem]
    exact beq_eq_false_iff_ne.mp hcomp

/-- A request that is dropped below the limit is not valid any more. -/
theorem dropped_valid (h : PoolInv db) {r : Req} (d : RequestData) (hlt : (reserved db).card < maxRequests) :
    ((dropped (db.setRequest r d) r).requests r).valid = false := by
  have hc : (db.setRequest r d).requestReservesHeader.currCount <
      (db.setRequest r d).requestReservesHeader.maxCount := by
    rw [setRequest_header, h.count, h.max]
    exact Nat.cast_lt.mpr hlt
  rw [dropped, if_pos hc, release_requests_same]

section
variable {r : Req} {cs : List Command}

/-- Nothing is given, and the record is as completed as before. -/
theorem Progress.same (h : Progress r db cs) (hi : PoolInv db')
    (hd : (db'.requests r).valid = true → (db'.requests r).completed = false →
      (db.requests r).valid = true ∧ (db.requests r).completed = false) : Progress r db' (cs ++ []) := by
  rw [List.append_nil]
  exact ⟨hi, h.once, fun hv hc => (hd hv hc).elim h.failed⟩

/-- A command is given where the record is not completed. -/
theorem Progress.command (h : Progress r db cs) (hi : PoolInv db') (hv : (db.requests r).valid = true)
    (hc : (db.requests r).completed = false) {c : Command}
    (hd : (db'.requests r).valid = true → (db'.requests r).completed = false → c.reply.ret ≠ 0) :
    Progress r db' (cs ++ [c]) := by
  refine ⟨hi, .snoc (h.failed hv hc) c, fun hv' hc' c' hmem => ?_⟩
  rcases List.mem_append.mp hmem with hmem | hmem
  · exact h.failed hv hc c' hmem
  · rw [List.mem_singleton.mp hmem]
    exact hd hv' hc'

theorem test_progress (h : Progress r w.db cs) (hnil : commands w.trace = []) {size : Option U32} {d : Done}
    (he : test .std E w (handleOf r) size = .ok (d, w')) : Progress r w'.db (cs ++ commands w'.trace) := by
  have hi : PoolInv w'.db := (test_effect he).inv h.inv
  cases test_cases he with
  | refused => rw [hnil]; exact h.same hi fun hv hc => ⟨hv, hc⟩
  | ended => rw [hnil]; exact h.same hi fun hv hc => ⟨hv, hc⟩
  | pending q t d w' hq hv hc _ hne _ _ hdb htr =>
    obtain rfl := handleOf_inj hq
    rw [htr, hnil, List.nil_append]
    exact h.command hi hv hc fun _ _ => truncated_ne hne
  | done q t d w' sz hq hv hc _ _ _ hdb htr =>
    obtain rfl := handleOf_inj hq
    rw [htr, hnil, List.nil_append]
    refine h.command hi hv hc ?_
    intro _ hcomp
    rw [hdb, setRequest_same] at hcomp
    cases hcomp

theorem wait_progress (h : Progress r w.db cs) (hnil : commands w.trace = []) {size : Option U32} {timeout : U32}
    {d : Done} (he : wait .std E w (handleOf r) size timeout = .ok (d, w'))
    (hg : ∀ t, (w.db.requests r).completed = false → completionTarget .std E w.db (w.db.requests r) = .ok (some t) →
      (waitCommand E t (w.db.requests r) timeout).reply.ret = 0 → (reserved w.db).card < maxRequests) :
    Progress r w'.db (cs ++ commands w'.trace) := by
  have hi : PoolInv w'.db := (wait_effect he).inv h.inv
  cases wait_cases he with
  | refused => rw [hnil]; exact h.same hi fun hv hc => ⟨hv, hc⟩
  | gone => rw [hnil]; exact h.same hi fun hv hc => ⟨hv, hc⟩
  | already q d w' hq hv hc _ _ hdb htr =>
    obtain rfl := handleOf_inj hq
    rw [htr, hnil]
    refine h.same hi ?_
    intro hv' hc'
    rw [hdb] at hv' hc'
    rw [dropped_record hv', hc] at hc'
    cases hc'
  | failed q t d w' hq hv hc _ hne _ _ hdb htr =>
    obtain rfl := handleOf_inj hq
    rw [htr, hnil, List.nil_append]
    exact h.command hi hv hc fun _ _ => truncated_ne hne
  | done q t d w' rec hq hv hc ht _ _ hrec hdb htr =>
    obtain rfl := handleOf_inj hq
    rw [htr, hnil, List.nil_append]
    refine h.command hi hv hc ?_
    intro hv' _ hret
    -- a successful wait that may release does
    rw [hdb, dropped_valid h.inv rec (hg t hc ht hret)] at hv'
    cases hv'

end

/-- A later call, while the slot is reserved. -/
theorem CallStep.progress {l : CallRec} {r : Req} {cs : List Command} (hs : CallStep db l db')
    (hv : (db.requests r).valid = true) (hg : Once db l) (h : Progress r db cs) :
    Progress r db' (cs ++ onBehalf r l) := by
  by_cases hh : l.call.handle = some (handleOf r)
  · rw [onBehalf, if_pos hh]
    have hon := hs.on_request hh
    obtain ⟨rfl, rfl, ht, -⟩ := hs
    have hnil : commands l.before.trace = [] := by rw [ht]; rfl
    rcases hon with ⟨size, d, -, -, hx⟩ | ⟨size, timeout, d, hc, -, hx⟩
    · exact test_progress h hnil hx
    · exact wait_progress h hnil hx fun t hcomp htgt hret => hg r size timeout t hc hcomp htgt hret
  · rw [onBehalf, if_neg hh]
    have he := (call_effect hs).frame h.inv hv hh
    exact h.same (CallStep.inv hs h.inv) fun hv' hc' => by rw [he] at hv' hc'; exact ⟨hv', hc'⟩

/-- A call while slot `r` stays reserved. -/
def Held (r : Req) (db : Database) (l : CallRec) : Prop := (db.requests r).valid = true ∧ Once db l

/-- From the call that reserves slot `r` until it is released, a command given on behalf
    of that reservation and followed by another one has not succeeded. -/
theorem reservation_completes_once (h : Live db) {r : Req} {s0 : CallRec} {db0 : Database} (h0 : CallStep db s0 db0)
    (hfree : (db.requests r).valid = false) (hres : (db0.requests r).valid = true) {ls : List CallRec}
    (hrun : Lts.Run (Lts.Guarded CallStep (Held r)) db0 ls db') :
    OneSuccess (s0.commands ++ ls.flatMap (onBehalf r)) := by
  have hp : Progress r db' (s0.commands ++ ls.flatMap (onBehalf r)) :=
    hrun.accumulates (fun _ h hs => hs.2.progress hs.1.1 hs.1.2 h) (first_progress h.inv h0 hfree hres)
  exact hp.once

/-! ### The last slot -/

instance (cs : List Command) : Decidable (OneSuccess cs) := inferInstanceAs (Decidable (List.Pairwise _ _))

/-- Node 0 asks once more when `n` requests are reserved, and waits on what it gets. -/
def asks : Call := .endpointGetI 0 7 5 4096 (some 0)
def askOnce (n : Nat) : CallRec := asks.record notYet (asked n)
def firstWait (r : Req) (n : Nat) : CallRec := (waitOn r).record willing (asks.after notYet (asked n))
def secondWait (r : Req) (n : Nat) : CallRec :=
  (waitOn r).record willing ((waitOn r).after willing (asks.after notYet (asked n)))

/-- With room in the pool, the wait completes the request and that is all. -/
theorem first_completes_once : OneSuccess ((askOnce 0).commands ++ [firstWait 0 0].flatMap (onBehalf 0)) := by
  have hn : (reserved (asks.after notYet (asked 0))).card < maxRequests := by decide +kernel
  exact reservation_completes_once (r := 0) (asked_live 0) (record_step rfl) rfl rfl
    (.single ⟨⟨rfl, fun _ _ _ _ _ _ _ _ => hn⟩, record_step rfl⟩)

/-- With the pool full, two waits on the last request both succeed. -/
theorem full_pool_completes_twice :
    ¬ ∀ db, Live db → ∀ s0 db0, CallStep db s0 db0 → ∀ r, (db.requests r).valid = false →
      (db0.requests r).valid = true → ∀ ls db',
      Lts.Run (Lts.Guarded CallStep fun db _ => (db.requests r).valid = true) db0 ls db' →
      OneSuccess (s0.commands ++ ls.flatMap (onBehalf r)) := by
  intro h
  have h0 : CallStep (asked 63) (askOnce 63) (asks.after notYet (asked 63)) := record_step (by decide +kernel)
  have h1 : CallStep _ (firstWait 63 63) _ := record_step (by decide +kernel)
  have h2 : CallStep _ (secondWait 63 63) _ := record_step (by decide +kernel)
  have hone := h _ (asked_live 63) _ _ h0 63 (by decide +kernel) (by decide +kernel) _ _
    (.cons ⟨by decide +kernel, h1⟩ (.single ⟨by decide +kernel, h2⟩))
  exact absurd hone (by decide +kernel)

end Mcapi
