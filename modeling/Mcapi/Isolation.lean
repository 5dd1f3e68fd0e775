/-
  Mcapi.Isolation — outstanding requests do not meet.

  Test and wait work on the record of their request and on no other. What a receive was
  given stays in its record: a poll copies the length into the packet, and what the
  driver writes back reaches the record only with a command that is taken for a success
  (`Command.Taken`). So until then every WAIT carries the buffer and the length of the
  receive (`WaitsWith`). What an endpoint get was given stays there too, and its first
  completion stores its own handle through its own pointer (`Answers`).

  - `requests_isolated`: the three of them, in every run of calls.
-/

import Mcapi.Ownership
import Mcapi.AtMostOnce
import Mcapi.Names

namespace Mcapi

variable {E : Env} {w w' : World} {db db' : Database} {r : Req}

/-! ## Receives -/

/-- The library takes the command for a success: of a WAIT's value it looks at the low
    eight bits. -/
def Command.Taken (c : Command) : Prop :=
  if c.cmd = .wait then truncated c.reply.ret = 0 else c.reply.ret = 0

instance (c : Command) : Decidable c.Taken := by unfold Command.Taken; infer_instance

theorem waitCommand_taken {t : Target} {d : RequestData} {timeout : U32} :
    (waitCommand E t d timeout).Taken ↔ truncated (waitCommand E t d timeout).reply.ret = 0 := Iff.rfl

/-- Request `r` is one into buffer `b`, and of `n` bytes as long as it is not completed. -/
structure Receives (r : Req) (b n : U32) (db : Database) : Prop where
  inv : PoolInv db
  buffer : (db.requests r).valid = true → (db.requests r).buffer = b
  size : (db.requests r).valid = true → (db.requests r).completed = false → (db.requests r).size = n

/-- A wait on an uncompleted request that succeeds has had its WAIT taken for a success. -/
theorem wait_success_taken {size : Option U32} {timeout : U32} {d : Done} {t : Target}
    (hr : (w.db.requests r).valid = true) (hc : (w.db.requests r).completed = false)
    (ht : completionTarget .std E w.db (w.db.requests r) = .ok (some t))
    (h : wait .std E w (handleOf r) size timeout = .ok (d, w')) (hd : d.status = .success) :
    (waitCommand E t (w.db.requests r) timeout).Taken := by
  cases size with
  | none => cases h; cases hd
  | some sz => ?_
  rw [waitCommand_taken]
  by_contra hret
  have hv : ¬ (Build.std.asserts && !transValidRequestHandle w.db (handleOf r)) = true := by simp [hr]
  simp only [wait, transValidSizeParam, validRequestHandle_handleOf, hr, Option.isSome_some, Bool.not_true,
    Bool.false_eq_true, if_false] at h
  rw [transWait, if_neg hv, requestSlot_handleOf, ok_bind] at h
  dsimp only at h
  rw [ht, ok_bind] at h
  simp only [hc, Bool.false_eq_true, if_false, Option.map_some, smWaitNonblocking_eq, hret, ne_eq, not_false_eq_true,
    if_true] at h
  rw [dropRequest_valid (by simpa using hr)] at h
  cases h
  exact ite_ne (x := Status.timeout) (y := .errGeneral) (z := .success) (by decide) (by decide) hd

/-- What the driver is given on behalf of a request is one WAIT, on what its handle leads
    to, while it is pending. -/
theorem onBehalf_wait {l : CallRec} (hs : CallStep db l db') : onBehalf r l = [] ∨
    ∃ t timeout, (db.requests r).valid = true ∧ (db.requests r).completed = false ∧
      completionTarget .std l.env db (db.requests r) = .ok (some t) ∧
      onBehalf r l = [waitCommand l.env t (db.requests r) timeout] := by
  by_cases hh : l.call.handle = some (handleOf r)
  · rw [onBehalf, if_pos hh]
    have hon := hs.on_request hh
    obtain ⟨rfl, rfl, ht, -⟩ := hs
    have hnil : commands l.before.trace = [] := by rw [ht]; rfl
    unfold CallRec.commands
    generalize l.after = w' at hon ⊢
    rcases hon with ⟨size, d, -, -, hx⟩ | ⟨size, timeout, d, -, -, hx⟩
    · cases test_cases hx with
      | refused => exact .inl hnil
      | ended => exact .inl hnil
      | pending q t d w' hq hv hc htgt _ _ _ _ htr =>
        obtain rfl := handleOf_inj hq
        exact .inr ⟨t, 0, hv, hc, htgt, by rw [htr, hnil]; rfl⟩
      | done q t d w' sz hq hv hc htgt _ _ _ htr =>
        obtain rfl := handleOf_inj hq
        exact .inr ⟨t, 0, hv, hc, htgt, by rw [htr, hnil]; rfl⟩
    · cases wait_cases hx with
      | refused => exact .inl hnil
      | gone => exact .inl hnil
      | already q d w' _ _ _ _ _ _ htr => exact .inl (by rw [htr, hnil])
      | failed q t d w' hq hv hc htgt _ _ _ _ htr =>
        obtain rfl := handleOf_inj hq
        exact .inr ⟨t, timeout, hv, hc, htgt, by rw [htr, hnil]; rfl⟩
      | done q t d w' rec hq hv hc htgt _ _ _ _ htr =>
        obtain rfl := handleOf_inj hq
        exact .inr ⟨t, timeout, hv, hc, htgt, by rw [htr, hnil]; rfl⟩
  · exact .inl (if_neg hh)

/-- A request that is reserved and pending after a call was pending before, and its record
    is as it was, unless a command was taken for a success. -/
theorem pending_kept (hi : PoolInv db) {l : CallRec} (hs : CallStep db l db') (hv : (db.requests r).valid = true)
    (hv' : (db'.requests r).valid = true) (hc' : (db'.requests r).completed = false) :
    (db.requests r).completed = false ∧ ((∀ c ∈ onBehalf r l, ¬ c.Taken) → db'.requests r = db.requests r) := by
  have unchanged (h : db'.requests r = db.requests r) : (db.requests r).completed = false ∧
      ((∀ c ∈ onBehalf r l, ¬ c.Taken) → db'.requests r = db.requests r) := ⟨by rwa [h] at hc', fun _ => h⟩
  by_cases hh : l.call.handle = some (handleOf r)
  · have hon := hs.on_request hh
    rw [onBehalf, if_pos hh] at unchanged ⊢
    obtain ⟨rfl, rfl, -, -⟩ := hs
    unfold CallRec.commands at unchanged ⊢
    generalize l.after = w' at hon hv' hc' unchanged ⊢
    rcases hon with ⟨size, d, -, -, hx⟩ | ⟨size, timeout, d, -, -, hx⟩
    · cases test_cases hx with
      | refused => exact unchanged rfl
      | ended => exact unchanged rfl
      | pending q t d w' _ _ _ _ _ _ _ hdb => exact unchanged (by rw [hdb])
      | done q t d w' sz hq _ _ _ _ _ hdb =>
        obtain rfl := handleOf_inj hq
        rw [hdb, setRequest_same] at hc'
        cases hc'
    · cases wait_cases hx with
      | refused => exact unchanged rfl
      | gone => exact unchanged rfl
      | already q d w' hq _ _ _ _ hdb =>
        obtain rfl := handleOf_inj hq
        rw [hdb] at hv'
        exact unchanged (by rw [hdb]; exact dropped_record hv')
      | failed q t d w' hq _ _ _ _ _ _ hdb =>
        obtain rfl := handleOf_inj hq
        rw [hdb] at hv'
        exact unchanged (by rw [hdb]; exact dropped_record hv')
      | done q t d w' rec hq _ hc htgt _ hst _ _ htr =>
        obtain rfl := handleOf_inj hq
        refine ⟨hc, fun hno => ?_⟩
        refine absurd (wait_success_taken hv hc htgt hx hst) (hno _ ?_)
        rw [htr]
        exact List.mem_append_right _ List.mem_cons_self
  · exact unchanged ((call_effect hs).frame hi hv hh)

section
variable {b n : U32}

theorem waitCommand_receives {t : Target} {d : RequestData} {timeout : U32} (hb : d.buffer = b) (hn : d.size = n) :
    ∀ c ∈ [waitCommand E t d timeout], c.cmd = .wait ∧ c.pkt.buf = b ∧ c.pkt.bufLen = n := by
  intro c hc
  rw [List.mem_singleton.mp hc]
  exact ⟨rfl, hb, hn⟩

/-- What a call gives the driver on behalf of the request, and what it leaves. -/
theorem Receives.step (h : Receives r b n db) {l : CallRec} (hs : CallStep db l db') :
    (∀ c ∈ onBehalf r l, c.cmd = .wait ∧ c.pkt.buf = b ∧ c.pkt.bufLen = n) ∧
      ((db.requests r).valid = true → (∀ c ∈ onBehalf r l, ¬ c.Taken) → Receives r b n db') := by
  constructor
  · rcases onBehalf_wait (r := r) hs with hnil | ⟨t, timeout, hv, hc, -, heq⟩
    · rw [hnil]
      exact List.forall_mem_nil _
    · rw [heq]
      exact waitCommand_receives (h.buffer hv) (h.size hv hc)
  · intro hv hno
    refine ⟨CallStep.inv hs h.inv, ?_, ?_⟩
    · intro hv'
      obtain ⟨completed, size, hrec⟩ := (call_effect hs).sameOperation h.inv hv hv'
      rw [hrec]
      exact h.buffer hv
    · intro hv' hc'
      obtain ⟨hc, hsame⟩ := pending_kept h.inv hs hv hv' hc'
      rw [hsame hno]
      exact h.size hv hc

/-- From `db` on, while request `r` is reserved and none of the commands on its behalf
    was taken for a success, each of them is a WAIT with this buffer and length. -/
def WaitsWith (r : Req) (b n : U32) (db : Database) : Prop :=
  ∀ ls db1, Lts.Run (Lts.Guarded CallStep (Reserves r)) db ls db1 → (∀ c ∈ ls.flatMap (onBehalf r), ¬ c.Taken) →
    ∀ m db2, CallStep db1 m db2 → ∀ c ∈ onBehalf r m, c.cmd = .wait ∧ c.pkt.buf = b ∧ c.pkt.bufLen = n

theorem Receives.waitsWith (h : Receives r b n db) : WaitsWith r b n db := by
  intro ls db1 hrun hno m db2 hs
  have h1 : Receives r b n db1 := by
    refine hrun.keeps (I := Receives r b n) ?_ h
    intro db1 l db2 hl h1 hstep
    obtain ⟨hv, hs⟩ := hstep
    exact (h1.step hs).2 hv fun c hc => hno c (List.mem_flatMap.mpr ⟨l, hl, hc⟩)
  exact (h1.step hs).1

/-- A receive leaves its own buffer and length in its record, unless it is completed. -/
theorem recv_receives (hi : PoolInv w.db) {e q : U32} {x : Issue}
    (hx : (Issuer.msgRecvI e b n).exec .std E w (some q) = .ok (x, w')) (hf : ¬ Failed x.status)
    (hr : x.request = some (handleOf r)) : Receives r b n w'.db := by
  have hi' : PoolInv w'.db := (issue_effect hx).inv hi
  have hroute : (Issuer.msgRecvI e b n).route w.db ≠ .ok .found := by
    intro h
    obtain ⟨_, _, _, _, h⟩ := route_found h
    cases h
  obtain ⟨id, ret, pkt, hreq, -, hdb⟩ := (issue_cases hx).accepted hroute hf
  obtain rfl : id = r := handleOf_inj (Option.some.inj (hreq.symm.trans hr))
  refine ⟨hi', ?_, ?_⟩
  · intro _
    rw [hdb, Issuer.filled, setRequest_same]
    rfl
  · intro _ hc
    rw [hdb, Issuer.filled, setRequest_same] at hc ⊢
    have hret : ret ≠ 0 := by
      rw [record_completed] at hc
      exact beq_eq_false_iff_ne.mp hc
    show (received E.locals n ret pkt).len = n
    rw [received, if_neg hret]

end

/-! ## Endpoint gets -/

/-- A test or wait that returns `MCAPI_SUCCESS`. -/
def CallRec.Succeeds (l : CallRec) : Prop := ∃ d, l.ret = .done d ∧ d.status = .success

/-- Request `r` is not completed, if it is still reserved. -/
structure Uncompleted (r : Req) (db : Database) : Prop where
  inv : PoolInv db
  flag : (db.requests r).valid = true → (db.requests r).completed = false

/-- Until one of them succeeds, tests and waits leave it uncompleted. -/
theorem Uncompleted.step (h : Uncompleted r db) {l : CallRec} (hs : CallStep db l db')
    (hv : (db.requests r).valid = true) (hno : l.call.handle = some (handleOf r) → ¬ l.Succeeds) :
    Uncompleted r db' := by
  refine ⟨CallStep.inv hs h.inv, fun hv' => ?_⟩
  by_cases hh : l.call.handle = some (handleOf r)
  · have hon := hs.on_request hh
    have hno := hno hh
    obtain ⟨rfl, rfl, -, -⟩ := hs
    unfold CallRec.Succeeds at hno
    rcases hon with ⟨size, d, -, hd, hx⟩ | ⟨size, timeout, d, -, hd, hx⟩
    · generalize l.after = w' at hx hv' ⊢
      cases test_cases hx with
      | refused => exact h.flag hv
      | ended => exact h.flag hv
      | pending q t d w' _ _ _ _ _ _ _ hdb => rw [hdb]; exact h.flag hv
      | done q t d w' sz _ _ _ _ _ hst => exact absurd ⟨d, hd, hst⟩ hno
    · generalize l.after = w' at hx hv' ⊢
      cases wait_cases hx with
      | refused => exact h.flag hv
      | gone => exact h.flag hv
      | already q d w' _ _ _ _ hst => exact absurd ⟨d, hd, hst⟩ hno
      | failed q t d w' hq _ _ _ _ _ _ hdb =>
        obtain rfl := handleOf_inj hq
        rw [hdb] at hv' ⊢
        rw [dropped_record hv']
        exact h.flag hv
      | done q t d w' rec _ _ _ _ _ hst => exact absurd ⟨d, hd, hst⟩ hno
  · rw [(call_effect hs).frame h.inv hv hh]
    exact h.flag hv

/-- The test or wait that completes a request, which is reserved, stores its answer. -/
theorem completing_stores {l : CallRec} (hs : CallStep db l db') (hh : l.call.handle = some (handleOf r))
    (hc : (db.requests r).valid = true → (db.requests r).completed = false) (hst : l.Succeeds) :
    (db.requests r).valid = true ∧ l.stores = (db.requests r).answer := by
  obtain ⟨d, hd, hst⟩ := hst
  have hon := hs.on_request hh
  obtain ⟨rfl, rfl, ht, -⟩ := hs
  have hn : stores l.before.trace = [] := by rw [ht]; rfl
  unfold CallRec.stores
  generalize l.after = w' at hon ⊢
  rcases hon with ⟨size, d', -, hd', hx⟩ | ⟨size, timeout, d', -, hd', hx⟩
  · cases hd.symm.trans hd'
    cases test_cases hx with
    | refused _ h => rcases h with h | h <;> (rw [h] at hst; cases hst)
    | ended q _ hq hv h =>
      obtain rfl := handleOf_inj hq
      rw [(h hst).2] at hc
      cases hc hv
    | pending _ _ _ _ _ _ _ _ _ _ hne => exact absurd hst hne
    | done q _ _ _ _ hq hv _ _ _ _ _ _ htr =>
      obtain rfl := handleOf_inj hq
      rw [htr, hn]
      exact ⟨hv, rfl⟩
  · cases hd.symm.trans hd'
    cases wait_cases hx with
    | refused _ h => rcases h with h | h <;> (rw [h] at hst; cases hst)
    | gone _ _ _ _ _ _ h => rw [h] at hst; cases hst
    | already q _ _ hq hv h =>
      obtain rfl := handleOf_inj hq
      rw [h] at hc
      cases hc hv
    | failed _ _ _ _ _ _ _ _ _ _ h => rcases h with h | h <;> (rw [h] at hst; cases hst)
    | done q _ _ _ _ hq hv _ _ _ _ _ _ _ htr =>
      obtain rfl := handleOf_inj hq
      rw [htr, hn]
      exact ⟨hv, rfl⟩

/-- From `db` on, while request `r` is reserved, tests and waits on it store nothing but
    `h` through `e`, and the first of them that succeeds stores just that. -/
def Answers (r : Req) (e h : U32) (db : Database) : Prop :=
  ∀ ls db1, Lts.Run (Lts.Guarded CallStep (Reserves r)) db ls db1 → ∀ m db2, CallStep db1 m db2 →
    m.call.handle = some (handleOf r) → (∀ s ∈ m.stores, s = (e, h)) ∧
      (m.Succeeds → (∀ l ∈ ls, l.call.handle = some (handleOf r) → ¬ l.Succeeds) → m.stores = [(e, h)])

theorem Uncompleted.answers {e h : U32} (hu : Uncompleted r db) (ha : (db.requests r).answer = [(e, h)]) :
    Answers r e h db := by
  intro ls db1 hrun m db2 hs hh
  have hanswer : (db1.requests r).valid = true → (db1.requests r).answer = [(e, h)] := by
    intro hv
    rw [(sameOperation_run hu.inv hrun hv).answer, ha]
  refine ⟨?_, ?_⟩
  · intro s hmem
    obtain ⟨hv, hmem⟩ := completion_stores hs hh hmem
    rw [hanswer hv] at hmem
    exact List.mem_singleton.mp hmem
  · intro hm hno
    have h1 : Uncompleted r db1 := by
      refine hrun.keeps (I := Uncompleted r) ?_ hu
      intro db1 l db2 hl h1 hstep
      obtain ⟨hv, hs⟩ := hstep
      exact h1.step hs hv (hno l hl)
    obtain ⟨hv, hst⟩ := completing_stores hs hh h1.flag hm
    rw [hst, hanswer hv]

/-- A get that is pending has its record to itself, and nothing stored. -/
theorem pending_get_answers (hi : PoolInv w.db) {d n p e : U32} {q : Option U32} {x : Issue}
    (hx : (Issuer.endpointGetI d n p e).exec .std E w q = .ok (x, w')) (hst : x.status = .pending)
    (hr : x.request = some (handleOf r)) : Answers r e (endpointHandle n p) w'.db := by
  refine Uncompleted.answers ⟨(issue_effect hx).inv hi, fun _ => ?_⟩ (pending_answer hx hst hr)
  cases issue_cases hx with
  | refused => cases hst
  | found => cases hst
  | limit => cases hst
  | missing => cases hst
  | noBuffer id w' _ _ _ hdb =>
    obtain rfl : id = r := handleOf_inj (Option.some.inj hr)
    rw [hdb, Issuer.filled, setRequest_same]
    rfl
  | command id c pkt w' _ _ _ hdb =>
    obtain rfl : id = r := handleOf_inj (Option.some.inj hr)
    rw [hdb, Issuer.filled, setRequest_same, record_completed]
    have hret : (E.drv c pkt).ret ≠ 0 := by
      intro h0
      rw [h0] at hst
      cases hst
    exact beq_eq_false_iff_ne.mpr hret

/-- A get that succeeds at once stores its handle. -/
theorem found_get_stores {d n p e : U32} {q : Option U32} {x : Issue}
    (hx : (Issuer.endpointGetI d n p e).exec .std E w q = .ok (x, w')) (hst : x.status = .success)
    (hnil : stores w.trace = []) : stores w'.trace = [(e, endpointHandle n p)] := by
  cases issue_cases hx with
  | refused => cases hst
  | found w' _ _ _ hs => rw [hs, hnil]; rfl
  | limit => cases hst
  | missing => cases hst
  | noBuffer _ _ _ _ hroute =>
    obtain ⟨k, -, hroute⟩ := bind_eq_ok.mp hroute
    cases k <;> cases hroute
  | command id c pkt w' _ _ _ _ _ hs =>
    have hret : (E.drv c pkt).ret = 0 := by
      by_contra h0
      rw [issueStatus, if_pos h0] at hst
      exact ite_ne (x := Status.pending) (y := .errTransmission) (z := .success) (by decide) (by decide) hst
    rw [hs, hnil, if_pos hret]
    rfl

/-! ## Isolation -/

/-- In every run of calls: a test or wait leaves every other reserved request's record as
    it is; until one of its commands is taken for a success, the WAITs of a receive carry
    its own buffer and length; and an endpoint get that is completed stores its own handle
    through its own pointer, and nothing else. -/
theorem requests_isolated (h : Live db) {l : CallRec} (hs : CallStep db l db') :
    (l.call.handle = some (handleOf r) → ∀ q, q ≠ r → (db.requests q).valid = true →
      db'.requests q = db.requests q) ∧
    (∀ e b n q x, l.call = .msgRecvI e b n (some q) → l.ret = .issue x → ¬ Failed x.status →
      x.request = some (handleOf r) → WaitsWith r b n db') ∧
    ∀ d n p e q x, l.call = .endpointGetI d n p e q → l.ret = .issue x →
      (x.status = .success → l.stores = [(e, endpointHandle n p)]) ∧
      (x.status = .pending → x.request = some (handleOf r) → Answers r e (endpointHandle n p) db') := by
  have hi := h.inv
  refine ⟨?_, ?_, ?_⟩
  · intro hh q hq hv
    exact actsAlone hi r db (.refl db) l db' hs hh q hq hv
  · intro e b n q x hc hret hf hr
    obtain ⟨rfl, rfl, -, hx⟩ := hs
    rw [hc, hret] at hx
    obtain ⟨y, hy, hx⟩ := issue_exec (i := .msgRecvI e b n) hx
    cases hy
    exact (recv_receives hi hx hf hr).waitsWith
  · intro d n p e q x hc hret
    obtain ⟨rfl, rfl, ht, hx⟩ := hs
    rw [hc, hret] at hx
    obtain ⟨y, hy, hx⟩ := issue_exec (i := .endpointGetI d n p e) hx
    cases hy
    exact ⟨fun hst => found_get_stores hx hst (by rw [ht]; rfl), pending_get_answers hi hx⟩

/-- A receive on port 5 that is pending. -/
def recv5 : CallRec := (Call.msgRecvI (endpointHandle 0 5) 4096 8 (some 0)).record notYet onePort

/-- It keeps what it was given, and so does the pending get of port 5 of node 7. -/
theorem pending_isolated :
    WaitsWith 0 4096 8 recv5.after.db ∧ Answers 0 4096 (endpointHandle 7 5) askSeven.after.db := by
  have h5 : CallStep onePort recv5 recv5.after.db := record_step rfl
  have h7 : CallStep (initialised 0 0 none) askSeven askSeven.after.db := record_step rfl
  exact ⟨(requests_isolated onePort_live h5).2.1 _ _ _ _ ⟨some 0, .pending⟩ rfl rfl (by decide) rfl,
    ((requests_isolated ⟨0, 0, none, .refl _⟩ h7).2.2 _ _ _ _ _ ⟨some 0, .pending⟩ rfl rfl).2 rfl rfl⟩

end Mcapi
