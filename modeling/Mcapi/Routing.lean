/-
  Mcapi.Routing — the session a pending request is completed on.

  A request keeps the handle it was issued on, not the session. Test and wait look the
  handle up again by node and port, so they give their WAIT to whatever endpoint has the
  port then. With the endpoint deleted that is none, and no command is given; with
  another created on the port since, it is that one's session
  (`recreated_port_rerouted`).

  - `Steady` are the steps that keep the first endpoint on the request's port while it is
    pending: they put none before it, and do not delete it if there is another.
  - `completed_on_issued_session`: in runs of such steps every WAIT on behalf of the
    request names the session it was issued on, and after that endpoint is deleted there
    are none.
-/

import Mcapi.Isolation
import Mcapi.EndpointRuns
import Mcapi.Lookups

namespace Mcapi

variable {E : Env} {w w' : World} {db db' : Database} {r : Req}

/-! ## The commands of a request -/

/-- The session of a send or receive is that of the endpoint its handle leads to. -/
theorem target_session {d : RequestData} {t : Target} (hd : d.type ≠ .getEndpt)
    (ht : completionTarget .std E db d = .ok (some t)) :
    ∃ k, lookup db d.handle = .ok (some k) ∧ t.index = sessionOf k := by
  unfold completionTarget at ht
  rw [if_pos hd] at ht
  obtain ⟨k, hk, ht⟩ := bind_eq_ok.mp ht
  cases k with
  | none => cases ht
  | some k =>
    cases ht
    exact ⟨k, hk, rfl⟩

/-! ## Issuing a request on an endpoint -/

/-- The handle a send or receive is issued on. -/
def Issuer.endpoint : Issuer → Option U32
  | .msgSendI s _ _ _ _ => some s
  | .msgRecvI r _ _ => some r
  | .endpointGetI .. => none

/-- The call is accepted, with request `r`, on handle `e`, which leads to endpoint `k`. -/
structure IssuedOn (db : Database) (l : CallRec) (r : Req) (e : U32) (k : Slot) : Prop where
  call : ∃ (i : Issuer) (q : Option U32), l.call = i.call q ∧ i.endpoint = some e
  accepted : ∃ x, l.ret = .issue x ∧ ¬ Failed x.status ∧ x.request = some (handleOf r)
  leads : lookup db e = .ok (some k)

/-- A send or receive names, in its command, the session of the endpoint its handle leads
    to. -/
theorem route_session {i : Issuer} {e : U32} {k : Slot} (hi : i.endpoint = some e) (hk : lookup db e = .ok (some k))
    {c : Cmd} {p : SmPacket} (h : i.route db = .ok (.command c p)) : p.sessionIdx = sessionOf k := by
  cases i with
  | msgSendI s r b n p =>
    cases hi
    simp only [Issuer.route, hk, ok_bind] at h
    cases h
    rfl
  | msgRecvI r b n =>
    cases hi
    simp only [Issuer.route, hk, ok_bind] at h
    split at h
    · cases h
    · cases h
      rfl
  | endpointGetI d n p e => cases hi

/-- Its record is one of the handle, and the handle leads where it led. -/
theorem IssuedOn.record {l : CallRec} {e : U32} {k : Slot} (hs : CallStep db l db') (h : IssuedOn db l r e k) :
    (db'.requests r).handle = e ∧ (db'.requests r).type ≠ .getEndpt ∧ db'.domains = db.domains := by
  obtain ⟨i, q, hc, hi⟩ := h.call
  obtain ⟨x, hret, hf, hr⟩ := h.accepted
  obtain ⟨rfl, rfl, -, hx⟩ := hs
  rw [hc, hret] at hx
  obtain ⟨y, hy, hx⟩ := issue_exec hx
  cases hy
  have hroute : i.route l.before.db ≠ .ok .found := by
    intro hfound
    obtain ⟨_, _, _, _, rfl⟩ := route_found hfound
    cases hi
  obtain ⟨id, ret, pkt, hreq, -, hdb⟩ := (issue_cases hx).accepted hroute hf
  obtain rfl : id = r := handleOf_inj (Option.some.inj (hreq.symm.trans hr))
  suffices h : (l.after.db.requests id).handle = e ∧ (l.after.db.requests id).type ≠ .getEndpt from
    ⟨h.1, h.2, issue_domains hx⟩
  rw [hdb, Issuer.filled, setRequest_same]
  cases i with
  | msgSendI s r b n p =>
    have hne : RequestType.send ≠ .getEndpt := by decide
    exact ⟨Option.some.inj hi, hne⟩
  | msgRecvI r b n =>
    have hne : RequestType.recv ≠ .getEndpt := by decide
    exact ⟨Option.some.inj hi, hne⟩
  | endpointGetI d n p e => cases hi

/-- The command it gives is for the session of the endpoint. -/
theorem IssuedOn.session {l : CallRec} {e : U32} {k : Slot} (hs : CallStep db l db') (h : IssuedOn db l r e k) :
    ∀ c ∈ l.commands, c.pkt.sessionIdx = sessionOf k := by
  obtain ⟨i, q, hc, hi⟩ := h.call
  obtain ⟨x, hret, -⟩ := h.accepted
  have hleads := h.leads
  obtain ⟨rfl, rfl, ht, hx⟩ := hs
  have hnil : commands l.before.trace = [] := by rw [ht]; rfl
  rw [hc, hret] at hx
  obtain ⟨y, -, hx⟩ := issue_exec hx
  rcases (issue_cases hx).quiet_or_command with htr | ⟨id, c, p, hr, -, htr⟩
  · rw [CallRec.commands, htr.trans hnil]
    exact List.forall_mem_nil _
  · rw [CallRec.commands, htr, hnil, List.nil_append]
    intro c' hc'
    rw [List.mem_singleton.mp hc']
    exact route_session hi hleads hr

/-! ## Where its handle leads -/

/-- The call deletes endpoint `k`, under a handle of the node of `e`. -/
def Deletes (e : U32) (k : Slot) (l : CallRec) : Prop :=
  ∃ e', l.call = .endpointDelete e' ∧ l.ret = .status .success ∧
    (transDecodeHandleInternal e').nodeId = (transDecodeHandleInternal e).nodeId ∧
    lookup l.before.db e' = .ok (some k)

/-- Request `r` is reserved and, if it is pending, the step keeps the first endpoint on
    the port of handle `e`. -/
def Steady (r : Req) (e : U32) (db : Database) (l : CallRec) : Prop :=
  (db.requests r).valid = true ∧ ((db.requests r).completed = false → KeepsFirst db e l)

/-- Request `r` is one of handle `e` and, while it is pending, the handle leads only to
    endpoints in `P`. -/
structure Routed (r : Req) (e : U32) (P : Slot → Prop) (db : Database) : Prop where
  pool : PoolInv db
  registry : RegistryInv db
  record : (db.requests r).valid = true → (db.requests r).handle = e ∧ (db.requests r).type ≠ .getEndpt
  leads : (db.requests r).valid = true → (db.requests r).completed = false →
    ∀ k, lookup db e = .ok (some k) → P k

variable {e : U32} {k : Slot} {P : Slot → Prop}

theorem Routed.step (h : Routed r e P db) {l : CallRec} (hs : CallStep db l db') (hg : Steady r e db l) :
    Routed r e P db' := by
  obtain ⟨hv, hkeeps⟩ := hg
  refine ⟨CallStep.inv hs h.pool, h.registry.congr hs.table.sameRegistry, ?_, ?_⟩
  · intro hv'
    have hsame := (call_effect hs).sameOperation h.pool hv hv'
    obtain ⟨completed, size, hrec⟩ := hsame
    rw [hrec]
    exact h.record hv
  · intro hv' hc' j hj
    have hc := (pending_kept h.pool hs hv hv' hc').1
    exact h.leads hv hc j ((hkeeps hc).leads h.registry hs hj)

theorem Routed.run (h : Routed r e P db) {ls : List CallRec}
    (hrun : Lts.Run (Lts.Guarded CallStep (Steady r e)) db ls db') : Routed r e P db' :=
  hrun.keeps (I := Routed r e P) (fun _ h1 hstep => h1.step hstep.2 hstep.1) h

/-- Every command on behalf of the request is for an endpoint in `P`. -/
theorem Routed.sessions (h : Routed r e P db) {l : CallRec} (hs : CallStep db l db') :
    ∀ c ∈ onBehalf r l, ∃ k, P k ∧ c.pkt.sessionIdx = sessionOf k := by
  rcases onBehalf_wait (r := r) hs with hnil | ⟨t, timeout, hv, hc, ht, heq⟩
  · rw [hnil]
    exact List.forall_mem_nil _
  · obtain ⟨hhandle, htype⟩ := h.record hv
    obtain ⟨k, hk, hidx⟩ := target_session htype ht
    rw [hhandle] at hk
    intro c hmem
    rw [heq] at hmem
    rw [List.mem_singleton.mp hmem]
    exact ⟨k, h.leads hv hc k hk, hidx⟩

/-- A delete of the endpoint leaves the handle without it. -/
theorem deleted_leads (hr : RegistryInv db) {l : CallRec} (hs : CallStep db l db') (hd : Deletes e k l) :
    lookup db' e ≠ .ok (some k) := by
  obtain ⟨e', hc, hret, hnode, hk⟩ := hd
  obtain ⟨rfl, rfl, -, hx⟩ := hs
  rw [hc, hret] at hx
  generalize l.after = w' at hx ⊢
  obtain ⟨⟨st, w1⟩, hx, heq⟩ := bind_eq_ok.mp hx
  cases heq
  cases delete_cases hx with
  | refused st hne => exact absurd rfl hne
  | deleted i k' w' _ hi hk' hdb _ =>
    obtain rfl : k' = k := by simpa using hk'.symm.trans hk
    have hsame : SameRegistry l.before.db w'.db := by rw [hdb]; exact .setNode rfl rfl
    intro hlook
    obtain ⟨m, hm, hfirst⟩ := (lookup_iff (hr.congr hsame)).mp hlook
    obtain ⟨hi, hnum⟩ := nodeIndex_found hi
    rw [hnode] at hnum
    obtain rfl := (hsame.nodeOf hm).unique hr ⟨hi, hnum⟩
    rw [hdb, setNode_same] at hfirst
    exact (delete_matches.mp hfirst.1).1 rfl

/-! ## Runs -/

/-- After the calls `ls`, what `m` gives the driver on behalf of the request is for the
    session of endpoint `k`, and nothing if one of the calls deleted the endpoint. -/
def CompletesOn (r : Req) (e : U32) (k : Slot) (ls : List CallRec) (m : CallRec) : Prop :=
  (∀ c ∈ onBehalf r m, c.pkt.sessionIdx = sessionOf k) ∧ ((∃ l ∈ ls, Deletes e k l) → onBehalf r m = [])

theorem Routed.gone (h : Routed r e (· = k) db) {ls : List CallRec}
    (hrun : Lts.Run (Lts.Guarded CallStep (Steady r e)) db ls db') (hd : ∃ l ∈ ls, Deletes e k l) :
    Routed r e (fun _ => False) db' := by
  obtain ⟨l, hl, hd⟩ := hd
  obtain ⟨pre, post, rfl⟩ := List.append_of_mem hl
  obtain ⟨db1, hpre, hpost⟩ := hrun.of_append
  cases hpost with
  | cons hstep hpost =>
    have h1 := h.run hpre
    have h2 := h1.step hstep.2 hstep.1
    refine Routed.run ⟨h2.pool, h2.registry, h2.record, fun hv hc j hj => ?_⟩ hpost
    obtain rfl := h2.leads hv hc j hj
    exact deleted_leads h1.registry hstep.2 hd hj

/-- In every run of steps that keep the first endpoint on the port of a pending request,
    the request is completed on the session it was issued on, and not at all once its
    endpoint has been deleted. -/
theorem completed_on_issued_session (h : Reached db) {l : CallRec} (hs : CallStep db l db') (hl : IssuedOn db l r e k)
    {ls : List CallRec} {db1 : Database} (hrun : Lts.Run (Lts.Guarded CallStep (Steady r e)) db' ls db1) {m : CallRec}
    {db2 : Database} (hm : CallStep db1 m db2) : CompletesOn r e k ls m := by
  obtain ⟨hhandle, htype, hdom⟩ := hl.record hs
  have h0 : Routed r e (· = k) db' := by
    refine ⟨CallStep.inv hs h.inv, h.registered.inv.congr (.of_eq hdom), fun _ => ⟨hhandle, htype⟩, fun _ _ j hj => ?_⟩
    rw [lookup_congr hdom, hl.leads] at hj
    simpa using hj.symm
  refine ⟨?_, ?_⟩
  · intro c hc
    obtain ⟨j, rfl, hidx⟩ := (h0.run hrun).sessions hm c hc
    exact hidx
  · intro hd
    refine List.eq_nil_iff_forall_not_mem.mpr ?_
    intro c hc
    obtain ⟨j, hj, -⟩ := (h0.gone hrun hd).sessions hm c hc
    exact hj

/-- With the receive on port 5 pending on session 1, the endpoint is deleted, the port is
    created again, and the receive is tested. -/
def delete5 : CallRec := (Call.endpointDelete (endpointHandle 0 5)).record willing recv5.after.db
def recreate5 : CallRec := (Call.endpointCreate 5).record sessionTwo delete5.after.db
def test5 (db : Database) : CallRec := (Call.test (handleOf 0) (some 0)).record willing db

theorem recv5_issued : IssuedOn onePort recv5 0 (endpointHandle 0 5) 1 :=
  ⟨⟨.msgRecvI (endpointHandle 0 5) 4096 8, some 0, rfl, rfl⟩, ⟨⟨some 0, .pending⟩, rfl, by decide, rfl⟩, rfl⟩

/-- With the endpoint deleted, the test gives no command. -/
theorem deleted_not_completed : CompletesOn 0 (endpointHandle 0 5) 1 [delete5] (test5 delete5.after.db) := by
  have hdelete : CallStep recv5.after.db delete5 delete5.after.db := record_step rfl
  have hfound : lookup recv5.after.db (endpointHandle 0 5) = .ok (some 1) := rfl
  have honly : ∀ j, OnPort recv5.after.db (endpointHandle 0 5) j → j = 1 := by decide +kernel
  have hsteady : Steady 0 (endpointHandle 0 5) recv5.after.db delete5 := by
    refine ⟨rfl, fun _ => ⟨?_, ?_⟩⟩
    · rintro j ⟨p, k, hc, -⟩
      cases hc
    · intro e' k _ _ _ hk
      cases hfound.symm.trans hk
      exact honly
  exact completed_on_issued_session onePort_live.reached (record_step rfl) recv5_issued (.single ⟨hsteady, hdelete⟩)
    (record_step rfl)

/-- With the port created again, it polls the new session. -/
theorem recreated_port_rerouted :
    ¬ ∀ db l db' r e k ls db1 m db2, Reached db → CallStep db l db' → IssuedOn db l r e k →
      Lts.Run (Lts.Guarded CallStep (Reserves r)) db' ls db1 → CallStep db1 m db2 → CompletesOn r e k ls m := by
  intro h
  have hdelete : CallStep recv5.after.db delete5 delete5.after.db := record_step rfl
  have hcreate : CallStep delete5.after.db recreate5 recreate5.after.db := record_step rfl
  have hrun : Lts.Run (Lts.Guarded CallStep (Reserves 0)) recv5.after.db [delete5, recreate5] recreate5.after.db :=
    .cons ⟨rfl, hdelete⟩ (.single ⟨rfl, hcreate⟩)
  have hcompletes := h onePort recv5 _ 0 _ 1 _ _ (test5 recreate5.after.db) _ onePort_live.reached (record_step rfl)
    recv5_issued hrun (record_step rfl)
  have hnone := hcompletes.2 ⟨delete5, List.mem_cons_self, _, rfl, rfl, rfl, rfl⟩
  have hwait : (onBehalf 0 (test5 recreate5.after.db)).map (fun c => c.pkt.sessionIdx) = [2] := rfl
  rw [hnone] at hwait
  cases hwait

end Mcapi
