/-
  Mcapi.Names — from the name of an endpoint to its handle, and from the handle to the
  driver.

  A get hands out the handle of the name it was given, whether it returns it, stores it
  at once or leaves that to the test or wait that completes it (`Obtains.handle`): a
  pending request keeps its name for as long as it is reserved. A send gives the driver
  the port and the node that its handle names (`send_names`). So a message goes to the
  name the handle was obtained for, as far as that fits a handle
  (`obtained_handle_carries`): the domain is not in it, and of a node id and a port id
  only the low 8 and 16 bits are (`names_collide`).
-/

import Mcapi.Sends

namespace Mcapi

variable {E : Env} {w w' : World} {db db' : Database}

/-! ## What the gets store -/

@[simp] theorem record_answer (locals : Locals) (ret : Int) (pkt : SmPacket) (d : RequestData) (i : Issuer) :
    (i.record locals ret pkt d).answer = i.answer := by
  cases i <;> rfl

theorem SameOperation.answer {d d' : RequestData} (h : SameOperation d d') : d'.answer = d.answer := by
  obtain ⟨x, y, rfl⟩ := h
  rfl

/-- An issuing call stores its own answer, or nothing. -/
theorem issue_stores {i : Issuer} {q : Option U32} {x : Issue} (h : i.exec .std E w q = .ok (x, w'))
    (hn : stores w.trace = []) {s : U32 × U32} (hs : s ∈ stores w'.trace) : s ∈ i.answer := by
  cases issue_cases h with
  | refused => rw [hn] at hs; cases hs
  | found w' _ _ _ hst => rwa [hst, hn] at hs
  | limit => rw [hn] at hs; cases hs
  | missing => dsimp only at hs; rw [hn] at hs; cases hs
  | noBuffer id w' _ _ _ _ _ hst => rw [hst, hn] at hs; cases hs
  | command id c p w' _ _ _ _ _ hst =>
    rw [hst, hn, List.nil_append] at hs
    split at hs
    · exact hs
    · cases hs

/-- A pending get has left its answer to the record. -/
theorem pending_answer {i : Issuer} {q : Option U32} {x : Issue} {r : Req} (h : i.exec .std E w q = .ok (x, w'))
    (hx : x.status = .pending) (hr : x.request = some (handleOf r)) : (w'.db.requests r).answer = i.answer := by
  cases issue_cases h with
  | refused => cases hx
  | found => cases hx
  | limit => cases hx
  | missing => cases hx
  | noBuffer id w' _ _ _ hdb =>
    obtain rfl : id = r := handleOf_inj (Option.some.inj hr)
    rw [hdb, Issuer.filled, setRequest_same, record_answer]
  | command id c p w' _ _ _ hdb =>
    obtain rfl : id = r := handleOf_inj (Option.some.inj hr)
    rw [hdb, Issuer.filled, setRequest_same, record_answer]

/-- A test or wait stores the answer of its request, which is reserved, or nothing. -/
theorem completion_stores {l : CallRec} {r : Req} (hs : CallStep db l db') (hh : l.call.handle = some (handleOf r))
    {s : U32 × U32} (hmem : s ∈ l.stores) : (db.requests r).valid = true ∧ s ∈ (db.requests r).answer := by
  have hon := hs.on_request hh
  obtain ⟨rfl, rfl, ht, -⟩ := hs
  have hn : stores l.before.trace = [] := by rw [ht]; rfl
  unfold CallRec.stores at hmem
  generalize l.after = w' at hon hmem
  rcases hon with ⟨size, d, -, -, hx⟩ | ⟨size, timeout, d, -, -, hx⟩
  · cases test_cases hx with
    | refused => rw [hn] at hmem; cases hmem
    | ended => rw [hn] at hmem; cases hmem
    | pending _ _ _ _ _ _ _ _ _ _ _ _ _ hst => rw [hst, hn] at hmem; cases hmem
    | done q _ _ _ _ hq hv _ _ _ _ _ _ hst =>
      obtain rfl := handleOf_inj hq
      rw [hst, hn] at hmem
      exact ⟨hv, hmem⟩
  · cases wait_cases hx with
    | refused => rw [hn] at hmem; cases hmem
    | gone => rw [hn] at hmem; cases hmem
    | already _ _ _ _ _ _ _ _ _ _ hst => rw [hst, hn] at hmem; cases hmem
    | failed _ _ _ _ _ _ _ _ _ _ _ _ _ hst => rw [hst, hn] at hmem; cases hmem
    | done q _ _ _ _ hq hv _ _ _ _ _ _ _ hst =>
      obtain rfl := handleOf_inj hq
      rw [hst, hn] at hmem
      exact ⟨hv, hmem⟩

/-- The blocking get returns the handle of its name. -/
theorem get_returns {d n p t h : U32} (hx : endpointGet .std E w d n p t = .ok ((h, .success), w')) :
    h = endpointHandle n p := by
  simp only [endpointGet, transValidNode, transValidPort, transEndpointGet, Bool.not_true, Bool.false_eq_true,
    if_false] at hx
  obtain ⟨k, -, hx⟩ := bind_eq_ok.mp hx
  cases k with
  | some k => cases hx; rfl
  | none =>
    dsimp only at hx
    split at hx
    · simp only [Except.ok.injEq, Prod.mk.injEq] at hx
      obtain ⟨⟨-, hst⟩, -⟩ := hx
      split at hst <;> cases hst
    · cases hx; rfl

/-! ## Obtaining a handle -/

/-- The name `<dom, n, p>` obtains the handle `h`, in a run that ends with this database:
    from the blocking get, from the other one at once, or from a test or wait that
    completes it while its request is still reserved. -/
inductive Obtains (dom n p h : U32) : Database → Prop
  | returned (t : U32) (l : CallRec) (db db' : Database) : Reached db → CallStep db l db' →
      l.call = .endpointGet dom n p t → l.ret = .value h .success → Obtains dom n p h db'
  | atOnce (e : U32) (q : Option U32) (x : Issue) (l : CallRec) (db db' : Database) : Reached db → CallStep db l db' →
      l.call = .endpointGetI dom n p e q → l.ret = .issue x → x.status = .success → (e, h) ∈ l.stores →
      Obtains dom n p h db'
  | completed (e : U32) (q : Option U32) (x : Issue) (r : Req) (d : Done) (l m : CallRec) (ls : List CallRec)
      (db db0 db1 db2 : Database) : Reached db → CallStep db l db0 → l.call = .endpointGetI dom n p e q →
      l.ret = .issue x → x.status = .pending → x.request = some (handleOf r) →
      Lts.Run (Lts.Guarded CallStep (Reserves r)) db0 ls db1 → CallStep db1 m db2 →
      m.call.handle = some (handleOf r) → m.ret = .done d → d.status = .success → (e, h) ∈ m.stores →
      Obtains dom n p h db2

theorem Obtains.handle {dom n p h : U32} (ho : Obtains dom n p h db) : h = endpointHandle n p := by
  cases ho with
  | returned t l db0 _ _ hs hc hr =>
    obtain ⟨-, -, -, hx⟩ := hs
    rw [hc, hr] at hx
    obtain ⟨⟨⟨v, st⟩, w1⟩, hg, hx⟩ := bind_eq_ok.mp hx
    cases hx
    exact get_returns hg
  | atOnce e q x l db0 _ _ hs hc hr hst hmem =>
    obtain ⟨-, -, ht, hx⟩ := hs
    rw [hc] at hx
    obtain ⟨y, -, hx⟩ := issue_exec (i := .endpointGetI dom n p e) hx
    have ha := issue_stores hx (by rw [ht]; rfl) hmem
    simpa [Issuer.answer] using ha
  | completed e q x r d l m ls db0 db1 db2 _ h0 hs hc hr hst hreq hrun hm hh _ _ hmem =>
    obtain ⟨hv, ha⟩ := completion_stores hm hh hmem
    have hsame := sameOperation_run (CallStep.inv hs h0.inv) hrun hv
    obtain ⟨rfl, rfl, -, hx⟩ := hs
    rw [hc, hr] at hx
    obtain ⟨y, hy, hx⟩ := issue_exec (i := .endpointGetI dom n p e) hx
    cases hy
    rw [hsame.answer, pending_answer hx hst hreq] at ha
    simpa [Issuer.answer] using ha

/-! ## Sending to a handle -/

/-- The receive endpoint of a send. -/
def Call.sendsTo : Call → Option U32
  | .msgSend _ r _ _ _ => some r
  | .msgSendI _ r _ _ _ _ => some r
  | _ => none

theorem sendPkt_names (k : Slot) (r b n : U32) : Names r (sendPkt k r b n).dstCpu (sendPkt k r b n).remoteEp :=
  ⟨rfl, rfl⟩

theorem transMsgSend_commands {s r b n : U32} {st : Status} (h : transMsgSend .std E w s r b n = .ok (st, w'))
    (hn : commands w.trace = []) : ∀ c ∈ commands w'.trace, c.cmd = .send ∧ Names r c.pkt.dstCpu c.pkt.remoteEp := by
  have h' := h
  unfold transMsgSend at h'
  obtain ⟨k, hk, h'⟩ := bind_eq_ok.mp h'
  cases k with
  | none =>
    cases h'
    rw [hn]
    exact List.forall_mem_nil _
  | some k =>
    obtain ⟨st1, w1, he, htr⟩ := transMsgSend_some (E := E) hk r b n
    cases h.symm.trans he
    intro c hc
    rw [htr, hn, List.nil_append, List.mem_singleton] at hc
    subst hc
    exact ⟨rfl, sendPkt_names k r b n⟩

theorem msgSendI_commands {s r b n p : U32} {q : Option U32} {x : Issue}
    (h : (Issuer.msgSendI s r b n p).exec .std E w q = .ok (x, w')) (hn : commands w.trace = []) :
    ∀ c ∈ commands w'.trace, c.cmd = .send ∧ Names r c.pkt.dstCpu c.pkt.remoteEp := by
  have none_given : commands w'.trace = commands w.trace →
      ∀ c ∈ commands w'.trace, c.cmd = .send ∧ Names r c.pkt.dstCpu c.pkt.remoteEp := by
    intro h0
    rw [h0, hn]
    exact List.forall_mem_nil _
  cases issue_cases h with
  | refused => exact none_given rfl
  | found _ _ _ htr => exact none_given htr
  | limit => exact none_given rfl
  | missing => exact none_given rfl
  | noBuffer _ _ _ _ _ _ htr => exact none_given htr
  | command id cmd pkt w' _ _ hr _ htr =>
    obtain ⟨k, -, hr⟩ := bind_eq_ok.mp hr
    cases k with
    | none => cases hr
    | some k =>
      cases hr
      intro c hc
      rw [htr, hn, List.nil_append, List.mem_singleton] at hc
      subst hc
      exact ⟨rfl, sendPkt_names k r b n⟩

/-- What a send gives the driver is a SEND to the port and node that its handle names. -/
theorem send_names {l : CallRec} {h : U32} (hs : CallStep db l db') (ht : l.call.sendsTo = some h) :
    ∀ c ∈ l.commands, c.cmd = .send ∧ Names h c.pkt.dstCpu c.pkt.remoteEp := by
  obtain ⟨-, -, htr, hx⟩ := hs
  have hn : commands l.before.trace = [] := by rw [htr]; rfl
  unfold CallRec.commands
  cases hc : l.call with
  | msgSend s r b n p =>
    rw [hc] at ht hx
    cases ht
    obtain ⟨⟨st, w1⟩, hsend, hx⟩ := bind_eq_ok.mp hx
    have hw : w1 = l.after := by
      simp only [Except.ok.injEq, Prod.mk.injEq] at hx
      exact hx.2
    rw [← hw]
    obtain ⟨v, -, hsend⟩ := bind_eq_ok.mp hsend
    split at hsend
    · cases hsend
      rw [hn]
      exact List.forall_mem_nil _
    · exact transMsgSend_commands hsend hn
  | msgSendI s r b n p q =>
    rw [hc] at ht hx
    cases ht
    obtain ⟨y, -, hx⟩ := issue_exec (i := .msgSendI s h b n p) hx
    exact msgSendI_commands hx hn
  | _ => rw [hc] at ht; cases ht

/-! ## From a name to the driver -/

/-- From `db` on, every send to `h` that reaches the driver carries port `p` and node `n`. -/
def SendsCarry (db : Database) (h n p : U32) : Prop :=
  ∀ db1, Lts.Reachable CallStep db db1 → ∀ l db2, CallStep db1 l db2 → l.call.sendsTo = some h →
    ∀ c ∈ l.commands, c.cmd = .send ∧ c.pkt.remoteEp = p ∧ c.pkt.dstCpu = n

/-- A handle obtained for a name carries the low 16 bits of its port and the low 8 bits of
    its node, whatever the domain; two names obtain one handle exactly when these are the
    same; and a node below 256 and a port below 65536 are all of themselves. -/
theorem obtained_handle_carries {dom n p h : U32} (ho : Obtains dom n p h db) :
    SendsCarry db h (nodeField n) (portField p) ∧
    (∀ dom' n' p' h' db', Obtains dom' n' p' h' db' →
      (h' = h ↔ nodeField n' = nodeField n ∧ portField p' = portField p)) ∧
    ((n.toNat < 256 → nodeField n = n) ∧ (p.toNat < 65536 → portField p = p)) := by
  have hh := ho.handle
  refine ⟨?_, ?_, nodeField_of_lt, portField_of_lt⟩
  · intro db1 _ l db2 hs ht c hc
    obtain ⟨hcmd, hnames⟩ := send_names hs ht c hc
    rw [hh] at hnames
    obtain ⟨hn, hp⟩ := hnames.unique (endpointHandle_names n p)
    exact ⟨hcmd, hp, hn⟩
  · intro dom' n' p' h' db' ho'
    rw [ho'.handle, hh]
    exact endpointHandle_eq_iff

/-! ### Some names -/

/-- A pending get of port 5 of node 7, and the test that completes it. -/
def askSeven : CallRec := (Call.endpointGetI 0 7 5 4096 (some 0)).record notYet (initialised 0 0 none)
def testSeven : CallRec := (Call.test 0 (some 0)).record willing askSeven.after.db

theorem seven_obtains : Obtains 0 7 5 (endpointHandle 7 5) testSeven.after.db :=
  .completed 4096 (some 0) ⟨some 0, .pending⟩ 0 ⟨true, some 0, .success⟩ askSeven testSeven []
    (initialised 0 0 none) _ _ _ (Live.reached ⟨0, 0, none, .refl _⟩) (record_step rfl) rfl rfl rfl rfl
    (.nil _) (record_step rfl) rfl rfl rfl (by decide)

/-- What is sent to the handle of port 5 of node 7 goes there. -/
theorem seven_carries : SendsCarry testSeven.after.db (endpointHandle 7 5) 7 5 :=
  (obtained_handle_carries seven_obtains).1

/-- Node 0 gets the endpoint of port 5 of node `n`, under domain `dom`. -/
def getPort (dom n : U32) : CallRec := (Call.endpointGet dom n 5 10).record willing onePort

theorem getPort_obtains (dom n : U32)
    (hx : ((Call.endpointGet dom n 5 10).exec .std willing { db := onePort }).isOk = true)
    (hr : (getPort dom n).ret = .value (endpointHandle n 5) .success) :
    Obtains dom n 5 (endpointHandle n 5) (getPort dom n).after.db := by
  have hc : (getPort dom n).call = .endpointGet dom n 5 10 := by
    unfold getPort Call.record
    split <;> rfl
  exact .returned 10 _ onePort _ onePort_live.reached (record_step hx) hc hr

/-- It sends to what it got for node 257. -/
def send257 : CallRec :=
  (Call.msgSend (endpointHandle 0 5) (endpointHandle 257 5) 4096 4 0).record willing (getPort 0 257).after.db

/-- Two domains get one handle, and what is sent to node 257 goes to node 1. -/
theorem names_collide :
    (¬ ∀ dom n p dom' n' p' h db db', Obtains dom n p h db → Obtains dom' n' p' h db' →
      dom = dom' ∧ n = n' ∧ p = p') ∧
    ¬ ∀ dom n p h db, Obtains dom n p h db → SendsCarry db h n p := by
  refine ⟨?_, ?_⟩
  · intro h
    have h01 := h 0 0 5 1 0 5 _ _ _ (getPort_obtains 0 0 rfl rfl) (getPort_obtains 1 0 rfl rfl)
    exact absurd h01.1 (by decide)
  · intro h
    have hs : CallStep (getPort 0 257).after.db send257 send257.after.db := record_step rfl
    have hc := h 0 257 5 _ _ (getPort_obtains 0 257 rfl rfl) _ (.refl _) _ _ hs rfl
      ⟨.send, sendPkt 1 (endpointHandle 257 5) 4096 4, ⟨0, 0, sendPkt 1 (endpointHandle 257 5) 4096 4, {}⟩⟩ (by decide)
    exact absurd hc.2.2 (by decide)

end Mcapi
