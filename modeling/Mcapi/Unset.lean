/-
  Mcapi.Unset — where an uninitialised local gets out of the library.

  Two executions of a run of calls differ in what the locals of the library hold when a
  call starts, and in nothing else. Three calls let that out. A create without a domain
  and a get that the driver refuses return their `e`. A non-blocking receive that is not
  delivered at once records `sn` and `se` as its peer, from where a later WAIT takes them
  to the driver. No other call does, on any path. A call that goes past a table does not
  return here, and is no call that does the same in both executions. So two executions of
  a run return the same from every call, for every content of the locals, exactly when
  each call returns and is `Clean` where it is made (`locals_unseen_iff`).
-/

import Mcapi.Refusals
import Mcapi.Faults
import Mcapi.Lib.Hidden

namespace Mcapi

variable {db : Database}

/-! ## A run with given locals -/

/-- One call of a run: how the driver answers it, and the `errno` and flags it finds. -/
structure Input where
  call : Call
  drv : Cmd → SmPacket → Reply
  errno : Int := 0
  fl : U32 := 2

/-- What comes of it: what it returns, and the world it leaves, with its commands and its
    stores in the trace. -/
def Input.run (locals : Locals) (db : Database) (i : Input) : Res (Ret × World) :=
  i.call.exec .std ⟨i.drv, locals⟩ { db := db, errno := i.errno, fl := i.fl }

/-- What comes of each call of a run; `locals n` is what the locals hold at the `n`-th. -/
def outcomes (db : Database) (is : List Input) (locals : Nat → Locals) : List (Res (Ret × World)) :=
  Hidden.outputs Input.run (fun x => x.2.db) db is locals

/-- The call returns. For a create its node is listed, and the driver's session is a slot
    of that which is free. -/
def Input.Returns (db : Database) (i : Input) : Prop :=
  match i.call with
  | .endpointCreate p => (db.domains 0).valid = true →
      ∃ j k, transGetNodeIndex .std db (transGetNodeNum db) = .ok (some j) ∧
        slotOf (i.drv .create (createPkt p)).pkt.sessionIdx = .ok k ∧
        (((db.domains 0).nodes j).endpoints k).valid = false
  | call => ¬ call.Faults ⟨i.drv, {}⟩ db

/-- It returns on no path that reads an uninitialised local: a create has its domain, a
    get has its endpoint here or gets it from the driver, and a non-blocking receive that
    has a request and an endpoint has a message at once. -/
def Input.Unread (db : Database) (i : Input) : Prop :=
  match i.call with
  | .endpointCreate _ => (db.domains 0).valid = true
  | .endpointGet _ n p t => transGetPortIndex .std db n p = .ok none → (i.drv .queryRemoteEp (queryPkt n p t)).ret = 0
  | .msgRecvI e b n q => q ≠ none → db.requestReservesHeader.emptyHeadIndex ≠ none →
      ∀ k, lookup db e = .ok (some k) → b ≠ 0 ∧ (i.drv .recv (recvPkt k b n)).ret = 0
  | _ => True

structure Input.Clean (db : Database) (i : Input) : Prop where
  returns : i.Returns db
  unread : i.Unread db

/-- Every call of the run is clean where it is made. -/
def CleanRun (db : Database) (is : List Input) : Prop :=
  Hidden.During Input.run (fun x => x.2.db) (fun db i => i.Clean db) db is fun _ => {}

/-! ## One call -/

section
variable {drv : Cmd → SmPacket → Reply} {w : World} (l l' : Locals)

theorem endpointCreate_locals (hv : (w.db.domains 0).valid = true) (p : U32) :
    endpointCreate .std ⟨drv, l⟩ w p = endpointCreate .std ⟨drv, l'⟩ w p := by
  rw [endpointCreate_valid hv, endpointCreate_valid hv]
  rfl

theorem endpointGet_eq (E : Env) (d n p t : U32) : endpointGet .std E w d n p t = (do
    match ← transGetPortIndex .std w.db n p with
    | some _ => .ok ((endpointHandle n p, .success), w)
    | none =>
      let w1 := (ioctl E (setBlocking w true) .queryRemoteEp (queryPkt n p t)).2
      if (E.drv .queryRemoteEp (queryPkt n p t)).ret ≠ 0 then
        .ok ((E.locals.e, if w1.errno = etimedout then .timeout else .errGeneral), w1)
      else .ok ((endpointHandle n p, .success), w1)) := rfl

theorem endpointGet_locals {n p t : U32}
    (h : transGetPortIndex .std w.db n p = .ok none → (drv .queryRemoteEp (queryPkt n p t)).ret = 0) (d : U32) :
    endpointGet .std ⟨drv, l⟩ w d n p t = endpointGet .std ⟨drv, l'⟩ w d n p t := by
  rw [endpointGet_eq, endpointGet_eq]
  cases hk : transGetPortIndex .std w.db n p with
  | error f => rfl
  | ok k =>
    cases k with
    | some k => rfl
    | none =>
      simp only [ok_bind, h hk, ne_eq, not_true_eq_false, if_false]
      rfl

/-- With a message there, a receive reads no local. -/
theorem received_locals {n : U32} {ret : Int} (h : ret = 0) (pkt : SmPacket) :
    received l n ret pkt = received l' n ret pkt := by
  rw [received, received, if_pos h, if_pos h]

/-- The blocking receive looks at the sender in no case. -/
theorem transMsgRecv_locals (e n : U32) {b : U32} (hb : b ≠ 0) :
    transMsgRecv .std ⟨drv, l⟩ w e b n = transMsgRecv .std ⟨drv, l'⟩ w e b n := by
  simp only [transMsgRecv, assertDecode_std]
  cases transGetPortIndex .std w.db _ _ with
  | error f => rfl
  | ok k =>
    cases k with
    | none => rfl
    | some k =>
      have heq (l : Locals) := smRecvPacket_eq (E := ⟨drv, l⟩) hb w k n true
      simp only [ok_bind, heq, received_ret]
      by_cases hret : (drv .recv (recvPkt k b n)).ret = 0
      · rw [received_locals l l' hret]
        rfl
      · simp only [hret, ne_eq, not_false_eq_true, if_true]
        rfl

theorem msgRecv_locals (e b n m : U32) : msgRecv .std ⟨drv, l⟩ w e b n m = msgRecv .std ⟨drv, l'⟩ w e b n m := by
  by_cases hb : b = 0
  · subst hb
    rfl
  · rw [msgRecv, msgRecv, transMsgRecv_locals l l' e n hb]

/-- The other one records it, unless there is a message. -/
theorem transMsgRecvI_locals {e b n q : U32} (h : w.db.requestReservesHeader.emptyHeadIndex ≠ none →
      ∀ k, lookup w.db e = .ok (some k) → b ≠ 0 ∧ (drv .recv (recvPkt k b n)).ret = 0) :
    transMsgRecvI .std ⟨drv, l⟩ w e b n (some q) = transMsgRecvI .std ⟨drv, l'⟩ w e b n (some q) := by
  cases hid : w.db.requestReservesHeader.emptyHeadIndex with
  | none => simp only [transMsgRecvI, transReserveRequest, hid]
  | some id =>
    rw [transMsgRecvI_some hid, transMsgRecvI_some hid]
    cases hk : lookup w.db e with
    | error f => rfl
    | ok k =>
      cases k with
      | none => rfl
      | some k =>
        obtain ⟨hb, hret⟩ := h (by rw [hid]; exact Option.some_ne_none id) k hk
        simp only [ok_bind, smRecvPacket_eq hb, received_locals l l' hret]
        rfl

theorem msgRecvI_locals {e b n : U32} {q : Option U32}
    (h : q ≠ none → w.db.requestReservesHeader.emptyHeadIndex ≠ none →
      ∀ k, lookup w.db e = .ok (some k) → b ≠ 0 ∧ (drv .recv (recvPkt k b n)).ret = 0) :
    msgRecvI .std ⟨drv, l⟩ w e b n q = msgRecvI .std ⟨drv, l'⟩ w e b n q := by
  cases q with
  | none => rfl
  | some q => rw [msgRecvI, msgRecvI, transMsgRecvI_locals l l' (h (Option.some_ne_none q))]

end

/-- Such a call reads no uninitialised local on its way out. -/
theorem Input.Unread.same {i : Input} (h : i.Unread db) (l l' : Locals) : i.run l db = i.run l' db := by
  obtain ⟨call, drv, errno, fl⟩ := i
  unfold Input.run
  dsimp only
  cases call with
  | endpointCreate p => rw [Call.exec, Call.exec, endpointCreate_locals (w := ⟨db, errno, fl, []⟩) l l' h]
  | endpointGet d n p t => rw [Call.exec, Call.exec, endpointGet_locals (w := ⟨db, errno, fl, []⟩) l l' h]
  | msgRecvI e b n q => rw [Call.exec, Call.exec, msgRecvI_locals (w := ⟨db, errno, fl, []⟩) l l' h]
  | msgRecv e b n m => rw [Call.exec, Call.exec, msgRecv_locals l l']
  | _ => rfl

theorem create_returns_iff {E : Env} {w : World} {p : U32} :
    (∃ y, (Call.endpointCreate p).exec .std E w = .ok y) ↔ ((w.db.domains 0).valid = true →
      ∃ j k, transGetNodeIndex .std w.db (transGetNodeNum w.db) = .ok (some j) ∧
        slotOf (E.drv .create (createPkt p)).pkt.sessionIdx = .ok k ∧
        (((w.db.domains 0).nodes j).endpoints k).valid = false) := by
  constructor
  · intro h hv
    obtain ⟨⟨x, w'⟩, hx⟩ := h
    obtain ⟨⟨y, w1⟩, hy, -⟩ := bind_eq_ok.mp hx
    cases create_cases hy with
    | notInit _ hno => rw [hv] at hno; cases hno
    | created j k w' hj hk hfree => exact ⟨j, k, hj, hk, hfree⟩
  · intro h
    by_cases hv : (w.db.domains 0).valid = true
    · obtain ⟨j, k, hj, hk, hfree⟩ := h hv
      have hmsb : (E.drv .create (createPkt p)).pkt.sessionIdx.msb = false := slotOf_msb hk
      unfold createPkt at hmsb hk
      simp only [Call.exec, endpointCreate_valid hv, transEndpointCreate, smCreateSession, ioctl_reply, ioctl_db, hmsb,
        std_asserts, Bool.false_eq_true, if_false, if_true, hj, hk, hfree, ok_bind, Bool.and_false]
      exact ⟨_, rfl⟩
    · simp only [Call.exec, endpointCreate, domainIdGet, transGetDomainNum, hv]
      exact ⟨_, rfl⟩

/-- A call returns there and nowhere else, whatever the locals hold. -/
theorem returns_iff {i : Input} (l : Locals) : (∃ y, i.run l db = .ok y) ↔ i.Returns db := by
  unfold Input.run Input.Returns
  split
  · rename_i p hc
    rw [hc]
    exact create_returns_iff
  · rename_i hc
    exact Outcome.not_fails_iff.symm.trans (not_congr (exec_fails i.call fun p hp => absurd hp (hc p)))

/-- A clean call returns the same for all contents of the locals. -/
theorem Input.Clean.blind {i : Input} (h : i.Clean db) : Hidden.Blind Input.run db i := by
  obtain ⟨y, hy⟩ := (returns_iff {}).mpr h.returns
  exact ⟨y, fun l => (h.unread.same l {}).trans hy⟩

/-! ## A call that is not clean -/

/-- Two contents of the locals. -/
def zeros : Locals := {}
def ones : Locals := { e := 1, send := ⟨0, 0, 1⟩ }

theorem create_tells {i : Input} {p : U32} (hc : i.call = .endpointCreate p) (hv : ¬ (db.domains 0).valid = true) :
    i.run zeros db ≠ i.run ones db := by
  have hrun (l : Locals) : i.run l db =
      .ok (.value l.e .errNodeNotinit, { db := db, errno := i.errno, fl := i.fl }) := by
    simp only [Input.run, hc, Call.exec, endpointCreate, domainIdGet, transGetDomainNum, hv]
    rfl
  rw [hrun, hrun]
  intro h
  cases h

/-- A get that the driver refuses returns its `e`. -/
theorem get_unset {i : Input} {d n p t : U32} (hc : i.call = .endpointGet d n p t)
    (hk : transGetPortIndex .std db n p = .ok none) (hret : (i.drv .queryRemoteEp (queryPkt n p t)).ret ≠ 0)
    (l : Locals) : ∃ st w, i.run l db = .ok (.value l.e st, w) := by
  simp only [Input.run, hc, Call.exec, endpointGet_eq, hk, ok_bind, hret, ne_eq, not_false_eq_true, if_true]
  exact ⟨_, _, rfl⟩

theorem get_tells {i : Input} {d n p t : U32} (hc : i.call = .endpointGet d n p t)
    (hk : transGetPortIndex .std db n p = .ok none) (hret : (i.drv .queryRemoteEp (queryPkt n p t)).ret ≠ 0) :
    i.run zeros db ≠ i.run ones db := by
  obtain ⟨st, w, h0⟩ := get_unset hc hk hret zeros
  obtain ⟨st', w', h1⟩ := get_unset hc hk hret ones
  rw [h0, h1]
  intro h
  cases h

/-- Without a message, the sender is what the locals hold. -/
theorem smRecvPacket_unset {E : Env} {b n : U32} {k : Slot} (hno : ¬ (b ≠ 0 ∧ (E.drv .recv (recvPkt k b n)).ret = 0))
    (w : World) : ∃ got w1,
      smRecvPacket E w (sessionOf k) E.locals.send.portId E.locals.send.nodeId b n false = (got, w1) ∧
      got.dstEp = E.locals.send.portId ∧ got.dstCpu = E.locals.send.nodeId := by
  by_cases hb : b = 0
  · rw [smRecvPacket, if_pos hb]
    exact ⟨_, _, rfl, rfl, rfl⟩
  · have hret : (E.drv .recv (recvPkt k b n)).ret ≠ 0 := fun h0 => hno ⟨hb, h0⟩
    rw [smRecvPacket_eq hb, received, if_neg hret]
    exact ⟨_, _, rfl, rfl, rfl⟩

/-- The peer recorded for a receive that is not delivered. -/
theorem recv_tells {i : Input} {e b n q : U32} {id : Req} {k : Slot} (hc : i.call = .msgRecvI e b n (some q))
    (hid : db.requestReservesHeader.emptyHeadIndex = some id) (hk : lookup db e = .ok (some k))
    (hno : ¬ (b ≠ 0 ∧ (i.drv .recv (recvPkt k b n)).ret = 0)) : i.run zeros db ≠ i.run ones db := by
  have hrun (l : Locals) : ∃ x w, i.run l db = .ok (x, w) ∧
      (w.db.requests id).epEndpoint = transEncodeHandleInternal 0 l.send.nodeId l.send.portId := by
    obtain ⟨st, hst⟩ := recvChecks_returns hk b
    obtain ⟨got, w1, hgot, hep, hcpu⟩ := smRecvPacket_unset (E := ⟨i.drv, l⟩) hno
      { db := db.take id, errno := i.errno, fl := i.fl }
    dsimp only at hgot hep hcpu
    have hx := transMsgRecvI_some (E := ⟨i.drv, l⟩) (w := ⟨db, i.errno, i.fl, []⟩) hid e b n q
    dsimp only at hx
    rw [hk, ok_bind] at hx
    dsimp only at hx
    rw [hgot] at hx
    simp only [Input.run, hc, Call.exec, msgRecvI, Option.isNone_some, Bool.false_eq_true, if_false, hst, ok_bind, hx]
    refine ⟨_, _, rfl, ?_⟩
    rw [recordRecv_eq, setRequest_same, ← hep, ← hcpu]
    rfl
  obtain ⟨x, w, h0, hpeer⟩ := hrun zeros
  obtain ⟨x', w', h1, hpeer'⟩ := hrun ones
  intro h
  rw [h0, h1] at h
  cases h
  exact absurd (hpeer.symm.trans hpeer') (by decide)

theorem unread_of_same {i : Input} (hsame : i.run zeros db = i.run ones db) : i.Unread db := by
  unfold Input.Unread
  split
  · rename_i p hc
    by_contra hv
    exact create_tells hc hv hsame
  · rename_i d n p t hc
    intro hk
    by_contra hret
    exact get_tells hc hk hret hsame
  · rename_i e b n q hc
    intro hq hhead k hk
    obtain ⟨q, rfl⟩ := Option.ne_none_iff_exists'.mp hq
    obtain ⟨id, hid⟩ := Option.ne_none_iff_exists'.mp hhead
    by_contra hno
    exact recv_tells hc hid hk hno hsame
  · trivial

theorem clean_of_blind {i : Input} (h : Hidden.Blind Input.run db i) : i.Clean db := by
  obtain ⟨y, hy⟩ := h
  exact ⟨(returns_iff {}).mp ⟨y, hy _⟩, unread_of_same ((hy _).trans (hy _).symm)⟩

/-- In two executions of a run, from the same database and with the same arguments and
    driver, every call returns the same whatever the locals hold, exactly when each call
    of the run is clean where it is made. -/
theorem locals_unseen_iff (db : Database) (is : List Input) :
    (∀ locals locals', Hidden.Alike id (outcomes db is locals) (outcomes db is locals')) ↔ CleanRun db is := by
  refine (Hidden.outputs_blind_iff ({} : Locals) db is).trans ⟨?_, ?_⟩
  · exact Hidden.During.mono fun db i h => clean_of_blind h
  · exact Hidden.During.mono fun db i h => h.blind

/-! ### On its way to the driver -/

/-- The driver commands of an execution. -/
def given (xs : List (Res (Ret × World))) : List Command :=
  xs.flatMap fun x => match x with
    | .ok x => commands x.2.trace
    | .error _ => []

/-- A receive on port 5 without a message yet, and a test of it. -/
def receiveThenTest : List Input :=
  [⟨.msgRecvI (endpointHandle 0 5) 4096 8 (some 0), notYet.drv, 0, 2⟩, ⟨.test 0 (some 0), notYet.drv, 0, 2⟩]

/-- The WAIT of the test names as its peer what the locals of the receive held. -/
theorem sender_unset_reaches_driver :
    ¬ ∀ db, Live db → ∀ is locals locals', outcomes db is locals = outcomes db is locals' := by
  intro h
  have hsame := h onePort onePort_live receiveThenTest (fun _ => zeros) fun _ => ones
  have hgiven : given (outcomes onePort receiveThenTest fun _ => zeros) ≠
      given (outcomes onePort receiveThenTest fun _ => ones) := by decide +kernel
  exact hgiven (congrArg given hsame)

end Mcapi
