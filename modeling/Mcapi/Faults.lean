/-
  Mcapi.Faults — exactly which calls do not return.

  A call stops with a `Fault` where an assertion fails, where it goes past a table, and where
  it stores through a null pointer.

  - A scan of the endpoint table reads past it where the node counts more endpoints than
    the table has and none is on the port (`Overruns`).
  - A create takes the driver's session as its slot: that must be one of the table, and free.
  - A request handle is checked by its low 16 bits, and used as a whole.
  - A get that is answered stores its handle, through the pointer it was given.
  - With a request free, an issuing call stores its handle through `request`.

  `Call.Faults` says this for each call, and `exec_fails` that a call fails there and nowhere
  else. What the library does once it has gone past a table is not defined: no statement about
  what a call does counts that as done.
-/

import Mcapi.Lookups
import Mcapi.Isolation
import Mcapi.Sessions
import Mcapi.Lib.Ends

namespace Mcapi

open Outcome (Fails)

variable {E : Env} {w : World} {db : Database} {n p e : U32}

/-! ## Lookups that leave the table -/

/-- The scan for port `p` of node `n` goes on past the last entry. -/
def Overruns (db : Database) (n p : U32) : Prop :=
  ∃ i : Fin maxNodes, i.val < (db.domains 0).numNodes.toNat ∧ ((db.domains 0).nodes i).nodeNum = n ∧
    maxEndpoints < ((db.domains 0).nodes i).numEndpoints.toNat ∧
    ∀ j, ¬ ((((db.domains 0).nodes i).endpoints j).valid = true ∧ (((db.domains 0).nodes i).endpoints j).portNum = p)

/-- The check of an endpoint looks it up only under node 0. -/
def CheckOverruns (db : Database) (e : U32) : Prop := nodeOf e = 0 ∧ Overruns db 0 (portOf e)

instance (db : Database) (n p : U32) : Decidable (Overruns db n p) := inferInstanceAs (Decidable (∃ _, _))
instance (db : Database) (e : U32) : Decidable (CheckOverruns db e) := inferInstanceAs (Decidable (_ ∧ _))

theorem scan_fails {x : NodeEntry} : Fails (scanPorts .std x p) ↔
    maxEndpoints < x.numEndpoints.toNat ∧ ∀ j, ¬ ((x.endpoints j).valid = true ∧ (x.endpoints j).portNum = p) := by
  unfold scanPorts
  cases hf : (List.finRange maxEndpoints).find? (portMatches x p) with
  | some j =>
    have hj := (portMatches_iff.mp (Tables.find_eq_some_iff.mp hf).1).2
    exact ⟨fun h => absurd h (Outcome.not_fails_ok _), fun h => absurd hj (h.2 j)⟩
  | none =>
    have hno := Tables.find_eq_none_iff.mp hf
    dsimp only
    constructor
    · intro h
      rcases Outcome.fails_ite.mp h with ⟨hover, -⟩ | ⟨-, h⟩
      · refine ⟨hover, fun j hj => ?_⟩
        have hmatch := portMatches_iff.mpr ⟨Nat.lt_trans j.isLt hover, hj⟩
        rw [hno j] at hmatch
        cases hmatch
      · exact absurd h (Outcome.not_fails_ok _)
    · intro h
      rw [if_pos h.1]
      exact Outcome.fails_error _

theorem portIndex_fails : Fails (transGetPortIndex .std db n p) ↔ Overruns db n p := by
  rw [transGetPortIndex, Outcome.fails_foldlM (P := fun i => i.val < (db.domains 0).numNodes.toNat ∧
    ((db.domains 0).nodes i).nodeNum = n ∧ maxEndpoints < ((db.domains 0).nodes i).numEndpoints.toNat ∧
    ∀ j, ¬ ((((db.domains 0).nodes i).endpoints j).valid = true ∧ (((db.domains 0).nodes i).endpoints j).portNum = p))]
  · simp only [List.mem_finRange, true_and, Overruns]
  · intro a i
    rw [Outcome.fails_ite, or_iff_left (fun h => Outcome.not_fails_ok _ h.2), Outcome.fails_bind_of, scan_fails]
    · simp only [Bool.and_eq_true, decide_eq_true_eq, beq_iff_eq, and_assoc]
    · intro k _
      cases k <;> exact Outcome.not_fails_ok _

theorem lookup_fails : Fails (lookup db e) ↔ Overruns db (nodeOf e) (portOf e) := portIndex_fails

/-- Where a lookup finds something, there is such a node. -/
theorem portIndex_listed {k : Slot} (h : transGetPortIndex .std db n p = .ok (some k)) :
    ∃ i, transGetNodeIndex .std db n = .ok (some i) := by
  cases hi : transGetNodeIndex .std db n with
  | ok i =>
    obtain ⟨j, rfl⟩ := nodeIndex_some hi
    exact ⟨j, rfl⟩
  | error f =>
    exfalso
    unfold transGetNodeIndex at hi
    split at hi
    · cases hi
    · rename_i hf
      have habsent (j : Fin maxNodes) (hj : j.val < (db.domains 0).numNodes.toNat) :
          ((db.domains 0).nodes j).nodeNum ≠ n := by
        intro hn
        have hno := Tables.find_eq_none_iff.mp hf j
        simp [hj, hn] at hno
      rw [portIndex_absent habsent] at h
      cases h

theorem nodeOf_eq_zero : nodeOf e = 0 ↔ (transDecodeHandleInternal e).nodeId = 0 := by
  unfold nodeOf
  constructor
  · intro h
    have hval := congrArg BitVec.toNat h
    rw [BitVec.toNat_setWidth, Nat.mod_eq_of_lt (Nat.lt_trans (BitVec.isLt _) (by decide))] at hval
    exact BitVec.eq_of_toNat_eq hval
  · intro h
    rw [h]
    rfl

theorem validEndpoint_fails : Fails (transValidEndpoint .std db e) ↔ CheckOverruns db e := by
  unfold transValidEndpoint
  rw [Outcome.fails_ite, or_iff_right (fun h => Outcome.not_fails_ok _ h.2), not_not, masterNodeNum,
    ← nodeOf_eq_zero, Outcome.fails_bind_of]
  · constructor
    · intro h
      exact ⟨h.1, by rw [← h.1]; exact lookup_fails.mp h.2⟩
    · intro h
      refine ⟨h.1, lookup_fails.mpr ?_⟩
      rw [h.1]
      exact h.2
  · intro k _
    cases k <;> exact Outcome.not_fails_ok _

/-! ## The calls -/

/-- The endpoint is in the table. -/
def Present (db : Database) (n p : U32) : Prop := ∃ k, transGetPortIndex .std db n p = .ok (some k)

/-- The endpoint that a request was issued on is looked up past the table. -/
def RequestData.Lost (db : Database) (d : RequestData) : Prop :=
  d.type ≠ .getEndpt ∧ Overruns db (nodeOf d.handle) (portOf d.handle)

/-- Where a WAIT for an endpoint get goes. -/
def RequestData.remote (d : RequestData) : Target :=
  ⟨0, (d.epPortNum.setWidth 16).setWidth 32, (d.epNodeNum.setWidth 16).setWidth 32⟩

/-- A get that is answered, and has no place for the handle. -/
def RequestData.NoPlace (E : Env) (d : RequestData) (timeout : U32) : Prop :=
  d.type = .getEndpt ∧ d.buffer = 0 ∧ (waitCommand E d.remote d timeout).Taken

/-- What makes a call fault. -/
def Call.Faults (E : Env) (db : Database) : Call → Prop
  | .domainIdGet | .nodeIdGet => False
  | .endpointCreate p =>
    ∀ k, slotOf (E.drv .create (createPkt p)).pkt.sessionIdx = .ok k → (db.node0.endpoints k).valid = true
  | .endpointGetI _ n p e q => Overruns db n p ∨ (Present db n p ∧ e = 0) ∨
    (¬ Present db n p ∧ Spare db ∧ (q = none ∨ ((E.drv .queryRemoteEp (queryPkt n p 0)).ret = 0 ∧ e = 0)))
  | .endpointGet _ n p _ => Overruns db n p
  | .endpointDelete e | .endpointGetAttribute e | .msgAvailable e => CheckOverruns db e
  | .msgSend s _ _ _ _ => CheckOverruns db s
  | .msgSendI s _ _ _ _ q =>
    CheckOverruns db s ∨ (Spare db ∧ (q = none ∨ Overruns db (nodeOf s) (portOf s)))
  | .msgRecv r b _ _ => b ≠ 0 ∧ CheckOverruns db r
  | .msgRecvI r b _ q =>
    q ≠ none ∧ ((b ≠ 0 ∧ CheckOverruns db r) ∨ (Spare db ∧ Overruns db (nodeOf r) (portOf r)))
  | .test v size => size ≠ none ∧ transValidRequestHandle db v = true ∧ (maxRequests ≤ v.toNat ∨
    ∃ r, v = handleOf r ∧ (db.requests r).cancelled = false ∧ (db.requests r).completed = false ∧
      ((db.requests r).Lost db ∨ (db.requests r).NoPlace E 0))
  -- a wait looks the endpoint up before it looks at the flag
  | .wait v size timeout => size ≠ none ∧ transValidRequestHandle db v = true ∧ (maxRequests ≤ v.toNat ∨
    ∃ r, v = handleOf r ∧ ((db.requests r).Lost db ∨
      ((db.requests r).completed = false ∧ (db.requests r).NoPlace E timeout)))

/-! ## Endpoints -/

theorem storeAt_fails {a v : U32} : Fails (storeAt w a v) ↔ a = 0 := by
  unfold storeAt
  rw [Outcome.fails_ite, or_iff_left (fun h => Outcome.not_fails_ok _ h.2)]
  exact ⟨And.left, fun h => ⟨h, Outcome.fails_error _⟩⟩

theorem create_fails (h : FirstNode n w.db) : Fails (endpointCreate .std E w p) ↔
    ∀ k, slotOf (E.drv .create (createPkt p)).pkt.sessionIdx = .ok k → (w.db.node0.endpoints k).valid = true := by
  rw [← not_iff_not, Outcome.not_fails_iff]
  constructor
  · intro hret hall
    obtain ⟨x, hx⟩ := hret
    rw [create_eq rfl h] at hx
    split at hx
    · cases hx
    · obtain ⟨k, hk, hx⟩ := bind_eq_ok.mp hx
      rw [if_pos (hall k hk)] at hx
      cases hx
  · intro hno
    simp only [not_forall] at hno
    obtain ⟨k, hk, hv⟩ := hno
    exact ⟨_, create_free rfl h hk hv⟩

/-- A computation that starts with a lookup. -/
theorem after_lookup {A : Type} {f : Option Slot → Res A} {P : Prop} (hnone : transGetPortIndex .std db n p = .ok none →
    (Fails (f none) ↔ P)) (hsome : ∀ k, transGetPortIndex .std db n p = .ok (some k) → (Fails (f (some k)) ↔ P))
    (hover : Overruns db n p → P) : Fails (transGetPortIndex .std db n p >>= f) ↔ P := by
  cases hk : transGetPortIndex .std db n p with
  | error e =>
    have ho : Overruns db n p := portIndex_fails.mp ⟨e, hk⟩
    exact ⟨fun _ => hover ho, fun _ => Outcome.fails_error e⟩
  | ok k =>
    rw [ok_bind]
    cases k with
    | none => exact hnone hk
    | some k => exact hsome k hk

theorem not_overruns {k : Option Slot} (h : transGetPortIndex .std db n p = .ok k) : ¬ Overruns db n p := by
  rw [← portIndex_fails, Outcome.not_fails_iff]
  exact ⟨k, h⟩

theorem getI_fails {d : U32} {q : Option U32} : Fails (endpointGetI .std E w d n p e q) ↔
    Overruns w.db n p ∨ (Present w.db n p ∧ e = 0) ∨ (¬ Present w.db n p ∧ Spare w.db ∧
      (q = none ∨ ((E.drv .queryRemoteEp (queryPkt n p 0)).ret = 0 ∧ e = 0))) := by
  unfold endpointGetI transEndpointGetI
  refine after_lookup (fun hk => ?_) (fun k hk => ?_) .inl
  · have hno : ¬ Present w.db n p := by
      intro hp
      obtain ⟨k, hp⟩ := hp
      rw [hk] at hp
      cases hp
    rw [or_iff_right (not_overruns hk), or_iff_right (fun h => hno h.1), spare_iff]
    dsimp only [transReserveRequest]
    cases hid : w.db.requestReservesHeader.emptyHeadIndex with
    | none => simp [Outcome.not_fails_ok]
    | some id =>
      cases q with
      | none => exact iff_of_true (Outcome.fails_error _) ⟨hno, ⟨id, rfl⟩, .inl rfl⟩
      | some q =>
        have hquery : (smGetRemoteEp E { w with db := w.db.take id } p n 0 false).1 =
            (E.drv .queryRemoteEp (queryPkt n p 0)).ret := rfl
        dsimp only [assignRequest]
        rw [ok_bind, hquery, Outcome.fails_ite, or_iff_right (fun h => Outcome.not_fails_ok _ h.2),
          Outcome.fails_bind_of (fun _ _ => Outcome.not_fails_ok _), storeAt_fails]
        simp [hno]
  · have hyes : Present w.db n p := ⟨k, hk⟩
    rw [or_iff_right (not_overruns hk), or_iff_left (fun h => h.1 hyes)]
    dsimp only
    rw [Outcome.fails_bind_of (fun _ _ => Outcome.not_fails_ok _), storeAt_fails]
    exact ⟨fun h => ⟨hyes, h⟩, And.right⟩

theorem get_fails {d t : U32} : Fails (endpointGet .std E w d n p t) ↔ Overruns w.db n p := by
  simp only [endpointGet, transValidNode, transValidPort, Bool.not_true, Bool.false_eq_true, if_false]
  unfold transEndpointGet
  refine after_lookup (fun hk => ?_) (fun k hk => ?_) id
  · refine iff_of_false ?_ (not_overruns hk)
    dsimp only
    split <;> exact Outcome.not_fails_ok _
  · exact iff_of_false (Outcome.not_fails_ok _) (not_overruns hk)

theorem getAttribute_fails : Fails (endpointGetAttribute .std w e) ↔ CheckOverruns w.db e := by
  unfold endpointGetAttribute
  rw [Outcome.fails_bind_of, validEndpoint_fails]
  intro v _
  split <;> exact Outcome.not_fails_ok _

/-- Past the check, a delete finds what it looks up. -/
theorem delete_fails : Fails (endpointDelete .std E w e) ↔ CheckOverruns w.db e := by
  unfold endpointDelete
  rw [Outcome.fails_bind_of, validEndpoint_fails]
  intro v hv
  cases v with
  | false => exact Outcome.not_fails_ok _
  | true =>
    obtain ⟨-, k, hk, -⟩ := validEndpoint_true hv
    have hk : transGetPortIndex .std w.db (nodeOf e) (portOf e) = .ok (some k) := hk
    obtain ⟨i, hi⟩ := portIndex_listed hk
    unfold nodeOf portOf at hk
    unfold nodeOf at hi
    simp only [Bool.not_true, Bool.false_eq_true, if_false, transEndpointIsowner, transEndpointChannelIsopen,
      transEndpointDelete, assertDecode_std, hk, hi, ok_bind]
    split
    · exact Outcome.not_fails_ok _
    · exact Outcome.not_fails_ok _

/-! ## Messages -/

theorem sendChecks_fails {s r m q : U32} : Fails (sendChecks .std db s r m q) ↔ CheckOverruns db s := by
  simp only [sendChecks, transValidPriority, Bool.not_true, Bool.false_eq_true, if_false, transValidEndpoints]
  rw [Outcome.fails_bind_of, validEndpoint_fails]
  intro v _
  repeat' split
  all_goals exact Outcome.not_fails_ok _

theorem recvChecks_fails {r b : U32} : Fails (recvChecks .std db r b) ↔ b ≠ 0 ∧ CheckOverruns db r := by
  unfold recvChecks
  rw [Outcome.fails_ite, or_iff_right (fun h => Outcome.not_fails_ok _ h.2), Outcome.fails_bind_of, validEndpoint_fails]
  · simp [transValidBufferParam]
  · intro v _
    split <;> exact Outcome.not_fails_ok _

/-- Past the check, the lookup that follows returns. -/
theorem after_check {A : Type} {f : Option Slot → Res A} (h : transValidEndpoint .std db e = .ok true)
    (hf : ∀ k, ¬ Fails (f k)) : ¬ Fails (transGetPortIndex .std db (nodeOf e) (portOf e) >>= f) := by
  obtain ⟨-, k, hk, -⟩ := validEndpoint_true h
  have hk : transGetPortIndex .std db (nodeOf e) (portOf e) = .ok (some k) := hk
  rw [hk, ok_bind]
  exact hf (some k)

theorem send_fails {s r b m q : U32} : Fails (msgSend .std E w s r b m q) ↔ CheckOverruns w.db s := by
  unfold msgSend
  rw [Outcome.fails_bind_of, sendChecks_fails]
  intro st hst
  split
  · exact Outcome.not_fails_ok _
  · rename_i hok
    have hst : sendChecks .std w.db s r m q = .ok .success := by rw [hst, not_not.mp hok]
    refine after_check (sendChecks_valid hst) fun k => ?_
    cases k with
    | none => exact Outcome.not_fails_ok _
    | some k =>
      dsimp only
      split <;> exact Outcome.not_fails_ok _

theorem recv_fails {r b m q : U32} : Fails (msgRecv .std E w r b m q) ↔ b ≠ 0 ∧ CheckOverruns w.db r := by
  unfold msgRecv
  rw [Outcome.fails_bind_of, recvChecks_fails]
  intro st hst
  split
  · exact Outcome.not_fails_ok _
  · rename_i hok
    have hst : recvChecks .std w.db r b = .ok .success := by rw [hst, not_not.mp hok]
    rw [Outcome.fails_bind_of]
    · refine after_check (recvChecks_valid hst) fun k => ?_
      cases k with
      | none => exact Outcome.not_fails_ok _
      | some k =>
        dsimp only
        split <;> exact Outcome.not_fails_ok _
    · intro x _
      obtain ⟨⟨st, len⟩, w1⟩ := x
      cases len with
      | none => exact Outcome.not_fails_ok _
      | some len =>
        dsimp only
        split <;> exact Outcome.not_fails_ok _

theorem available_fails {r : U32} : Fails (msgAvailable .std E w r) ↔ CheckOverruns w.db r := by
  unfold msgAvailable
  rw [Outcome.fails_bind_of, validEndpoint_fails]
  intro v hv
  cases v with
  | false => exact Outcome.not_fails_ok _
  | true =>
    have hnode : ¬ (Build.std.asserts && (assertDecode .std E.locals.recv r).nodeId != 0) = true := by
      simp [(validEndpoint_true hv).1]
    simp only [Bool.not_true, Bool.false_eq_true, if_false, transMsgAvailable]
    rw [if_neg hnode]
    refine after_check hv fun k => ?_
    cases k with
    | none => exact Outcome.not_fails_ok _
    | some k =>
      dsimp only
      split <;> exact Outcome.not_fails_ok _

theorem sendI_fails {s r b m t : U32} {q : Option U32} : Fails (msgSendI .std E w s r b m t q) ↔
    CheckOverruns w.db s ∨ (Spare w.db ∧ (q = none ∨ Overruns w.db (nodeOf s) (portOf s))) := by
  unfold msgSendI
  rw [Outcome.fails_bind_const, sendChecks_fails, spare_iff]
  refine or_congr_right ?_
  dsimp only [transMsgSendI, transReserveRequest]
  cases hid : w.db.requestReservesHeader.emptyHeadIndex with
  | none => simp [Outcome.not_fails_ok]
  | some id =>
    cases q with
    | none => exact iff_of_true (Outcome.fails_error _) ⟨⟨id, rfl⟩, .inl rfl⟩
    | some q =>
      dsimp only [assignRequest]
      rw [ok_bind, Outcome.fails_bind_of]
      · have hlook : Fails (transGetPortIndex .std (w.db.take id) (nodeOf s) (portOf s)) ↔
            Overruns w.db (nodeOf s) (portOf s) := portIndex_fails
        exact hlook.trans (by simp)
      · intro k _
        cases k <;> exact Outcome.not_fails_ok _

theorem recvI_fails {r b m : U32} {q : Option U32} : Fails (msgRecvI .std E w r b m q) ↔
    q ≠ none ∧ ((b ≠ 0 ∧ CheckOverruns w.db r) ∨ (Spare w.db ∧ Overruns w.db (nodeOf r) (portOf r))) := by
  unfold msgRecvI
  cases q with
  | none => simp [Outcome.not_fails_ok]
  | some q =>
    simp only [Option.isNone_some, Bool.false_eq_true, if_false]
    rw [Outcome.fails_bind_const, recvChecks_fails, spare_iff]
    simp only [ne_eq, reduceCtorEq, not_false_eq_true, true_and]
    refine or_congr_right ?_
    dsimp only [transMsgRecvI, transReserveRequest]
    cases hid : w.db.requestReservesHeader.emptyHeadIndex with
    | none => simp [Outcome.not_fails_ok]
    | some id =>
      dsimp only [assignRequest]
      rw [ok_bind, Outcome.fails_bind_of]
      · have hlook : Fails (transGetPortIndex .std (w.db.take id) (nodeOf r) (portOf r)) ↔
            Overruns w.db (nodeOf r) (portOf r) := portIndex_fails
        exact hlook.trans (by simp)
      · intro k _
        cases k <;> exact Outcome.not_fails_ok _

/-! ## Test and wait -/

theorem completionTarget_get {d : RequestData} (h : d.type = .getEndpt) :
    completionTarget .std E db d = .ok (some d.remote) := by
  unfold completionTarget
  rw [if_neg (not_not.mpr h)]
  rfl

theorem completionTarget_fails {d : RequestData} : Fails (completionTarget .std E db d) ↔ d.Lost db := by
  unfold completionTarget
  rw [Outcome.fails_ite, or_iff_left (fun h => Outcome.not_fails_ok _ h.2), Outcome.fails_bind_of]
  · exact and_congr_right fun _ => portIndex_fails
  · intro k _
    cases k <;> exact Outcome.not_fails_ok _

/-- A completion that needs the driver: it fails where the lookup does, or where the answer
    has no place. -/
theorem completion_fails {A : Type} {d : RequestData} {timeout : U32} {f : Option Target → Res A}
    (hnone : ¬ Fails (f none))
    (hsome : ∀ t, Fails (f (some t)) ↔ d.type = .getEndpt ∧ d.buffer = 0 ∧ (waitCommand E t d timeout).Taken) :
    Fails (completionTarget .std E db d >>= f) ↔ d.Lost db ∨ d.NoPlace E timeout := by
  rw [Outcome.fails_bind, completionTarget_fails]
  refine or_congr_right ?_
  constructor
  · intro h
    obtain ⟨t, ht, h⟩ := h
    cases t with
    | none => exact absurd h hnone
    | some t =>
      obtain ⟨hg, hb, htaken⟩ := (hsome t).mp h
      rw [completionTarget_get hg] at ht
      cases ht
      exact ⟨hg, hb, htaken⟩
  · intro h
    exact ⟨_, completionTarget_get h.1, (hsome _).mpr h⟩

theorem testI_fails {r : Req} (hr : (w.db.requests r).valid = true) {sz : U32} :
    Fails (transTestI .std E w (handleOf r) (some sz)) ↔ (w.db.requests r).cancelled = false ∧
      (w.db.requests r).completed = false ∧ ((w.db.requests r).Lost w.db ∨ (w.db.requests r).NoPlace E 0) := by
  have hv : ¬ (Build.std.asserts && !transValidRequestHandle w.db (handleOf r)) = true := by simp [hr]
  rw [transTestI, if_neg hv, requestSlot_handleOf, ok_bind]
  dsimp only
  rw [if_neg (by simp [hr])]
  by_cases hx : (w.db.requests r).cancelled = true
  · rw [if_pos hx]
    exact iff_of_false (Outcome.not_fails_ok _) fun h => by rw [hx] at h; cases h.1
  by_cases hc : (w.db.requests r).completed = true
  · rw [if_neg hx, if_pos hc]
    exact iff_of_false (Outcome.not_fails_ok _) fun h => by rw [hc] at h; cases h.2.1
  rw [if_neg hx, if_neg hc]
  rw [Bool.not_eq_true] at hx hc
  rw [and_iff_right hx, and_iff_right hc]
  refine completion_fails (Outcome.not_fails_ok _) fun t => ?_
  dsimp only
  rw [Option.map_some, smWaitNonblocking_eq, waitCommand_taken]
  dsimp only
  rw [Outcome.fails_ite, or_iff_right (fun h => Outcome.not_fails_ok _ h.2), Outcome.fails_ite,
    or_iff_left (fun h => Outcome.not_fails_ok _ h.2), Outcome.fails_bind_of (fun _ _ => Outcome.not_fails_ok _),
    storeAt_fails, not_not]
  tauto

theorem dropRequest_returns {r : Req} (h : (w.db.requests r).valid = true) :
    ¬ Fails (dropRequest .std w (handleOf r)) := by
  rw [dropRequest_valid h]
  exact Outcome.not_fails_ok _

theorem waitI_fails {r : Req} (hr : (w.db.requests r).valid = true) {sz timeout : U32} :
    Fails (transWait .std E w (handleOf r) (some sz) timeout) ↔ (w.db.requests r).Lost w.db ∨
      ((w.db.requests r).completed = false ∧ (w.db.requests r).NoPlace E timeout) := by
  have hv : ¬ (Build.std.asserts && !transValidRequestHandle w.db (handleOf r)) = true := by simp [hr]
  rw [transWait, if_neg hv, requestSlot_handleOf, ok_bind]
  dsimp only
  cases hc : (w.db.requests r).completed with
  | true =>
    rw [Outcome.fails_bind_of, completionTarget_fails]
    · simp
    · intro t _
      cases t with
      | none => exact Outcome.not_fails_ok _
      | some t =>
        dsimp only
        rw [if_pos rfl, Outcome.fails_bind_of (fun _ _ => Outcome.not_fails_ok _)]
        exact dropRequest_returns hr
  | false =>
    rw [and_iff_right rfl]
    refine completion_fails (Outcome.not_fails_ok _) fun t => ?_
    dsimp only
    rw [if_neg Bool.false_ne_true, Option.map_some, smWaitNonblocking_eq, waitCommand_taken]
    dsimp only
    by_cases htaken : truncated (waitCommand E t (w.db.requests r) timeout).reply.ret = 0
    · rw [if_neg (not_not.mpr htaken)]
      by_cases hg : (w.db.requests r).type = .getEndpt
      · rw [if_pos hg, Outcome.fails_bind_of, storeAt_fails]
        · tauto
        · intro w1 hw1
          rw [storeAt_eq_ok hw1, Outcome.fails_bind_of (fun _ _ => Outcome.not_fails_ok _)]
          exact dropRequest_returns (by simpa using hr)
      · rw [if_neg hg, Outcome.fails_bind_of (fun _ _ => Outcome.not_fails_ok _)]
        refine iff_of_false (dropRequest_returns ?_) fun h => hg h.1
        simpa using hr
    · rw [if_pos htaken, Outcome.fails_bind_of (fun _ _ => Outcome.not_fails_ok _)]
      exact iff_of_false (dropRequest_returns (by simpa using hr)) fun h => htaken h.2.2

/-- A value that the check lets through, by what it leads to. -/
theorem checked_fails {v : U32} {A : Type} {m : Res A} {P : Req → Prop}
    (hout : ∀ f, requestSlot v = .error f → Fails m)
    (hin : ∀ r, v = handleOf r → (db.requests r).valid = true → (Fails m ↔ P r))
    (hv : transValidRequestHandle db v = true) : Fails m ↔ maxRequests ≤ v.toNat ∨ ∃ r, v = handleOf r ∧ P r := by
  cases hr : requestSlot v with
  | error f =>
    have hge : maxRequests ≤ v.toNat := by
      unfold requestSlot at hr
      split at hr
      · cases hr
      · exact not_lt.mp ‹_›
    exact iff_of_true (hout f hr) (.inl hge)
  | ok r =>
    obtain ⟨rfl, hvalid⟩ := valid_handle hv hr
    have hlt : ¬ maxRequests ≤ (handleOf r).toNat := by
      rw [handleOf_toNat]
      exact not_le.mpr r.isLt
    rw [hin r rfl hvalid, or_iff_right hlt]
    constructor
    · intro h
      exact ⟨r, rfl, h⟩
    · intro h
      obtain ⟨q, hq, h⟩ := h
      rw [handleOf_inj hq]
      exact h

theorem test_fails {v : U32} {size : Option U32} :
    Fails (test .std E w v size) ↔ (Call.test v size).Faults E w.db := by
  unfold test Call.Faults
  cases size with
  | none => simp [transValidSizeParam, Outcome.not_fails_ok]
  | some sz =>
    cases hv : transValidRequestHandle w.db v with
    | false => simp [transValidSizeParam, hv, Outcome.not_fails_ok]
    | true =>
      simp only [transValidSizeParam, hv, Option.isSome_some, Bool.not_true, Bool.false_eq_true, if_false, ne_eq,
        reduceCtorEq, not_false_eq_true, true_and]
      refine checked_fails (fun f hf => ?_) (fun r hr hvalid => ?_) hv
      · rw [transTestI, if_neg (by simp [hv]), hf]
        exact Outcome.fails_error f
      · rw [hr]
        exact testI_fails hvalid

theorem wait_fails {v timeout : U32} {size : Option U32} :
    Fails (wait .std E w v size timeout) ↔ (Call.wait v size timeout).Faults E w.db := by
  unfold wait Call.Faults
  cases size with
  | none => simp [transValidSizeParam, Outcome.not_fails_ok]
  | some sz =>
    cases hv : transValidRequestHandle w.db v with
    | false => simp [transValidSizeParam, hv, Outcome.not_fails_ok]
    | true =>
      simp only [transValidSizeParam, hv, Option.isSome_some, Bool.not_true, Bool.false_eq_true, if_false, ne_eq,
        reduceCtorEq, not_false_eq_true, true_and]
      refine checked_fails (fun f hf => ?_) (fun r hr hvalid => ?_) hv
      · rw [transWait, if_neg (by simp [hv]), hf]
        exact Outcome.fails_error f
      · rw [hr]
        exact waitI_fails hvalid

/-! ## Every call -/

/-- For a create, its node must be the first. -/
theorem exec_fails (c : Call) (h : ∀ p, c = .endpointCreate p → ∃ n, FirstNode n w.db) :
    Fails (c.exec .std E w) ↔ c.Faults E w.db := by
  cases c with
  | domainIdGet => exact iff_of_false (Outcome.not_fails_ok _) id
  | nodeIdGet => exact iff_of_false (Outcome.not_fails_ok _) id
  | endpointCreate p =>
    obtain ⟨n, hn⟩ := h p rfl
    exact (Outcome.fails_bind_of fun _ _ => Outcome.not_fails_ok _).trans (create_fails hn)
  | endpointGetI d n p e q => exact (Outcome.fails_bind_of fun _ _ => Outcome.not_fails_ok _).trans getI_fails
  | endpointGet d n p t => exact (Outcome.fails_bind_of fun _ _ => Outcome.not_fails_ok _).trans get_fails
  | endpointDelete e => exact (Outcome.fails_bind_of fun _ _ => Outcome.not_fails_ok _).trans delete_fails
  | endpointGetAttribute e => exact (Outcome.fails_bind_of fun _ _ => Outcome.not_fails_ok _).trans getAttribute_fails
  | msgSendI s r b m t q => exact (Outcome.fails_bind_of fun _ _ => Outcome.not_fails_ok _).trans sendI_fails
  | msgSend s r b m t => exact (Outcome.fails_bind_of fun _ _ => Outcome.not_fails_ok _).trans send_fails
  | msgRecvI r b m q => exact (Outcome.fails_bind_of fun _ _ => Outcome.not_fails_ok _).trans recvI_fails
  | msgRecv r b m q => exact (Outcome.fails_bind_of fun _ _ => Outcome.not_fails_ok _).trans recv_fails
  | msgAvailable r => exact (Outcome.fails_bind_of fun _ _ => Outcome.not_fails_ok _).trans available_fails
  | test v size => exact (Outcome.fails_bind_of fun _ _ => Outcome.not_fails_ok _).trans test_fails
  | wait v size t => exact (Outcome.fails_bind_of fun _ _ => Outcome.not_fails_ok _).trans wait_fails

end Mcapi
