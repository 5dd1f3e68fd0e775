/-
  Mcapi.Crashes — which calls of a run do not return, and how callers can avoid them.

  - `faults_iff`: in every state of every run, a call of any process faults exactly where
    `Call.Faults` says.
  - `careful_returns`: on node 0, as long as callers pass no null pointer and no handle that
    is none, endpoints are created as usable ones and the driver gives out free sessions,
    every call returns (`Call.Careful`).
-/

import Mcapi.PublicApi
import Mcapi.Faults

namespace Mcapi

open Outcome (Fails)

variable {E : Env} {w : World} {db : Database} {n p e : U32}

/-! ## Every state of every run -/

/-- The caller passes pointers that are not null and handles that it was given; the driver
    answers a create with a session that is free. -/
def Call.Careful (E : Env) (db : Database) : Call → Prop
  | .endpointCreate p => UsableCreate E db p ∧
    ∀ k, slotOf (E.drv .create (createPkt p)).pkt.sessionIdx = .ok k → (db.node0.endpoints k).valid = false
  | .endpointGetI _ _ _ e q => e ≠ 0 ∧ q ≠ none
  | .msgSendI _ _ _ _ _ q => q ≠ none
  | .test v _ | .wait v _ _ => v.toNat < maxRequests
  | _ => True

/-- Every get has a place for its handle, also one whose slot was given back. -/
def Placed (db : Database) : Prop := ∀ r, (db.requests r).type = .getEndpt → (db.requests r).buffer ≠ 0

def CarefulStep : Database → CallRec → Database → Prop := Lts.Guarded CallStep fun db l => l.call.Careful l.env db

/-- What careful calls keep. -/
structure Safe (db : Database) : Prop where
  table : TableInv db
  placed : Placed db

theorem TableInv.within (h : TableInv db) : ¬ Overruns db n p := by
  intro ho
  obtain ⟨i, hi, -, hover, -⟩ := ho
  have hi : i = 0 := by
    have h1 : (db.domains 0).numNodes.toNat = 1 := by rw [h.one]; rfl
    rwa [h1, Nat.lt_one_iff, Fin.val_eq_zero_iff] at hi
  subst hi
  exact absurd hover (not_lt.mpr h.bound)

theorem Safe.not_lost (h : Safe db) (r : Req) : ¬ (db.requests r).Lost db := fun hl => h.table.within hl.2

theorem Safe.has_place (h : Safe db) (r : Req) (timeout : U32) : ¬ (db.requests r).NoPlace E timeout :=
  fun hn => h.placed r hn.1 hn.2.1

theorem Safe.no_fault (h : Safe db) {c : Call} (hc : c.Careful E db) : ¬ c.Faults E db := by
  cases c with
  | domainIdGet => exact id
  | nodeIdGet => exact id
  | endpointCreate p =>
    intro hf
    obtain ⟨⟨-, -, hidx, hroom⟩, hfree⟩ := hc
    have hk : slotOf (E.drv .create (createPkt p)).pkt.sessionIdx = .ok ⟨_, Nat.lt_of_le_of_lt hidx hroom⟩ :=
      dif_pos (Nat.lt_of_le_of_lt hidx hroom)
    have hvalid := hf _ hk
    rw [hfree _ hk] at hvalid
    cases hvalid
  | endpointGetI d n p e q =>
    intro hf
    rcases hf with hf | hf | hf
    · exact h.table.within hf
    · exact hc.1 hf.2
    · rcases hf.2.2 with hq | ⟨-, he⟩
      · exact hc.2 hq
      · exact hc.1 he
  | endpointGet d n p t => exact h.table.within
  | endpointDelete e => exact fun hf => h.table.within hf.2
  | endpointGetAttribute e => exact fun hf => h.table.within hf.2
  | msgAvailable r => exact fun hf => h.table.within hf.2
  | msgSend s r b m t => exact fun hf => h.table.within hf.2
  | msgRecv r b m q => exact fun hf => h.table.within hf.2.2
  | msgSendI s r b m t q =>
    intro hf
    rcases hf with hf | ⟨-, hf | hf⟩
    · exact h.table.within hf.2
    · exact hc hf
    · exact h.table.within hf
  | msgRecvI r b m q =>
    intro hf
    rcases hf.2 with hf | hf
    · exact h.table.within hf.2.2
    · exact h.table.within hf.2
  | test v size =>
    intro hf
    rcases hf.2.2 with hge | ⟨r, -, -, -, hf⟩
    · exact absurd hc (not_lt.mpr hge)
    · exact hf.elim (h.not_lost r) (h.has_place r 0)
  | wait v size t =>
    intro hf
    rcases hf.2.2 with hge | ⟨r, -, hf | hf⟩
    · exact absurd hc (not_lt.mpr hge)
    · exact h.not_lost r hf
    · exact h.has_place r t hf.2

/-! ### What they keep -/

variable {db' : Database} {w' : World}

theorem Placed.setRequest (h : Placed db) {r : Req} {d : RequestData} (hd : d.type = .getEndpt → d.buffer ≠ 0) :
    Placed (db.setRequest r d) := by
  intro q
  by_cases hq : q = r
  · rw [hq, setRequest_same]
    exact hd
  · rw [setRequest_ne _ _ hq]
    exact h q

theorem Placed.take (h : Placed db) (r : Req) : Placed (db.take r) := by
  intro q
  by_cases hq : q = r
  · subst hq
    simpa [Database.take] using h q
  · rw [take_requests_ne db hq]
    exact h q

theorem Placed.dropped (h : Placed db) (r : Req) : Placed (dropped db r) := by
  unfold Mcapi.dropped
  split
  · intro q
    by_cases hq : q = r
    · subst hq
      rw [release_requests_same]
      exact h q
    · rw [release_requests_ne db hq]
      exact h q
  · exact h

theorem Placed.filled (h : Placed db) {i : Issuer} (hi : ∀ d n p e, i = .endpointGetI d n p e → e ≠ 0) (id : Req)
    (ret : Int) (pkt : SmPacket) : Placed (i.filled E db id ret pkt) := by
  refine (h.take id).setRequest ?_
  cases i with
  | endpointGetI d n p e => exact fun _ => hi d n p e rfl
  | msgSendI s r b n p => intro ht; cases ht
  | msgRecvI r b n => intro ht; cases ht

theorem issue_placed {i : Issuer} {q : Option U32} {x : Issue} (hx : i.exec .std E w q = .ok (x, w'))
    (hi : ∀ d n p e, i = .endpointGetI d n p e → e ≠ 0) (h : Placed w.db) : Placed w'.db := by
  cases issue_cases hx with
  | refused => exact h
  | found w' _ hdb => rw [hdb]; exact h
  | limit => exact h
  | missing id => exact h.take id
  | noBuffer id w' _ _ _ hdb => rw [hdb]; exact h.filled hi id _ _
  | command id c p w' _ _ _ hdb => rw [hdb]; exact h.filled hi id _ _

theorem SameOperation.place {d d' : RequestData} (hs : SameOperation d d') (h : d.type = .getEndpt → d.buffer ≠ 0) :
    d'.type = .getEndpt → d'.buffer ≠ 0 := by
  obtain ⟨completed, size, rfl⟩ := hs
  exact h

theorem Placed.step (h : Placed db) {l : CallRec} (hs : CallStep db l db') (hc : l.call.Careful l.env db) :
    Placed db' := by
  cases call_effect hs with
  | quiet db' hq =>
    intro r
    rw [hq.1]
    exact h r
  | reserve i q id d hcall =>
    obtain ⟨rfl, he, -, hx⟩ := hs
    rw [hcall] at hx hc
    obtain ⟨y, -, hx⟩ := issue_exec hx
    rw [← he]
    refine issue_placed hx ?_ h
    intro d n p e hi
    subst hi
    exact hc.1
  | rewrite r d _ _ hd => exact h.setRequest (hd.place (h r))
  | drop r d _ _ hd => exact (h.setRequest (hd.place (h r))).dropped r

/-- Calls with usable creates keep the table. -/
theorem TableInv.call (h : TableInv db) {l : CallRec} (hs : CallStep db l db')
    (hu : ∀ p, l.call = .endpointCreate p → UsableCreate l.env db p) : TableInv db' := by
  have only {m : U32} {i : Fin maxNodes} (hi : transGetNodeIndex .std db m = .ok (some i)) : i = 0 := by
    have hlisted := (nodeIndex_found hi).1
    have h1 : (db.domains 0).numNodes.toNat = 1 := by rw [h.one]; rfl
    rwa [h1, Nat.lt_one_iff, Fin.val_eq_zero_iff] at hlisted
  cases hs.table with
  | kept db' hd => exact h.congr hd
  | created i k p db' hcall hi hk _ _ hdb =>
    obtain ⟨hfit, hnew, hidx, hroom⟩ := hu p hcall
    rw [← slotOf_val hk] at hidx
    rw [hdb, only hi]
    exact h.create hfit hnew hidx hroom
  | deleted i k e db' _ hi _ hdb =>
    rw [hdb, only hi]
    exact h.delete k

theorem Safe.step (h : Safe db) {l : CallRec} (hs : CallStep db l db') (hc : l.call.Careful l.env db) : Safe db' := by
  refine ⟨h.table.call hs fun p hp => ?_, h.placed.step hs hc⟩
  rw [hp] at hc
  exact hc.1

theorem initialised_safe (d : U32) (a : Option NodeAttributes) : Safe (initialised d 0 a) := by
  refine ⟨initialised_table d a, fun r hr => ?_⟩
  rw [initialised, addNode_requests] at hr
  cases hr

/-- After any run of careful calls on node 0, a careful call returns. -/
theorem careful_returns {d : U32} {a : Option NodeAttributes} {ls : List CallRec}
    (h : Lts.Run CarefulStep (initialised d 0 a) ls db) (hw : w.db = db) {c : Call} (hc : c.Careful E db) :
    ∃ x w', c.exec .std E w = .ok (x, w') := by
  have hsafe : Safe db := h.keeps (fun _ hi hs => hi.step hs.2 hs.1) (initialised_safe d a)
  have hret : ¬ Fails (c.exec .std E w) := by
    rw [exec_fails c fun _ _ => ⟨0, by rw [hw]; exact hsafe.table.oneNode.first⟩, hw]
    exact hsafe.no_fault hc
  obtain ⟨y, hy⟩ := Outcome.not_fails_iff.mp hret
  exact ⟨y.1, y.2, hy⟩

theorem opened5_careful :
    CarefulStep (initialised 0 0 none) ((Call.endpointCreate 5).record sessionOne (initialised 0 0 none)) onePort := by
  refine ⟨⟨by decide +kernel, fun k hk => ?_⟩, record_step rfl⟩
  cases hk
  decide +kernel

/-- With port 5 there, a get of another one returns. -/
theorem get_seven_returns :
    ∃ x w', (Call.endpointGetI 0 7 5 4096 (some 0)).exec .std willing { db := onePort } = .ok (x, w') := by
  have hc : (Call.endpointGetI 0 7 5 4096 (some 0)).Careful willing onePort := ⟨by decide, Option.some_ne_none 0⟩
  exact careful_returns (w := { db := onePort }) (.single opened5_careful) rfl hc

end Mcapi
