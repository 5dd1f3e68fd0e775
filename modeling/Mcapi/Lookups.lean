/-
  Mcapi.Lookups — where a handle leads, and what one call does to that.

  The nodes of a domain have different numbers, so a lookup scans one node, and finds the
  first entry below `num_endpoints` that is valid and has the port (`lookup_iff`). A call
  leads a handle to an endpoint it did not lead to before only in two ways: a create puts
  an endpoint first on the port (in the entry it fills, or in one its count reaches), or
  the delete of the first one leaves another (`KeepsFirst.leads`).
-/

import Mcapi.Domains

namespace Mcapi

variable {db db' : Database} {e : U32} {i : Fin maxNodes} {j k : Slot}

/-- The port a handle is looked up by. -/
def portOf (e : U32) : U32 := (transDecodeHandleInternal e).portId.setWidth 32

/-- The node it is looked up under. -/
def nodeOf (e : U32) : U32 := (transDecodeHandleInternal e).nodeId.setWidth 32

/-- The node entry a handle is looked up in. -/
structure NodeOf (db : Database) (e : U32) (i : Fin maxNodes) : Prop where
  listed : i.val < (db.domains 0).numNodes.toNat
  number : ((db.domains 0).nodes i).nodeNum = (transDecodeHandleInternal e).nodeId.setWidth 32

/-- Entry `j` is one with the handle's port, on its node. -/
def OnPort (db : Database) (e : U32) (j : Slot) : Prop :=
  ∃ i, NodeOf db e i ∧ portMatches ((db.domains 0).nodes i) (portOf e) j = true

instance (db : Database) (e : U32) (i : Fin maxNodes) : Decidable (NodeOf db e i) :=
  decidable_of_iff (_ ∧ _) ⟨fun h => ⟨h.1, h.2⟩, fun h => ⟨h.listed, h.number⟩⟩

instance (db : Database) (e : U32) (j : Slot) : Decidable (OnPort db e j) := inferInstanceAs (Decidable (∃ _, _))

/-! ## What a lookup finds -/

theorem RegistryInv.same_number (hr : RegistryInv db) {i j : Fin maxNodes} (hi : i.val < (db.domains 0).numNodes.toNat)
    (hj : j.val < (db.domains 0).numNodes.toNat)
    (he : ((db.domains 0).nodes i).nodeNum = ((db.domains 0).nodes j).nodeNum) : i = j := by
  have hfilled := (hr.nodes 0).filled
  exact (hr.nodes 0).distinct i j ((hfilled i).mpr hi) ((hfilled j).mpr hj) he

theorem NodeOf.unique (hr : RegistryInv db) {i j : Fin maxNodes} (hi : NodeOf db e i) (hj : NodeOf db e j) : i = j :=
  hr.same_number hi.listed hj.listed (hi.number.trans hj.number.symm)

theorem nodeIndex_found {n : U32} (h : transGetNodeIndex .std db n = .ok (some i)) :
    i.val < (db.domains 0).numNodes.toNat ∧ ((db.domains 0).nodes i).nodeNum = n := by
  unfold transGetNodeIndex at h
  split at h
  · rename_i m hm
    cases h
    have hfound := (Tables.find_eq_some_iff.mp hm).1
    simpa only [Bool.and_eq_true, decide_eq_true_eq, beq_iff_eq] using hfound
  · cases h

/-- A lookup finds the first entry on the port. -/
theorem lookup_iff (hr : RegistryInv db) :
    lookup db e = .ok (some k) ↔ ∃ i, NodeOf db e i ∧ First ((db.domains 0).nodes i) (portOf e) k := by
  constructor
  · intro h
    by_cases hno : ∃ i, NodeOf db e i
    · obtain ⟨i, hi⟩ := hno
      rw [lookup, portIndex_node hi.listed hi.number fun j hj hn => NodeOf.unique hr ⟨hj, hn⟩ hi] at h
      exact ⟨i, hi, (scan_iff std_overrun_ne).mp h⟩
    · rw [lookup, portIndex_absent fun j hj hn => hno ⟨j, hj, hn⟩] at h
      cases h
  · rintro ⟨i, hi, hk⟩
    rw [lookup, portIndex_node hi.listed hi.number fun j hj hn => NodeOf.unique hr ⟨hj, hn⟩ hi]
    exact (scan_iff std_overrun_ne).mpr hk

theorem lookup_congr (h : db'.domains = db.domains) (e : U32) : lookup db' e = lookup db e := by
  unfold lookup transGetPortIndex
  rw [h]

theorem SameRegistry.nodeOf (h : SameRegistry db db') (hi : NodeOf db' e i) : NodeOf db e i := by
  refine ⟨?_, ?_⟩
  · rw [← h.numNodes]
    exact hi.listed
  · rw [← h.numbers]
    exact hi.number

@[simp] theorem setNode_same (db : Database) (i : Fin maxNodes) (x : NodeEntry) :
    ((db.setNode i x).domains 0).nodes i = x := by
  simp [Database.setNode]

theorem setNode_other (db : Database) {i m : Fin maxNodes} (hm : m ≠ i) (x : NodeEntry) :
    ((db.setNode i x).domains 0).nodes m = (db.domains 0).nodes m := by
  simp [Database.setNode, hm]

/-! ## What a call does to it -/

/-- The create `l` puts entry `j` on the handle's port: it fills it, or its count reaches
    it. -/
def Brings (db : Database) (e : U32) (l : CallRec) (j : Slot) : Prop :=
  ∃ p k, l.call = .endpointCreate p ∧ slotOf (l.env.drv .create (createPkt p)).pkt.sessionIdx = .ok k ∧
    NodeOf db e 0 ∧ j.val < (db.node0.numEndpoints + 1).toNat ∧
    (j = k ∧ p = portOf e ∨
      j.val = db.node0.numEndpoints.toNat ∧ (db.node0.endpoints j).valid = true ∧
        (db.node0.endpoints j).portNum = portOf e)

/-- What `l` creates on the handle's port comes after the endpoint the handle leads to,
    and if `l` deletes that one there is no other. -/
structure KeepsFirst (db : Database) (e : U32) (l : CallRec) : Prop where
  creates : ∀ j, Brings db e l j → ∃ k < j, lookup db e = .ok (some k)
  deletes : ∀ e' k, l.call = .endpointDelete e' →
    (transDecodeHandleInternal e').nodeId = (transDecodeHandleInternal e).nodeId →
    lookup db e' = .ok (some k) → lookup db e = .ok (some k) → ∀ j, OnPort db e j → j = k

/-- In a node with entry `k` filled, another entry is on a port as before, as far as the
    count reaches. -/
theorem create_matches {x : NodeEntry} {p q : U32} (hj : j ≠ k) : portMatches (x.create k q) p j = true ↔
    j.val < (x.numEndpoints + 1).toNat ∧ (x.endpoints j).valid = true ∧ (x.endpoints j).portNum = p := by
  rw [portMatches_iff]
  simp [NodeEntry.create, hj]

theorem delete_matches {x : NodeEntry} {p : U32} :
    portMatches (x.delete k) p j = true ↔ j ≠ k ∧ portMatches x p j = true := by
  rw [portMatches_iff, portMatches_iff]
  by_cases hj : j = k
  · subst hj
    simp [NodeEntry.delete]
  · simp [NodeEntry.delete, hj]

/-- Of a node with entry `k` filled, the first on the port was the first before, if what
    is new there comes after that. -/
theorem First.of_create {x : NodeEntry} {p q : U32} (hfree : (x.endpoints k).valid = false)
    (hnew : ∀ j, j.val < (x.numEndpoints + 1).toNat → (j = k ∧ q = p ∨
      j.val = x.numEndpoints.toNat ∧ (x.endpoints j).valid = true ∧ (x.endpoints j).portNum = p) → ∃ i < j, First x p i)
    (hj : First (x.create k q) p j) : First x p j := by
  obtain ⟨hmatch, hbefore⟩ := hj
  have hbound := (portMatches_iff.mp hmatch).1
  have hnone : ∀ i < j, portMatches x p i = false := by
    intro i hij
    rw [← Bool.not_eq_true]
    intro hi
    obtain ⟨-, hvalid, hport⟩ := portMatches_iff.mp hi
    have hik : i ≠ k := by
      rintro rfl
      rw [hfree] at hvalid
      cases hvalid
    have hstill := (create_matches (q := q) hik).mpr ⟨lt_trans hij hbound, hvalid, hport⟩
    rw [hbefore i hij] at hstill
    cases hstill
  refine ⟨?_, hnone⟩
  by_contra hold
  obtain ⟨i, hij, hi, -⟩ := hnew j hbound (by
    by_cases hjk : j = k
    · subst hjk
      exact .inl ⟨rfl, by simpa [NodeEntry.create, filledEntry] using (portMatches_iff.mp hmatch).2.2⟩
    · obtain ⟨hcount, hvalid, hport⟩ := (create_matches hjk).mp hmatch
      have hpast : ¬ j.val < x.numEndpoints.toNat := fun hlt => hold (portMatches_iff.mpr ⟨hlt, hvalid, hport⟩)
      have h1 : (1 : U16).toNat = 1 := rfl
      rw [BitVec.toNat_add, h1] at hcount
      exact .inr ⟨by omega, hvalid, hport⟩)
  rw [hnone i hij] at hi
  cases hi

/-- Of a node with entry `k` zeroed, the first on the port was the first before, if entry
    `k` was not, or the only one. -/
theorem First.of_delete {x : NodeEntry} {p : U32} (honly : First x p k → ∀ j, portMatches x p j = true → j = k)
    (hj : First (x.delete k) p j) : First x p j := by
  obtain ⟨hmatch, hbefore⟩ := hj
  obtain ⟨hjk, hold⟩ := delete_matches.mp hmatch
  have hnone : ∀ i < j, i ≠ k → portMatches x p i = false := by
    intro i hij hik
    rw [← Bool.not_eq_true]
    intro hi
    have hstill := delete_matches.mpr ⟨hik, hi⟩
    rw [hbefore i hij] at hstill
    cases hstill
  refine ⟨hold, ?_⟩
  intro i hij
  by_cases hik : i = k
  · subst hik
    rw [← Bool.not_eq_true]
    intro hi
    exact hjk (honly ⟨hi, fun m hm => hnone m (lt_trans hm hij) hm.ne⟩ j hold)
  · exact hnone i hij hik

/-- A call that keeps the first endpoint on the handle's port leads the handle only where
    it led before. -/
theorem KeepsFirst.leads (hr : RegistryInv db) {l : CallRec} (hs : CallStep db l db') (h : KeepsFirst db e l)
    (hj : lookup db' e = .ok (some j)) : lookup db e = .ok (some j) := by
  have htable := hs.table
  obtain ⟨i, hi, hfirst⟩ := (lookup_iff (hr.congr htable.sameRegistry)).mp hj
  have hnode := htable.sameRegistry.nodeOf hi
  cases htable with
  | kept db' hdom => rwa [lookup_congr hdom] at hj
  | created m k p db' hc hm hk hfree _ hdb =>
    subst hdb
    obtain ⟨hlisted, hnum⟩ := nodeIndex_found hm
    have hfirst0 : (0 : Fin maxNodes).val < (db.domains 0).numNodes.toNat := lt_of_le_of_lt (Nat.zero_le _) hlisted
    obtain rfl : m = 0 := hr.same_number hlisted hfirst0 hnum
    by_cases h0 : i = 0
    · subst h0
      rw [setNode_same] at hfirst
      refine (lookup_iff hr).mpr ⟨0, hnode, hfirst.of_create hfree ?_⟩
      intro j hcount hnew
      obtain ⟨k', hlt, hlook⟩ := h.creates j ⟨p, k, hc, hk, hnode, hcount, hnew⟩
      obtain ⟨i, hi, hfirst⟩ := (lookup_iff hr).mp hlook
      obtain rfl := hi.unique hr hnode
      exact ⟨k', hlt, hfirst⟩
    · rw [setNode_other db h0] at hfirst
      exact (lookup_iff hr).mpr ⟨i, hnode, hfirst⟩
  | deleted m k e' db' hc hm hk hdb =>
    subst hdb
    by_cases him : i = m
    · subst him
      rw [setNode_same] at hfirst
      refine (lookup_iff hr).mpr ⟨i, hnode, hfirst.of_delete ?_⟩
      intro hk' j hj
      have hsame : (transDecodeHandleInternal e').nodeId = (transDecodeHandleInternal e).nodeId := by
        have hnum := (nodeIndex_found hm).2.symm.trans hnode.number
        simpa using congrArg (BitVec.setWidth 16) hnum
      exact h.deletes e' k hc hsame hk ((lookup_iff hr).mpr ⟨i, hnode, hk'⟩) j ⟨i, hnode, hj⟩
    · rw [setNode_other db him] at hfirst
      exact (lookup_iff hr).mpr ⟨i, hnode, hfirst⟩

end Mcapi
