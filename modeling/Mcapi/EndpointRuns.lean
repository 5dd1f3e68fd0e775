/-
  Mcapi.EndpointRuns — creates and deletes of endpoints, over whole runs.

  A handle is looked up by node 0 and a port of 16 bits, among the first `num_endpoints`
  entries, whatever its domain. `Usable` are the steps that stay within that: a port
  that fits and that no live endpoint has, a session index that the count covers, fewer
  than 32 creates, and no delete of a live endpoint under another domain. They keep
  `TableInv`, and in a run of them on node 0 a handle stays usable until it is deleted
  (`created_handle_stays_usable`). On node 3, or with `MCAPI_PORT_ANY`, it is not usable
  at all (`node_three_unusable`).
-/

import Mcapi.Processes
import Mcapi.Lib.Tables

namespace Mcapi

variable {E : Env} {w w' : World} {db db' : Database}

/-! ## Lookups in the table of the only node -/

/-- The first node of domain 0 has number `n`. -/
structure FirstNode (n : U32) (db : Database) : Prop where
  listed : 0 < (db.domains 0).numNodes.toNat
  valid : (db.domains 0).valid = true
  node : db.node0.nodeNum = n

/-- Domain 0 has one node, number `n`. -/
structure OneNode (n : U32) (db : Database) : Prop where
  one : (db.domains 0).numNodes = 1
  valid : (db.domains 0).valid = true
  node : db.node0.nodeNum = n

section
variable {B : Build} {n : U32}

theorem OneNode.portIndex (h : OneNode n db) (m p : U32) :
    transGetPortIndex B db m p = if m = n then scanPorts B db.node0 p else .ok none := by
  have hlisted (j : Fin maxNodes) : j.val < (db.domains 0).numNodes.toNat ↔ j = 0 := by
    have h1 : (db.domains 0).numNodes.toNat = 1 := by rw [h.one]; rfl
    rw [h1, Nat.lt_one_iff, Fin.val_eq_zero_iff]
  have hnum : ((db.domains 0).nodes 0).nodeNum = n := h.node
  by_cases hm : m = n
  · rw [if_pos hm]
    exact portIndex_node ((hlisted 0).mpr rfl) (hnum.trans hm.symm) fun j hj _ => (hlisted j).mp hj
  · rw [if_neg hm]
    refine portIndex_absent fun j hj he => hm ?_
    rw [(hlisted j).mp hj] at he
    exact he.symm.trans hnum

theorem FirstNode.nodeIndex (h : FirstNode n db) : transGetNodeIndex B db n = .ok (some 0) := by
  have hn : ((db.domains 0).nodes 0).nodeNum = n := h.node
  have hl : List.finRange maxNodes = [0, 1] := rfl
  rw [transGetNodeIndex, hl, List.find?_cons_of_pos (by simp [hn, h.listed])]

theorem OneNode.first (h : OneNode n db) : FirstNode n db := ⟨by rw [h.one]; exact Nat.one_pos, h.valid, h.node⟩

theorem OneNode.nodeIndex (h : OneNode n db) : transGetNodeIndex B db n = .ok (some 0) := h.first.nodeIndex

end

/-- Slot `k` holds a live endpoint on port `p`. -/
def Holds (db : Database) (k : Slot) (p : U32) : Prop :=
  (db.node0.endpoints k).valid = true ∧ (db.node0.endpoints k).portNum = p

/-- The table of the only node, node 0: what its creates and deletes keep. -/
structure TableInv (db : Database) : Prop where
  one : (db.domains 0).numNodes = 1
  valid : (db.domains 0).valid = true
  node : db.node0.nodeNum = 0
  bound : db.node0.numEndpoints.toNat ≤ maxEndpoints
  below : ∀ k p, Holds db k p → k.val < db.node0.numEndpoints.toNat
  fits : ∀ k p, Holds db k p → p.toNat < 65536
  closed : ∀ k p, Holds db k p → (db.node0.endpoints k).isOpen = false
  distinct : ∀ j k p, Holds db j p → Holds db k p → j = k

theorem TableInv.oneNode (h : TableInv db) : OneNode 0 db := ⟨h.one, h.valid, h.node⟩

theorem TableInv.congr (h : TableInv db) (hd : db'.domains = db.domains) : TableInv db' := by
  obtain ⟨domains, requests, header⟩ := db'
  change domains = db.domains at hd
  subst hd
  exact ⟨h.one, h.valid, h.node, h.bound, h.below, h.fits, h.closed, h.distinct⟩

theorem Holds.congr (hd : db'.domains = db.domains) {k : Slot} {p : U32} : Holds db' k p ↔ Holds db k p := by
  rw [Holds, Holds, Database.node0, Database.node0, hd]

theorem getPortIndex_eq (h : TableInv db) (p : U32) : transGetPortIndex .std db 0 p = scanPorts .std db.node0 p := by
  rw [h.oneNode.portIndex, if_pos rfl]

/-- A valid entry with the port is what the lookup finds. -/
theorem getPortIndex_holds (h : TableInv db) {k : Slot} {p : U32} (hk : Holds db k p) :
    transGetPortIndex .std db 0 p = .ok (some k) := by
  have hf : (List.finRange maxEndpoints).find? (portMatches db.node0 p) = some k := by
    refine Tables.find_unique (portMatches_iff.mpr ⟨h.below k p hk, hk⟩) ?_
    intro j hj
    exact h.distinct j k p (portMatches_iff.mp hj).2 hk
  rw [getPortIndex_eq h, scan_within h.bound, hf]

theorem holds_of_getPortIndex (h : TableInv db) {k : Slot} {p : U32}
    (hk : transGetPortIndex .std db 0 p = .ok (some k)) : Holds db k p := by
  rw [getPortIndex_eq h] at hk
  exact scan_found std_overrun_ne hk

/-- With no such entry it finds nothing, as long as it stays in the table. -/
theorem getPortIndex_none (h : TableInv db) {p : U32} (hk : ∀ k, ¬ Holds db k p) :
    transGetPortIndex .std db 0 p = .ok none := by
  have hf : (List.finRange maxEndpoints).find? (portMatches db.node0 p) = none := by
    refine Tables.find_eq_none_iff.mpr ?_
    intro j
    rw [← Bool.not_eq_true]
    intro hj
    exact hk j (portMatches_iff.mp hj).2
  rw [getPortIndex_eq h, scan_within h.bound, hf]

theorem lookup_endpointHandle (db : Database) {p : U32} (hp : p.toNat < 65536) :
    lookup db (endpointHandle 0 p) = transGetPortIndex .std db 0 p := by
  unfold lookup
  rw [(endpointHandle_names 0 p).1, (endpointHandle_names 0 p).2, portField_of_lt hp]
  rfl

theorem endpointHandle_master (p : U32) : (transDecodeHandleInternal (endpointHandle 0 p)).nodeId = 0 := by
  rw [endpointHandle, decode_encode]
  rfl

theorem validEndpoint_holds (h : TableInv db) {k : Slot} {p : U32} (hp : p.toNat < 65536) (hk : Holds db k p) :
    transValidEndpoint .std db (endpointHandle 0 p) = .ok true := by
  have hl := (lookup_endpointHandle db hp).trans (getPortIndex_holds h hk)
  unfold lookup at hl
  simp only [transValidEndpoint, endpointHandle_master, masterNodeNum, ne_eq, not_true_eq_false, if_false] at hl ⊢
  rw [hl, ok_bind]
  exact congrArg Except.ok hk.1

theorem validEndpoint_gone (h : TableInv db) {p : U32} (hp : p.toNat < 65536) (hk : ∀ k, ¬ Holds db k p) :
    transValidEndpoint .std db (endpointHandle 0 p) = .ok false := by
  have hl := (lookup_endpointHandle db hp).trans (getPortIndex_none h hk)
  unfold lookup at hl
  simp only [transValidEndpoint, endpointHandle_master, masterNodeNum, ne_eq, not_true_eq_false, if_false] at hl ⊢
  rw [hl, ok_bind]

theorem nodeIndex_master (h : TableInv db) : transGetNodeIndex .std db 0 = .ok (some 0) := h.oneNode.nodeIndex

/-! ## Creating and deleting -/

/-- Deleting the handle of a live endpoint clears its slot. -/
theorem delete_holds (h : TableInv w.db) {k : Slot} {p : U32} (hp : p.toNat < 65536) (hk : Holds w.db k p) :
    ∃ w', endpointDelete .std E w (endpointHandle 0 p) = .ok (.success, w') ∧
      w'.db = w.db.setNode 0 (w.db.node0.delete k) := by
  have hl := (lookup_endpointHandle w.db hp).trans (getPortIndex_holds h hk)
  unfold lookup at hl
  have hn : (transDecodeHandleInternal (endpointHandle 0 p)).nodeId.setWidth 32 = (0 : U32) := by
    rw [endpointHandle_master]; rfl
  rw [hn] at hl
  simp only [endpointDelete, validEndpoint_holds h hp hk, ok_bind, Bool.not_true, Bool.false_eq_true, if_false,
    transEndpointIsowner, transEndpointChannelIsopen, assertDecode_std, hn, hl, h.closed k p hk, transEndpointDelete,
    nodeIndex_master h]
  exact ⟨_, rfl, rfl⟩

/-- Deleting a handle on a port that no endpoint has is refused. -/
theorem delete_gone (h : TableInv w.db) {p : U32} (hp : p.toNat < 65536) (hk : ∀ k, ¬ Holds w.db k p) :
    endpointDelete .std E w (endpointHandle 0 p) = .ok (.errEndpInvalid, w) := by
  simp only [endpointDelete, validEndpoint_gone h hp hk, ok_bind, Bool.not_false, if_true]

/-! ## Steps -/

/-- A create or a delete. -/
def EndpointStep (db : Database) (l : CallRec) (db' : Database) : Prop :=
  CallStep db l db' ∧ ((∃ p, l.call = .endpointCreate p) ∨ ∃ e, l.call = .endpointDelete e)

/-- A create of a port that fits a handle and that no live endpoint has, at an index that
    `num_endpoints` then covers, below the end of the table. -/
def UsableCreate (E : Env) (db : Database) (p : U32) : Prop :=
  p.toNat < 65536 ∧ (∀ k, ¬ Holds db k p) ∧
    (E.drv .create (createPkt p)).pkt.sessionIdx.toNat ≤ db.node0.numEndpoints.toNat ∧
    db.node0.numEndpoints.toNat < maxEndpoints

/-- A delete under domain 0, as handles are given out, or of nothing. -/
def UsableDelete (db : Database) (e : U32) : Prop :=
  (transDecodeHandleInternal e).domainId = 0 ∨ lookup db e = .ok none

def Usable (db : Database) (l : CallRec) : Prop :=
  (∀ p, l.call = .endpointCreate p → UsableCreate l.env db p) ∧ ∀ e, l.call = .endpointDelete e → UsableDelete db e

@[simp] theorem setNode_node0 (db : Database) (n : NodeEntry) : (db.setNode 0 n).node0 = n := by
  simp [Database.setNode, Database.node0]

theorem slotOf_val {x : U32} {k : Slot} (h : slotOf x = .ok k) : k.val = x.toNat := by
  unfold slotOf at h
  split at h
  · cases h; rfl
  · cases h

/-- As an `int`, an index of the table is not negative. -/
theorem slotOf_msb {x : U32} {k : Slot} (h : slotOf x = .ok k) : x.msb = false := by
  have hlt : x.toNat < 32 := by
    rw [← slotOf_val h]
    exact k.isLt
  rw [BitVec.msb_eq_decide, decide_eq_false_iff_not]
  omega

theorem holds_create {k j : Slot} {p q : U32} :
    Holds (db.setNode 0 (db.node0.create k p)) j q ↔ (j = k ∧ q = p) ∨ (j ≠ k ∧ Holds db j q) := by
  by_cases hj : j = k
  · subst hj
    simp only [Holds, setNode_node0, NodeEntry.create, Function.update_self, filledEntry, true_and, ne_eq,
      not_true_eq_false, false_and, or_false]
    exact eq_comm
  · simp [Holds, NodeEntry.create, hj]

theorem holds_delete {k j : Slot} {q : U32} :
    Holds (db.setNode 0 (db.node0.delete k)) j q ↔ j ≠ k ∧ Holds db j q := by
  by_cases hj : j = k
  · subst hj
    simp [Holds, NodeEntry.delete]
  · simp [Holds, NodeEntry.delete, hj]

/-- A create adds one to the count, as 16 bits have it. -/
theorem create_count (x : NodeEntry) (k : Slot) (p : U32) (h : x.numEndpoints.toNat ≤ maxEndpoints) :
    (x.create k p).numEndpoints.toNat = x.numEndpoints.toNat + 1 := by
  have h32 : x.numEndpoints.toNat ≤ 32 := h
  have h1 : (1 : U16).toNat = 1 := rfl
  rw [NodeEntry.create, BitVec.toNat_add, h1]
  omega

theorem TableInv.create (h : TableInv db) {k : Slot} {p : U32} (hp : p.toNat < 65536) (hne : ∀ k, ¬ Holds db k p)
    (hk : k.val ≤ db.node0.numEndpoints.toNat) (hb : db.node0.numEndpoints.toNat < maxEndpoints) :
    TableInv (db.setNode 0 (db.node0.create k p)) := by
  have hadd := create_count db.node0 k p h.bound
  refine ⟨h.one, h.valid, ?_, ?_, ?_, ?_, ?_, ?_⟩
  · rw [setNode_node0]; exact h.node
  · rw [setNode_node0, hadd]; exact hb
  · intro j q hj
    rw [setNode_node0, hadd]
    rcases holds_create.mp hj with ⟨rfl, -⟩ | ⟨-, hj⟩
    · omega
    · exact Nat.lt_succ_of_lt (h.below j q hj)
  · intro j q hj
    rcases holds_create.mp hj with ⟨-, rfl⟩ | ⟨-, hj⟩
    · exact hp
    · exact h.fits j q hj
  · intro j q hj
    rw [setNode_node0]
    rcases holds_create.mp hj with ⟨rfl, -⟩ | ⟨hjk, hj⟩
    · simp [NodeEntry.create, filledEntry]
    · simp [NodeEntry.create, hjk, h.closed j q hj]
  · intro i j q hi hj
    rcases holds_create.mp hi with ⟨hik, hqp⟩ | ⟨-, hi⟩
    · rcases holds_create.mp hj with ⟨hjk, -⟩ | ⟨-, hj⟩
      · exact hik.trans hjk.symm
      · exact absurd (hqp ▸ hj) (hne j)
    · rcases holds_create.mp hj with ⟨-, hqp⟩ | ⟨-, hj⟩
      · exact absurd (hqp ▸ hi) (hne i)
      · exact h.distinct i j q hi hj

theorem TableInv.delete (h : TableInv db) (k : Slot) : TableInv (db.setNode 0 (db.node0.delete k)) := by
  refine ⟨h.one, h.valid, ?_, ?_, ?_, ?_, ?_, ?_⟩
  · rw [setNode_node0]; exact h.node
  · rw [setNode_node0]; exact h.bound
  · intro j q hj
    rw [setNode_node0]
    exact h.below j q (holds_delete.mp hj).2
  · exact fun j q hj => h.fits j q (holds_delete.mp hj).2
  · intro j q hj
    obtain ⟨hjk, hj⟩ := holds_delete.mp hj
    rw [setNode_node0]
    simp [NodeEntry.delete, hjk, h.closed j q hj]
  · exact fun i j q hi hj => h.distinct i j q (holds_delete.mp hi).2 (holds_delete.mp hj).2

/-- What a create or a delete does to such a table. -/
inductive TableStep (db : Database) (l : CallRec) : Database → Prop
  | same (db' : Database) : db' = db → (∀ p, l.call ≠ .endpointCreate p) → TableStep db l db'
  | created (k : Slot) (p : U32) (db' : Database) : l.call = .endpointCreate p →
      slotOf (l.env.drv .create (createPkt p)).pkt.sessionIdx = .ok k → (db.node0.endpoints k).valid = false →
      l.ret = .value (endpointHandle 0 p) .success → db' = db.setNode 0 (db.node0.create k p) → TableStep db l db'
  | deleted (k : Slot) (p : U32) (e : U32) (db' : Database) : l.call = .endpointDelete e → Holds db k p →
      (transDecodeHandleInternal e).nodeId = 0 → (transDecodeHandleInternal e).portId.setWidth 32 = p →
      db' = db.setNode 0 (db.node0.delete k) → TableStep db l db'

theorem EndpointStep.cases (h : TableInv db) {l : CallRec} (hs : EndpointStep db l db') : TableStep db l db' := by
  obtain ⟨⟨rfl, rfl, -, he⟩, ⟨p, hc⟩ | ⟨e, hc⟩⟩ := hs
  · have hnum : transGetNodeNum l.before.db = 0 := h.node
    rw [hc] at he
    obtain ⟨⟨x, w1⟩, hx, he⟩ := bind_eq_ok.mp he
    have hret : l.ret = .value x.1 x.2 ∧ l.after = w1 := by
      simp only [Except.ok.injEq, Prod.mk.injEq] at he
      exact ⟨he.1.symm, he.2.symm⟩
    obtain ⟨hret, hafter⟩ := hret
    cases create_cases hx with
    | notInit e hv => rw [h.valid] at hv; cases hv
    | created i k w1 hi hk hfree hdb _ =>
      rw [hnum, nodeIndex_master h] at hi
      cases hi
      rw [hnum] at hret
      exact .created k p _ hc hk hfree hret (by rw [hafter]; exact hdb)
  · rw [hc] at he
    obtain ⟨⟨st, w1⟩, hx, he⟩ := bind_eq_ok.mp he
    have hafter : l.after = w1 := by
      simp only [Except.ok.injEq, Prod.mk.injEq] at he
      exact he.2.symm
    cases delete_cases hx with
    | refused => exact .same _ (by rw [hafter]) fun p => by rw [hc]; nofun
    | deleted i k w1 hv hi hl hdb _ =>
      obtain ⟨hn, k', hk', hval⟩ := validEndpoint_true hv
      have hn0 : (transDecodeHandleInternal e).nodeId.setWidth 32 = (0 : U32) := by rw [hn]; rfl
      rw [hn0, nodeIndex_master h] at hi
      cases hi
      unfold lookup at hl
      rw [hn0] at hl
      exact .deleted k _ e _ hc (holds_of_getPortIndex h hl) hn rfl (by rw [hafter]; exact hdb)

/-- Usable steps keep the table. -/
theorem EndpointStep.inv (h : TableInv db) {l : CallRec} (hs : EndpointStep db l db') (hu : Usable db l) :
    TableInv db' := by
  cases hs.cases h with
  | same db' he => rw [he]; exact h
  | created k p db' hc hk _ _ he =>
    obtain ⟨hp, hne, hi, hb⟩ := hu.1 p hc
    rw [he]
    exact h.create hp hne (by rw [slotOf_val hk]; exact hi) hb
  | deleted k p e db' _ _ _ _ he => rw [he]; exact h.delete k

/-- A delete under domain 0 that clears the slot of port `p` is a delete of its handle. -/
theorem handle_of_delete {e p : U32} (hd : (transDecodeHandleInternal e).domainId = 0)
    (hn : (transDecodeHandleInternal e).nodeId = 0) (hp : (transDecodeHandleInternal e).portId.setWidth 32 = p) :
    e = endpointHandle 0 p := by
  have h16 : p.setWidth 16 = (transDecodeHandleInternal e).portId := by
    rw [← hp]
    apply BitVec.eq_of_toNat_eq
    simp
  have he := encode_decode e
  rw [hd, hn, ← h16] at he
  exact he.symm

/-- Until its handle is deleted, an endpoint stays in its slot. -/
theorem holds_kept {k : Slot} {p : U32} {ls : List CallRec}
    (hrun : Lts.Run (Lts.Guarded EndpointStep Usable) db ls db') (hi : TableInv db) (hk : Holds db k p)
    (hne : ∀ l ∈ ls, l.call ≠ .endpointDelete (endpointHandle 0 p)) : TableInv db' ∧ Holds db' k p := by
  refine hrun.keeps (I := fun db => TableInv db ∧ Holds db k p) ?_ ⟨hi, hk⟩
  intro db l db' hl hb hstep
  obtain ⟨hi, hk⟩ := hb
  obtain ⟨hu, hs⟩ := hstep
  refine ⟨hs.inv hi hu, ?_⟩
  cases hs.cases hi with
  | same db' he => rw [he]; exact hk
  | created j q db' _ _ hfree _ he =>
    have hkj : k ≠ j := by
      intro he
      rw [← he, hk.1] at hfree
      cases hfree
    rw [he]
    exact holds_create.mpr (.inr ⟨hkj, hk⟩)
  | deleted j q e db' hc hj hn hq he =>
    rw [he]
    refine holds_delete.mpr ⟨?_, hk⟩
    intro hkj
    have hqp : q = p := by rw [← hj.2, ← hkj]; exact hk.2
    subst hqp
    rcases hu.2 e hc with hd | hd
    · exact hne l hl (by rw [hc, handle_of_delete hd hn hq])
    · unfold lookup at hd
      rw [hn, hq] at hd
      have hfound := getPortIndex_holds hi hk
      cases hd.symm.trans hfound

/-- Until its handle is given out again, a port that no endpoint has stays without one. -/
theorem gone_kept {p : U32} {ls : List CallRec} (hrun : Lts.Run (Lts.Guarded EndpointStep Usable) db ls db')
    (hi : TableInv db) (hk : ∀ k, ¬ Holds db k p) (hne : ∀ l ∈ ls, l.ret ≠ .value (endpointHandle 0 p) .success) :
    TableInv db' ∧ ∀ k, ¬ Holds db' k p := by
  refine hrun.keeps (I := fun db => TableInv db ∧ ∀ k, ¬ Holds db k p) ?_ ⟨hi, hk⟩
  intro db l db' hl hb hstep
  obtain ⟨hi, hk⟩ := hb
  obtain ⟨hu, hs⟩ := hstep
  refine ⟨hs.inv hi hu, fun j hj => ?_⟩
  cases hs.cases hi with
  | same db' he => rw [he] at hj; exact hk j hj
  | created i q db' _ _ _ hret he =>
    rw [he] at hj
    rcases holds_create.mp hj with ⟨-, rfl⟩ | ⟨-, hj⟩
    · exact hne l hl hret
    · exact hk j hj
  | deleted i q e db' _ _ _ _ he =>
    rw [he] at hj
    exact hk j (holds_delete.mp hj).2

/-! ## Runs on node 0 -/

/-- On a fresh segment, whatever the domain's id, the node is entry 0 of domain 0. -/
theorem initialised_domain (d n : U32) (a : Option NodeAttributes) :
    ∃ attributes, (initialised d n a).domains 0 =
      { numNodes := 1
        domainId := d
        valid := true
        nodes := Function.update (fun _ => {}) 0 ⟨n, true, attributes, 1, fun _ => {}⟩ } := by
  have hdom : ((List.finRange maxDomains).find? fun i => (freshPool.domains i).domainId == d).or
      ((List.finRange maxDomains).find? fun i => !(freshPool.domains i).valid) = some 0 := by
    by_cases hd : d = 0
    · subst hd; rfl
    · have hne : ((0 : U32) == d) = false := beq_eq_false_iff_ne.mpr (Ne.symm hd)
      have hnone : ((List.finRange maxDomains).find? fun i => (freshPool.domains i).domainId == d) = none :=
        Tables.find_eq_none_iff.mpr fun i => hne
      rw [hnone]
      rfl
  unfold initialised transAddNode
  rw [if_neg (by decide)]
  dsimp only
  rw [hdom]
  exact ⟨_, rfl⟩

theorem initialised_table (d : U32) (a : Option NodeAttributes) : TableInv (initialised d 0 a) := by
  obtain ⟨attributes, hd⟩ := initialised_domain d 0 a
  have hn : (initialised d 0 a).node0 = ⟨0, true, attributes, 1, fun _ => {}⟩ := by
    rw [Database.node0, hd]; rfl
  have hno : ∀ k p, ¬ Holds (initialised d 0 a) k p := by
    intro k p hk
    have hv := hk.1
    rw [hn] at hv
    cases hv
  refine ⟨by rw [hd], by rw [hd], by rw [hn], by rw [hn]; exact Nat.le_of_ble_eq_true rfl, ?_, ?_, ?_, ?_⟩
  · exact fun k p hk => absurd hk (hno k p)
  · exact fun k p hk => absurd hk (hno k p)
  · exact fun k p hk => absurd hk (hno k p)
  · exact fun j k p hj => absurd hj (hno j p)

/-- The handle is valid and leads to slot `k`; a delete succeeds and clears this slot and
    no other; and a second one is refused, as long as the handle is not given out again. -/
def UsableHandle (db : Database) (handle : U32) (k : Slot) : Prop :=
  transValidEndpoint .std db handle = .ok true ∧ lookup db handle = .ok (some k) ∧
  ∀ E w, w.db = db → ∃ w', endpointDelete .std E w handle = .ok (.success, w') ∧
    w'.db = db.setNode 0 (db.node0.delete k) ∧
    ∀ ls db', Lts.Run (Lts.Guarded EndpointStep Usable) w'.db ls db' → (∀ l ∈ ls, l.ret ≠ .value handle .success) →
      ∀ E w, w.db = db' → endpointDelete .std E w handle = .ok (.errEndpInvalid, w)

theorem usableHandle_of_holds (h : TableInv db) {k : Slot} {p : U32} (hk : Holds db k p) :
    UsableHandle db (endpointHandle 0 p) k := by
  have hp := h.fits k p hk
  refine ⟨validEndpoint_holds h hp hk, (lookup_endpointHandle db hp).trans (getPortIndex_holds h hk), ?_⟩
  intro E w hw
  subst hw
  obtain ⟨w', hdel, hdb⟩ := delete_holds (E := E) h hp hk
  refine ⟨w', hdel, hdb, fun ls db' hrun hne E' w2 hw2 => ?_⟩
  have hgone : ∀ j, ¬ Holds w'.db j p := by
    intro j hj
    rw [hdb] at hj
    obtain ⟨hjk, hj⟩ := holds_delete.mp hj
    exact hjk (h.distinct j k p hj hk)
  have hi : TableInv w'.db := by rw [hdb]; exact h.delete k
  obtain ⟨hi', hgone'⟩ := gone_kept hrun hi hgone hne
  subst hw2
  exact delete_gone hi' hp hgone'

/-- In a run of usable creates and deletes on node 0, the handle of a create is usable,
    and leads to the slot the create filled, until it is deleted. -/
theorem created_handle_stays_usable {d : U32} {a : Option NodeAttributes} {pre : List CallRec}
    (hpre : Lts.Run (Lts.Guarded EndpointStep Usable) (initialised d 0 a) pre db) {l : CallRec} {db1 : Database}
    (hs : Lts.Guarded EndpointStep Usable db l db1) {p handle : U32} (hc : l.call = .endpointCreate p)
    (hret : l.ret = .value handle .success) {ls : List CallRec} {db2 : Database}
    (hrun : Lts.Run (Lts.Guarded EndpointStep Usable) db1 ls db2) (hkeep : ∀ l ∈ ls, l.call ≠ .endpointDelete handle) :
    ∃ k, slotOf (l.env.drv .create (createPkt p)).pkt.sessionIdx = .ok k ∧ UsableHandle db2 handle k := by
  have hi : TableInv db := hpre.keeps (fun _ hi hs => hs.2.inv hi hs.1) (initialised_table d a)
  have hi1 : TableInv db1 := hs.2.inv hi hs.1
  cases hs.2.cases hi with
  | same _ _ hn => exact absurd hc (hn p)
  | created k q db1 hc' hk _ hret' he =>
    cases hc.symm.trans hc'
    cases hret.symm.trans hret'
    have hholds : Holds db1 k p := by
      rw [he]
      exact holds_create.mpr (.inl ⟨rfl, rfl⟩)
    obtain ⟨hi2, hk2⟩ := holds_kept hrun hi1 hholds hkeep
    exact ⟨k, hk, usableHandle_of_holds hi2 hk2⟩
  | deleted _ _ _ _ hc' => rw [hc] at hc'; cases hc'

theorem usable_create (E : Env) (db : Database) (p : U32)
    (hx : ((Call.endpointCreate p).exec .std E { db := db }).isOk = true) (hu : UsableCreate E db p) :
    Lts.Guarded EndpointStep Usable db ((Call.endpointCreate p).record E db) ((Call.endpointCreate p).after E db) := by
  have hs := record_step hx
  have hc : ((Call.endpointCreate p).record E db).call = .endpointCreate p ∧
      ((Call.endpointCreate p).record E db).env = E := by
    unfold Call.record
    split <;> exact ⟨rfl, rfl⟩
  refine ⟨⟨fun q hq => ?_, fun e he => ?_⟩, hs, .inl ⟨p, hc.1⟩⟩
  · cases hc.1.symm.trans hq
    rw [hc.2]
    exact hu
  · cases hc.1.symm.trans he

instance (db : Database) (k : Slot) (p : U32) : Decidable (Holds db k p) := inferInstanceAs (Decidable (_ ∧ _))
instance (E : Env) (db : Database) (p : U32) : Decidable (UsableCreate E db p) :=
  inferInstanceAs (Decidable (_ ∧ _ ∧ _ ∧ _))

/-- The handle of port 5 is still usable once port 6 is there too. -/
theorem port_five_usable :
    ∃ k, slotOf 1 = .ok k ∧
      UsableHandle ((Call.endpointCreate 6).after sessionTwo onePort) (endpointHandle 0 5) k := by
  have h5 := usable_create sessionOne (initialised 0 0 none) 5 rfl (by decide +kernel)
  have h6 := usable_create sessionTwo onePort 6 rfl (by decide +kernel)
  exact created_handle_stays_usable (.nil _) h5 (p := 5) rfl rfl (.single h6) (by
    intro l hl
    rw [List.mem_singleton.mp hl]
    decide)

/-- On node 3, the handle of `MCAPI_PORT_ANY` is not valid. -/
theorem node_three_unusable :
    ¬ ∀ d n a pre db, Lts.Run EndpointStep (initialised d n a) pre db → ∀ l db1, EndpointStep db l db1 →
      ∀ p handle, l.call = .endpointCreate p → (l.env.drv .create (createPkt p)).ret = 0 →
        l.ret = .value handle .success → transValidEndpoint .std db1 handle = .ok true := by
  intro h
  have hs : EndpointStep (initialised 0 3 none) ((Call.endpointCreate portAny).record sessionOne (initialised 0 3 none))
      ((Call.endpointCreate portAny).after sessionOne (initialised 0 3 none)) := ⟨record_step rfl, .inl ⟨_, rfl⟩⟩
  have hv := h _ _ _ _ _ (.nil _) _ _ hs portAny (endpointHandle 3 portAny) rfl rfl rfl
  exact absurd hv (by decide +kernel)

end Mcapi
