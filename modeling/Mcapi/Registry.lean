/-
  Mcapi.Registry — the node registry (`mcapi_trans_add_node`), over any sequence of
  registrations.

  Domains are searched by id alone, and an entry that was never used has id 0. This
  works out because entries are used from the front: in `RegistryInv` the valid domains
  are a prefix of the array, and an invalid one has id 0 and no nodes. So the first entry
  with the id of a domain is its own or, for domain 0, the first that is free
  (`domainSlot_free`).

  - `registry_invariant`: every sequence of registrations on a zeroed database keeps
    `RegistryInv`; one that is refused changes nothing, and one that succeeds adds one
    node entry and leaves the others alone.
-/

import Mcapi.Nodes
import Mcapi.Lib.Runs
import Mcapi.Lib.Tables

namespace Mcapi

variable {db db' : Database}

/-! ## What a registration does -/

/-- The entry a domain is looked up at: the first with its id, or else the first unused. -/
def domainSlot (db : Database) (domainId : U32) : Option (Fin maxDomains) :=
  ((List.finRange maxDomains).find? fun d => (db.domains d).domainId == domainId).or
    ((List.finRange maxDomains).find? fun d => !(db.domains d).valid)

/-- The domain has this node. -/
def DomainEntry.HasNode (x : DomainEntry) (nodeId : U32) : Prop :=
  ∃ j, (x.nodes j).valid = true ∧ (x.nodes j).nodeNum = nodeId

/-- The first node entry that is free. -/
def DomainEntry.freeNode (x : DomainEntry) : Option (Fin maxNodes) :=
  (List.finRange maxNodes).find? fun n => !(x.nodes n).valid

/-- Node entry `j` of domain entry `i` filled in. -/
def Database.addNode (db : Database) (i : Fin maxDomains) (j : Fin maxNodes) (domainId : U32) (x : NodeEntry) :
    Database :=
  { db with
    domains := Function.update db.domains i { db.domains i with
      domainId := domainId
      valid := true
      numNodes := (db.domains i).numNodes + 1
      nodes := Function.update (db.domains i).nodes j x } }

/-- Where a registration goes: domain 0 is not full, the domain has an entry or may have
    one, it does not have the node, and it has room. -/
structure Registers (db : Database) (domainId nodeId : U32) (i : Fin maxDomains) (j : Fin maxNodes) : Prop where
  open0 : (db.domains 0).numNodes.toNat ≠ maxNodes
  slot : domainSlot db domainId = some i
  fresh : ¬ (db.domains i).HasNode nodeId
  free : (db.domains i).freeNode = some j

/-- How a registration ends. -/
inductive Added (db : Database) (domainId nodeId : U32) : Bool × Database → Prop
  | refused : (∀ i j, ¬ Registers db domainId nodeId i j) → Added db domainId nodeId (false, db)
  | added (i : Fin maxDomains) (j : Fin maxNodes) (attributes : NodeAttributes) : Registers db domainId nodeId i j →
      Added db domainId nodeId (true, db.addNode i j domainId ⟨nodeId, true, attributes, 1, fun _ => {}⟩)

theorem hasNode_any (x : DomainEntry) (nodeId : U32) :
    ((List.finRange maxNodes).any fun n => (x.nodes n).valid && (x.nodes n).nodeNum == nodeId) = true ↔
      x.HasNode nodeId := by
  simp [DomainEntry.HasNode]

theorem addNode_cases (db : Database) (d n : U32) (a : Option NodeAttributes) :
    Added db d n (transAddNode db d n a) := by
  unfold transAddNode
  by_cases hfull : (db.domains 0).numNodes.toNat = maxNodes
  · rw [if_pos hfull]
    exact .refused fun i j h => h.open0 hfull
  rw [if_neg hfull]
  dsimp only
  split
  · rename_i hslot
    change domainSlot db d = none at hslot
    refine .refused ?_
    intro i j h
    cases hslot.symm.trans h.slot
  · rename_i i hslot
    change domainSlot db d = some i at hslot
    have huniq (i' : Fin maxDomains) (h : domainSlot db d = some i') : i' = i :=
      Option.some.inj (h.symm.trans hslot)
    split
    · rename_i hhas
      refine .refused ?_
      intro i' j h
      obtain rfl := huniq i' h.slot
      exact h.fresh ((hasNode_any _ n).mp hhas)
    rename_i hhas
    rw [hasNode_any] at hhas
    split
    · rename_i hfree
      change (db.domains i).freeNode = none at hfree
      refine .refused ?_
      intro i' j h
      obtain rfl := huniq i' h.slot
      cases hfree.symm.trans h.free
    · rename_i j hfree
      exact .added i j _ ⟨hfull, hslot, hhas, hfree⟩

/-! ## The invariant -/

/-- The nodes of a domain: the valid ones are the first `num_nodes`, and have different
    numbers. -/
structure DomainInv (x : DomainEntry) : Prop where
  filled : Tables.Prefix (fun j => (x.nodes j).valid) x.numNodes.toNat
  bound : x.numNodes.toNat ≤ maxNodes
  distinct : ∀ i j, (x.nodes i).valid = true → (x.nodes j).valid = true → (x.nodes i).nodeNum = (x.nodes j).nodeNum →
    i = j

/-- The valid domains are a prefix of the array and have different ids, and an invalid
    one has id 0 and no nodes. -/
structure RegistryInv (db : Database) : Prop where
  filled : ∃ k, Tables.Prefix (fun i => (db.domains i).valid) k
  distinct : ∀ i j, (db.domains i).valid = true → (db.domains j).valid = true →
    (db.domains i).domainId = (db.domains j).domainId → i = j
  nodes : ∀ i, DomainInv (db.domains i)
  unused : ∀ i, (db.domains i).valid = false → (db.domains i).domainId = 0 ∧ (db.domains i).numNodes = 0

theorem zeroed_registry : RegistryInv zeroed := by
  refine ⟨⟨0, fun i => ?_⟩, fun i j hi => ?_, fun i => ⟨fun j => ?_, ?_, fun j m hj => ?_⟩, fun i _ => ⟨rfl, rfl⟩⟩
  · simp [zeroed]
  · cases hi
  · simp [zeroed]
  · exact Nat.zero_le _
  · cases hj

/-- The entry of a domain is its own; or it is the first unused one, and no domain has
    the id. -/
theorem domainSlot_free (h : RegistryInv db) {d : U32} {i : Fin maxDomains} (hs : domainSlot db d = some i) :
    ((db.domains i).valid = true ∧ (db.domains i).domainId = d) ∨
    ((List.finRange maxDomains).find? (fun i => !(db.domains i).valid) = some i ∧
      ∀ m, (db.domains m).valid = true → (db.domains m).domainId ≠ d) := by
  unfold domainSlot at hs
  cases hid : (List.finRange maxDomains).find? fun m => (db.domains m).domainId == d with
  | none =>
    rw [hid, Option.none_or] at hs
    exact .inr ⟨hs, fun m _ => beq_eq_false_iff_ne.mp (Tables.find_eq_none_iff.mp hid m)⟩
  | some m =>
    rw [hid, Option.some_or] at hs
    cases hs
    obtain ⟨hi, hbefore⟩ := Tables.find_eq_some_iff.mp hid
    have hi : (db.domains i).domainId = d := by simpa using hi
    by_cases hv : (db.domains i).valid = true
    · exact .inl ⟨hv, hi⟩
    -- an unused entry with the id: it is 0, and every entry before is in use
    have hv : (db.domains i).valid = false := by simpa using hv
    have hd : d = 0 := hi.symm.trans (h.unused i hv).1
    obtain ⟨k, hk⟩ := h.filled
    refine .inr ⟨Tables.find_eq_some_iff.mpr ⟨by rw [hv]; rfl, fun m hm => ?_⟩, fun m hm => ?_⟩
    · have hne := beq_eq_false_iff_ne.mp (hbefore m hm)
      by_contra hfree
      have hfree : (db.domains m).valid = false := by simpa using hfree
      exact hne ((h.unused m hfree).1.trans hd.symm)
    · have hmk := (hk m).mp hm
      have hik : ¬ i.val < k := by
        intro hik
        have hvi : (db.domains i).valid = true := (hk i).mpr hik
        rw [hv] at hvi
        cases hvi
      exact beq_eq_false_iff_ne.mp (hbefore m (Fin.lt_def.mpr (by omega)))

/-- A further node entry keeps the nodes of a domain in order. -/
theorem DomainInv.extend {x : DomainEntry} (h : DomainInv x) {j : Fin maxNodes} (hj : x.freeNode = some j)
    {y : NodeEntry} (hv : y.valid = true) (hn : ¬ x.HasNode y.nodeNum) (domainId : U32) :
    DomainInv { x with
      domainId := domainId
      valid := true
      numNodes := x.numNodes + 1
      nodes := Function.update x.nodes j y } := by
  have hjk : j.val = x.numNodes.toNat := h.filled.find_free hj
  have hmax : maxNodes = 2 := rfl
  have hlt := j.isLt
  have hadd : (x.numNodes + 1).toNat = x.numNodes.toNat + 1 := by
    have h1 : (1 : U16).toNat = 1 := rfl
    rw [BitVec.toNat_add, h1]
    omega
  refine ⟨?_, ?_, ?_⟩
  · intro m
    dsimp only
    rw [hadd, ← h.filled.extend hjk m]
    by_cases he : m = j
    · subst he
      simp [hv]
    · simp [he]
  · dsimp only
    rw [hadd]
    omega
  · intro m m' hm hm' heq
    have hold (m : Fin maxNodes) (hmj : m ≠ j) : Function.update x.nodes j y m = x.nodes m :=
      Function.update_of_ne hmj ..
    have hother (m : Fin maxNodes) (hmj : m ≠ j) (hm : (Function.update x.nodes j y m).valid = true) :
        (Function.update x.nodes j y m).nodeNum ≠ y.nodeNum := by
      rw [hold m hmj] at hm ⊢
      intro he
      exact hn ⟨m, hm, he⟩
    dsimp only at hm hm' heq
    by_cases hmj : m = j
    · by_cases hmj' : m' = j
      · exact hmj.trans hmj'.symm
      · rw [hmj, Function.update_self] at heq
        exact absurd heq.symm (hother m' hmj' hm')
    · by_cases hmj' : m' = j
      · rw [hmj', Function.update_self] at heq
        exact absurd heq (hother m hmj hm)
      · rw [hold m hmj] at hm heq
        rw [hold m' hmj'] at hm' heq
        exact h.distinct m m' hm hm' heq

theorem RegistryInv.addNode (h : RegistryInv db) {d : U32} {i : Fin maxDomains} {j : Fin maxNodes} {y : NodeEntry}
    (hr : Registers db d y.nodeNum i j) (hv : y.valid = true) : RegistryInv (db.addNode i j d y) := by
  have hslot := domainSlot_free h hr.slot
  have hself : (db.addNode i j d y).domains i = { db.domains i with
      domainId := d
      valid := true
      numNodes := (db.domains i).numNodes + 1
      nodes := Function.update (db.domains i).nodes j y } := Function.update_self ..
  have hother (m : Fin maxDomains) (hm : m ≠ i) : (db.addNode i j d y).domains m = db.domains m :=
    Function.update_of_ne hm ..
  -- no other valid domain has the id
  have hfresh (m : Fin maxDomains) (hm : m ≠ i) (hvm : (db.domains m).valid = true) : (db.domains m).domainId ≠ d := by
    rcases hslot with ⟨hvi, hid⟩ | ⟨-, hno⟩
    · intro he
      exact hm (h.distinct m i hvm hvi (he.trans hid.symm))
    · exact hno m hvm
  refine ⟨?_, ?_, ?_, ?_⟩
  · obtain ⟨k, hk⟩ := h.filled
    have hvalid : (fun m => ((db.addNode i j d y).domains m).valid) =
        Function.update (fun m => (db.domains m).valid) i true := by
      funext m
      by_cases hm : m = i
      · subst hm
        rw [hself, Function.update_self]
      · rw [hother m hm, Function.update_of_ne hm]
    rw [hvalid]
    rcases hslot with ⟨hvi, -⟩ | ⟨hfree, -⟩
    · exact ⟨k, by rw [← hvi, Function.update_eq_self]; exact hk⟩
    · exact ⟨k + 1, hk.extend (hk.find_free hfree)⟩
  · intro m m' hm hm' heq
    by_cases hmi : m = i
    · by_cases hmi' : m' = i
      · exact hmi.trans hmi'.symm
      · rw [hother m' hmi'] at hm' heq
        rw [hmi, hself] at heq
        exact absurd heq.symm (hfresh m' hmi' hm')
    · rw [hother m hmi] at hm heq
      by_cases hmi' : m' = i
      · rw [hmi', hself] at heq
        exact absurd heq (hfresh m hmi hm)
      · rw [hother m' hmi'] at hm' heq
        exact h.distinct m m' hm hm' heq
  · intro m
    by_cases hm : m = i
    · rw [hm, hself]
      exact (h.nodes i).extend hr.free hv hr.fresh d
    · rw [hother m hm]
      exact h.nodes m
  · intro m hm
    by_cases hmi : m = i
    · rw [hmi, hself] at hm
      cases hm
    · rw [hother m hmi] at hm ⊢
      exact h.unused m hm

/-! ## Sequences of registrations -/

/-- The arguments of a registration. -/
structure AddCall where
  domainId : U32
  nodeId : U32
  nodeAttrs : Option NodeAttributes

def AddStep (db : Database) (c : AddCall) (db' : Database) : Prop :=
  db' = (transAddNode db c.domainId c.nodeId c.nodeAttrs).2

/-- One node entry is added, under its ids and with no valid endpoint, in the entry of its
    domain or in one that was not in use; every other entry is as it was. -/
def AddsNode (db : Database) (domainId nodeId : U32) (db' : Database) : Prop :=
  ∃ i j, ((db.domains i).nodes j).valid = false ∧
    ((db.domains i).valid = true → (db.domains i).domainId = domainId) ∧
    ((db'.domains i).valid = true ∧ (db'.domains i).domainId = domainId ∧ ((db'.domains i).nodes j).valid = true ∧
      ((db'.domains i).nodes j).nodeNum = nodeId ∧ ∀ k, (((db'.domains i).nodes j).endpoints k).valid = false) ∧
    (∀ m, m ≠ j → (db'.domains i).nodes m = (db.domains i).nodes m) ∧ ∀ m, m ≠ i → db'.domains m = db.domains m

theorem RegistryInv.step (h : RegistryInv db) {c : AddCall} (hs : AddStep db c db') : RegistryInv db' := by
  subst hs
  have hcases := addNode_cases db c.domainId c.nodeId c.nodeAttrs
  generalize transAddNode db c.domainId c.nodeId c.nodeAttrs = x at hcases ⊢
  cases hcases with
  | refused => exact h
  | added i j attributes hr => exact h.addNode (y := ⟨c.nodeId, true, attributes, 1, fun _ => {}⟩) hr rfl

theorem added_addsNode (h : RegistryInv db) {d n : U32} (ha : Added db d n (true, db')) : AddsNode db d n db' := by
  cases ha with
  | added i j attributes hr =>
    refine ⟨i, j, ?_, ?_, ?_, ?_, ?_⟩
    · have hfree := (Tables.find_eq_some_iff.mp hr.free).1
      simpa using hfree
    · intro hv
      rcases domainSlot_free h hr.slot with ⟨-, hid⟩ | ⟨hfree, -⟩
      · exact hid
      · have hno := (Tables.find_eq_some_iff.mp hfree).1
        rw [hv] at hno
        cases hno
    · simp [Database.addNode]
    · intro m hm
      simp [Database.addNode, hm]
    · intro m hm
      simp [Database.addNode, hm]

/-- After any sequence of registrations on a zeroed database, the valid domains are a
    prefix of the array, the valid nodes of each are its first `num_nodes` entries, and
    ids and numbers are not used twice. A further one changes no entry if it returns
    FALSE, and if it returns TRUE adds one node entry and changes no other. -/
theorem registry_invariant (h : Lts.Reachable AddStep zeroed db) :
    RegistryInv db ∧ ∀ d n a db',
      (transAddNode db d n a = (false, db') → db' = db) ∧
        (transAddNode db d n a = (true, db') → AddsNode db d n db') := by
  have hi : RegistryInv db := h.invariant zeroed_registry fun hi hs => hi.step hs
  refine ⟨hi, fun d n a db' => ⟨fun he => ?_, fun he => ?_⟩⟩
  · have hcases := addNode_cases db d n a
    rw [he] at hcases
    cases hcases with
    | refused => rfl
  · have hcases := addNode_cases db d n a
    rw [he] at hcases
    exact added_addsNode hi hcases

/-- Domain 5 and then domain 0, each with node 3. -/
theorem two_domains_registered :
    RegistryInv (transAddNode (transAddNode zeroed 5 3 none).2 0 3 none).2 := by
  have h1 : AddStep zeroed ⟨5, 3, none⟩ (transAddNode zeroed 5 3 none).2 := rfl
  exact (registry_invariant (((Lts.Reachable.refl zeroed).tail h1).tail (l := ⟨0, 3, none⟩) rfl)).1

end Mcapi
