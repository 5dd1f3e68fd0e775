/-
  Mcapi.Nodes — the node registry and the lookups in it (`mcapi_trans_add_node`,
  `mcapi_trans_initialized`, `mcapi_trans_get_node_num`, `mcapi_trans_get_domain_num`,
  `mcapi_trans_get_node_index`, `mcapi_trans_get_port_index`,
  `mcapi_trans_valid_endpoint`, `mcapi_trans_endpoint_channel_isopen`).

  Every lookup works on domain 0. `mcapi_trans_get_port_index` scans the first
  `num_endpoints` entries of a node for a valid one with the port; `num_endpoints` only
  grows, so it can pass the 32 entries there are, and a scan that finds nothing in them
  then reads on past the table (`Build.overrun`).
-/

import Mcapi.Handles
import Mcapi.Lib.Tables

namespace Mcapi

variable (B : Build)

/-! ## Stubs: queries the transport answers with a constant -/

def transValidNode (_nodeNum : U32) : Bool := true
def transValidPort (_portNum : U32) : Bool := true
def transValidPriority (_priority : U32) : Bool := true
def transEndpointIsowner (_endpoint : U32) : Bool := true
def transEndpointExists (_portNum : U32) : Bool := false
def transNumEndpoints : Nat := 0
def transValidBufferParam (buffer : U32) : Bool := buffer != 0
def transValidSizeParam (size : Option U32) : Bool := size.isSome

/-! ## Lookups -/

def transGetNodeNum (db : Database) : U32 := db.node0.nodeNum

/-- FALSE is `none`. -/
def transGetDomainNum (db : Database) : Option U32 :=
  if (db.domains 0).valid then some (db.domains 0).domainId else none

/-- The index of the first node of domain 0 with this number; `none` is `MCA_MAX_NODES`,
    which the assertion rules out. -/
def transGetNodeIndex (db : Database) (nodeNum : U32) : Res (Option (Fin maxNodes)) :=
  match (List.finRange maxNodes).find? fun i =>
      i.val < (db.domains 0).numNodes.toNat && ((db.domains 0).nodes i).nodeNum == nodeNum with
  | some i => .ok (some i)
  | none => if B.asserts then .error .assertion else .ok none

/-- The entry of the scan of one node's table: valid, with this port, and below
    `num_endpoints`. -/
def portMatches (n : NodeEntry) (portNum : U32) (j : Slot) : Bool :=
  j.val < n.numEndpoints.toNat && (n.endpoints j).valid && (n.endpoints j).portNum == portNum

def scanPorts (n : NodeEntry) (portNum : U32) : Res (Option Slot) :=
  match (List.finRange maxEndpoints).find? (portMatches n portNum) with
  | some j => .ok (some j)
  | none => if maxEndpoints < n.numEndpoints.toNat then B.overrun else .ok none

/-- `none` is `MCAPI_MAX_ENDPOINTS`. The loop over the nodes does not stop at the first
    one with the number, so a later hit replaces an earlier one. -/
def transGetPortIndex (db : Database) (nodeNum portNum : U32) : Res (Option Slot) :=
  (List.finRange maxNodes).foldlM (fun (portIndex : Option Slot) i => do
    if i.val < (db.domains 0).numNodes.toNat && ((db.domains 0).nodes i).nodeNum == nodeNum then
      match ← scanPorts B ((db.domains 0).nodes i) portNum with
      | some j => .ok (some j)
      | none => .ok portIndex
    else .ok portIndex) none

def masterNodeNum : U16 := 0

/-- The slot is looked up under the decoded node, its flag read under node entry 0. -/
def transValidEndpoint (db : Database) (endpoint : U32) : Res Bool :=
  let name := transDecodeHandleInternal endpoint
  if name.nodeId ≠ masterNodeNum then .ok false
  else do
    match ← transGetPortIndex B db (name.nodeId.setWidth 32) (name.portId.setWidth 32) with
    | none => .ok false
    | some index => .ok (db.node0.endpoints index).valid

/-- Only the first endpoint is looked at. -/
def transValidEndpoints (db : Database) (endpoint1 _endpoint2 : U32) : Res Bool := transValidEndpoint B db endpoint1

def transEndpointChannelIsopen (locals : Decoded) (db : Database) (endpoint : U32) : Res Bool := do
  let name := assertDecode B locals endpoint
  match ← transGetPortIndex B db (name.nodeId.setWidth 32) (name.portId.setWidth 32) with
  | none => .ok false
  | some index => .ok (db.node0.endpoints index).isOpen

/-! ### What a lookup finds -/

section
variable {B}

variable {x : NodeEntry} {p : U32} {j k : Slot}

theorem portMatches_iff : portMatches x p j = true ↔
    j.val < x.numEndpoints.toNat ∧ (x.endpoints j).valid = true ∧ (x.endpoints j).portNum = p := by
  simp [portMatches, and_assoc]

/-- Entry `k` is the first of a node with the port. -/
def First (x : NodeEntry) (p : U32) (k : Slot) : Prop :=
  portMatches x p k = true ∧ ∀ j < k, portMatches x p j = false

/-- A scan finds the first entry with the port. -/
theorem scan_iff (hO : ∀ j, B.overrun ≠ .ok (some j)) : scanPorts B x p = .ok (some k) ↔ First x p k := by
  rw [First, ← Tables.find_eq_some_iff, scanPorts]
  constructor
  · intro h
    split at h
    · rename_i j hj
      cases h
      exact hj
    · split at h
      · exact absurd h (hO k)
      · cases h
  · intro h
    rw [h]

/-- Which is valid. -/
theorem scan_found (hO : ∀ j, B.overrun ≠ .ok (some j)) (h : scanPorts B x p = .ok (some k)) :
    (x.endpoints k).valid = true ∧ (x.endpoints k).portNum = p :=
  (portMatches_iff.mp ((scan_iff hO).mp h).1).2

/-- With no more endpoints counted than there are entries, it stays in the table. -/
theorem scan_within (hb : x.numEndpoints.toNat ≤ maxEndpoints) :
    scanPorts B x p = .ok ((List.finRange maxEndpoints).find? (portMatches x p)) := by
  unfold scanPorts
  cases hf : (List.finRange maxEndpoints).find? (portMatches x p) with
  | some j => rfl
  | none => exact if_neg (Nat.not_lt.mpr hb)

/-- A lookup scans the one node that has the number. -/
theorem portIndex_node {db : Database} {n : U32} {i : Fin maxNodes} (hi : i.val < (db.domains 0).numNodes.toNat)
    (hn : ((db.domains 0).nodes i).nodeNum = n)
    (hone : ∀ j, j.val < (db.domains 0).numNodes.toNat → ((db.domains 0).nodes j).nodeNum = n → j = i) :
    transGetPortIndex B db n p = scanPorts B ((db.domains 0).nodes i) p := by
  unfold transGetPortIndex
  rw [Tables.foldlM_only (List.nodup_finRange maxNodes) (List.mem_finRange i)]
  · rw [if_pos (by simp [hi, hn])]
    rcases scanPorts B ((db.domains 0).nodes i) p with f | k
    · rfl
    · cases k <;> rfl
  · intro j _ hj b
    refine if_neg fun h => hj ?_
    simp only [Bool.and_eq_true, decide_eq_true_eq, beq_iff_eq] at h
    exact hone j h.1 h.2

/-- With no such node it finds nothing. -/
theorem portIndex_absent {db : Database} {n : U32}
    (hno : ∀ j, j.val < (db.domains 0).numNodes.toNat → ((db.domains 0).nodes j).nodeNum ≠ n) :
    transGetPortIndex B db n p = .ok none := by
  refine Tables.foldlM_skip (fun j _ b => if_neg fun h => ?_) none
  simp only [Bool.and_eq_true, decide_eq_true_eq, beq_iff_eq] at h
  exact hno j h.1 h.2

end

/-! ## Registration -/

/-- The loop over the nodes ends in its first round: by the `break`, or by the
    `return rc` that stands inside its body. -/
def transInitialized (db : Database) (_domainId nodeId : U32) : Bool :=
  let rc := false
  if db.node0.valid && db.node0.nodeNum == nodeId then
    -- `rc = MCAPI_TRUE; break;`, and after the loop `return MCAPI_FALSE;`
    false
  else rc

/-- `mcapi_trans_add_node`, with the result it returns. Domains are searched by id
    alone, so an entry never used (id 0) matches domain 0. -/
def transAddNode (db : Database) (domainId nodeId : U32) (nodeAttrs : Option NodeAttributes) : Bool × Database :=
  if (db.domains 0).numNodes.toNat = maxNodes then (false, db)
  else
    let byId := (List.finRange maxDomains).find? fun d => (db.domains d).domainId == domainId
    let unused := (List.finRange maxDomains).find? fun d => !(db.domains d).valid
    match byId.or unused with
    | none => (false, db)
    | some d =>
      let dom := db.domains d
      if (List.finRange maxNodes).any fun n => (dom.nodes n).valid && (dom.nodes n).nodeNum == nodeId then (false, db)
      else
        match (List.finRange maxNodes).find? fun n => !(dom.nodes n).valid with
        | none => (false, db)
        | some n =>
          let attributes := nodeAttrs.getD (dom.nodes n).attributes
          let node : NodeEntry :=
            { nodeNum := nodeId
              valid := true
              -- `sizeof(mcapi_node_attr_type_t)` for the one attribute supported
              attributes := Function.update attributes 0 { attributes 0 with bytes := 4 }
              numEndpoints := 1 }
          (true, { db with
            domains := Function.update db.domains d { dom with
              domainId := domainId
              valid := true
              numNodes := dom.numNodes + 1
              nodes := Function.update dom.nodes n node } })

@[simp] theorem transInitialized_false (db : Database) (d n : U32) : transInitialized db d n = false := by
  simp [transInitialized]

@[simp] theorem addNode_requests (db : Database) (d n : U32) (a : Option NodeAttributes) :
    (transAddNode db d n a).2.requests = db.requests := by
  dsimp only [transAddNode]
  repeat' split
  all_goals rfl

@[simp] theorem addNode_header (db : Database) (d n : U32) (a : Option NodeAttributes) :
    (transAddNode db d n a).2.requestReservesHeader = db.requestReservesHeader := by
  dsimp only [transAddNode]
  repeat' split
  all_goals rfl

end Mcapi
