/-
  Mcapi.Endpoints — what `mcapi_endpoint_create` and `mcapi_endpoint_delete` do to the
  table.

  A create fills the entry the driver's session index names (`Created`); a delete zeroes
  the entry its handle leads to (`Deleted`). `create_cases` and `delete_cases` prove that
  there is nothing else they do. Neither touches a request.
-/

import Mcapi.Issue

namespace Mcapi

variable {E : Env} {w w' : World}

/-- The entry a create leaves. -/
def filledEntry (e : EndpointEntry) (portNum : U32) : EndpointEntry :=
  { e with valid := true, portNum := portNum, isOpen := false, anonymous := false, numAttributes := 0 }

/-- A node with entry `k` filled, and one endpoint more. -/
def NodeEntry.create (n : NodeEntry) (k : Slot) (portNum : U32) : NodeEntry :=
  { n with
    endpoints := Function.update n.endpoints k (filledEntry (n.endpoints k) portNum)
    numEndpoints := n.numEndpoints + 1 }

/-- A node with entry `k` zeroed. -/
def NodeEntry.delete (n : NodeEntry) (k : Slot) : NodeEntry :=
  { n with endpoints := Function.update n.endpoints k {} }

/-- The packet of a CREATE. -/
def createPkt (portNum : U32) : SmPacket := { localEp := portNum, type := .spPacket }

/-- The packet of a SHUTDOWN. -/
def shutdownPkt (k : Slot) : SmPacket := { sessionIdx := sessionOf k }

/-- How `mcapi_endpoint_create` ends. -/
inductive Created (E : Env) (w : World) (portNum : U32) : U32 × Status → World → Prop
  | notInit (e : U32) : (w.db.domains 0).valid = false → Created E w portNum (e, .errNodeNotinit) w
  | created (i : Fin maxNodes) (k : Slot) (w' : World) :
      transGetNodeIndex .std w.db (transGetNodeNum w.db) = .ok (some i) →
      slotOf (E.drv .create (createPkt portNum)).pkt.sessionIdx = .ok k →
      (((w.db.domains 0).nodes i).endpoints k).valid = false →
      w'.db = w.db.setNode i (((w.db.domains 0).nodes i).create k portNum) →
      commands w'.trace = commands w.trace ++ [⟨.create, createPkt portNum, E.drv .create (createPkt portNum)⟩] →
      Created E w portNum (endpointHandle (transGetNodeNum w.db) portNum, .success) w'

theorem transEndpointCreate_cases {e p : U32} {rc : Bool} {e' : U32}
    (h : transEndpointCreate .std E w e p false = .ok ((rc, e'), w')) :
    rc = true ∧ Created E w p (e', .success) w' := by
  unfold transEndpointCreate smCreateSession at h
  dsimp only [ioctl_reply] at h
  split at h
  · cases h
  obtain ⟨i, hi, h⟩ := bind_eq_ok.mp h
  cases i with
  | none => cases h
  | some i =>
    dsimp only at h
    obtain ⟨k, hk, h⟩ := bind_eq_ok.mp h
    split at h
    · cases h
    rename_i hfree
    cases h
    have hfree : (((w.db.domains 0).nodes i).endpoints k).valid = false := by simpa using hfree
    exact ⟨rfl, .created i k _ hi hk hfree rfl
      (commands_ioctl_trace w .create (createPkt p))⟩

theorem create_cases {p : U32} {x : U32 × Status} (h : endpointCreate .std E w p = .ok (x, w')) :
    Created E w p x w' := by
  unfold endpointCreate domainIdGet transGetDomainNum at h
  by_cases hv : (w.db.domains 0).valid = true
  · simp only [hv, if_true, ne_eq, not_true_eq_false, if_false, transEndpointExists, transNumEndpoints, transValidPort,
      Bool.not_true, Bool.false_eq_true] at h
    rw [if_neg (by decide)] at h
    obtain ⟨⟨⟨rc, e⟩, w1⟩, h1, h⟩ := bind_eq_ok.mp h
    obtain ⟨rfl, hc⟩ := transEndpointCreate_cases h1
    cases h
    exact hc
  · simp only [hv] at h
    cases h
    exact .notInit _ (by simpa using hv)

theorem nodeIndex_some {db : Database} {n : U32} {i : Option (Fin maxNodes)}
    (h : transGetNodeIndex .std db n = .ok i) : ∃ j, i = some j := by
  unfold transGetNodeIndex at h
  split at h
  · cases h; exact ⟨_, rfl⟩
  · cases h

/-- A valid handle is one of node 0 that leads to a valid entry of node entry 0. -/
theorem validEndpoint_true {db : Database} {e : U32} (h : transValidEndpoint .std db e = .ok true) :
    (transDecodeHandleInternal e).nodeId = 0 ∧
      ∃ k, lookup db e = .ok (some k) ∧ (db.node0.endpoints k).valid = true := by
  unfold transValidEndpoint at h
  dsimp only at h
  split at h
  · cases h
  rename_i hn
  obtain ⟨k, hk, h⟩ := bind_eq_ok.mp h
  cases k with
  | none => cases h
  | some k =>
    simp only [Except.ok.injEq] at h
    exact ⟨not_not.mp hn, k, hk, h⟩

/-- How `mcapi_endpoint_delete` ends. -/
inductive Deleted (E : Env) (w : World) (endpoint : U32) : Status → World → Prop
  | refused (st : Status) : st ≠ .success → Deleted E w endpoint st w
  | deleted (i : Fin maxNodes) (k : Slot) (w' : World) :
      transValidEndpoint .std w.db endpoint = .ok true →
      transGetNodeIndex .std w.db ((transDecodeHandleInternal endpoint).nodeId.setWidth 32) = .ok (some i) →
      lookup w.db endpoint = .ok (some k) →
      w'.db = w.db.setNode i (((w.db.domains 0).nodes i).delete k) →
      commands w'.trace = commands w.trace ++ [⟨.shutdown, shutdownPkt k, E.drv .shutdown (shutdownPkt k)⟩] →
      Deleted E w endpoint .success w'

theorem delete_cases {e : U32} {st : Status} (h : endpointDelete .std E w e = .ok (st, w')) : Deleted E w e st w' := by
  unfold endpointDelete at h
  obtain ⟨v, hv, h⟩ := bind_eq_ok.mp h
  cases v with
  | false => cases h; exact .refused _ nofun
  | true =>
    simp only [Bool.not_true, Bool.false_eq_true, if_false, transEndpointIsowner] at h
    obtain ⟨o, ho, h⟩ := bind_eq_ok.mp h
    cases o with
    | true => cases h; exact .refused _ nofun
    | false =>
      obtain ⟨w1, h1, h⟩ := bind_eq_ok.mp h
      cases h
      unfold transEndpointDelete at h1
      obtain ⟨i, hi, h1⟩ := bind_eq_ok.mp h1
      obtain ⟨i, rfl⟩ := nodeIndex_some hi
      obtain ⟨-, k, hk, -⟩ := validEndpoint_true hv
      obtain ⟨k', hk', h1⟩ := bind_eq_ok.mp h1
      have hkk : k' = some k := by
        have := hk'.symm.trans hk
        exact Except.ok.inj this
      subst hkk
      cases h1
      exact .deleted i k _ hv hi hk rfl (commands_ioctl_trace _ .shutdown (shutdownPkt k))

end Mcapi
