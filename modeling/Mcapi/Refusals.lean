/-
  Mcapi.Refusals — what becomes of a CREATE that the driver refuses.

  `sm_create_session` does not look at the value its `ioctl` returns: it gives back the
  session index of the packet, which a refusal leaves as `memset` left it. So the refusal
  reaches the transport as session 0, and the test for a negative index never sees it.
  With entry 0 in use the assertion that it is not aborts; with entry 0 unused the create
  fills it and reports success, under a session the process does not have. No refusal is
  reported (`refusal_lost`).
-/

import Mcapi.Identity
import Mcapi.Lookups

namespace Mcapi

variable {E : Env} {w w' : World} {db : Database} {p : U32}

/-- The driver refuses the CREATE for port `p`, and writes nothing to its packet. -/
structure RefusesCreate (E : Env) (p : U32) : Prop where
  failed : (E.drv .create (createPkt p)).ret < 0
  unwritten : (E.drv .create (createPkt p)).pkt = createPkt p

/-- Every endpoint entry and every count is as it was. -/
def SameTable (db db' : Database) : Prop :=
  ∀ i j, ((db'.domains i).nodes j).endpoints = ((db.domains i).nodes j).endpoints ∧
    ((db'.domains i).nodes j).numEndpoints = ((db.domains i).nodes j).numEndpoints

/-- The create returns with an error, and the table is as it was. -/
def ReportsRefusal (E : Env) (w : World) (p : U32) : Prop :=
  ∃ e st w', endpointCreate .std E w p = .ok ((e, st), w') ∧ st ≠ .success ∧ SameTable w.db w'.db

/-- A create in a database with a domain goes to the transport. -/
theorem endpointCreate_valid {B : Build} (hv : (w.db.domains 0).valid = true) : endpointCreate B E w p = (do
    let ((rc, e), w) ← transEndpointCreate B E w E.locals.e p false
    .ok ((e, if rc then .success else .errEndpNoports), w)) := by
  simp only [endpointCreate, domainIdGet, transGetDomainNum, hv, if_true]
  rfl

/-- The transport takes a refusal for session 0. -/
theorem transEndpointCreate_refused (h : Registered w.db) (hr : RefusesCreate E p) (e : U32) :
    transEndpointCreate .std E w e p false =
      if (w.db.node0.endpoints 0).valid then .error .assertion
      else .ok ((true, endpointHandle (transGetNodeNum w.db) p),
        { (ioctl E w .create (createPkt p)).2 with db := w.db.setNode 0 (w.db.node0.create 0 p) }) := by
  have hsession : (smCreateSession E w p .spPacket).1 = 0 := by
    have hpkt := congrArg SmPacket.sessionIdx hr.unwritten
    exact hpkt
  have hworld : (smCreateSession E w p .spPacket).2 = (ioctl E w .create (createPkt p)).2 := rfl
  have hnode : transGetNodeIndex .std w.db (transGetNodeNum w.db) = .ok (some 0) := h.first.nodeIndex
  have hslot : slotOf 0 = .ok 0 := rfl
  have hmsb : (0 : U32).msb = false := rfl
  simp only [transEndpointCreate, hsession, hworld, hmsb, Bool.false_eq_true, if_false, std_asserts, if_true,
    ioctl_db, hnode, ok_bind, hslot, Bool.true_and]
  rfl

/-- A refused create aborts where entry 0 is in use; elsewhere it fills entry 0 and
    reports success. -/
theorem endpointCreate_refused (h : Registered w.db) (hr : RefusesCreate E p) :
    endpointCreate .std E w p =
      if (w.db.node0.endpoints 0).valid then .error .assertion
      else .ok ((endpointHandle (transGetNodeNum w.db) p, .success),
        { (ioctl E w .create (createPkt p)).2 with db := w.db.setNode 0 (w.db.node0.create 0 p) }) := by
  rw [endpointCreate_valid h.domain0, transEndpointCreate_refused h hr]
  split
  · rfl
  · rfl

/-- In no state that runs of any processes lead to is a refused CREATE reported: the call
    aborts where entry 0 is in use, and elsewhere succeeds. -/
theorem refusal_lost {s : Sys} (hs : Lts.Reachable SysStep Sys.init s) {g : Segment} (hg : s.seg = some g)
    (hw : w.db = g.db) (hr : RefusesCreate E p) :
    ¬ ReportsRefusal E w p ∧
    ((w.db.node0.endpoints 0).valid = true → endpointCreate .std E w p = .error .assertion) ∧
    ((w.db.node0.endpoints 0).valid = false → ∃ e w', endpointCreate .std E w p = .ok ((e, .success), w') ∧
      ¬ SameTable w.db w'.db) := by
  have hreg : Registered w.db := by
    rw [hw]
    exact registered_run hs g hg
  have hcreate := endpointCreate_refused hreg hr
  refine ⟨?_, ?_, ?_⟩
  · rintro ⟨e, st, w', hc, hst, -⟩
    rw [hcreate] at hc
    split at hc
    · cases hc
    · cases hc
      exact hst rfl
  · intro hv
    rw [hcreate, if_pos hv]
  · intro hv
    refine ⟨_, _, by rw [hcreate, if_neg (by rw [hv]; decide)], ?_⟩
    intro hsame
    have hnode : ((w.db.setNode 0 (w.db.node0.create 0 p)).domains 0).nodes 0 = w.db.node0.create 0 p :=
      setNode_same ..
    have hentry := congrFun (hsame 0 0).1 0
    dsimp only at hentry
    rw [hnode] at hentry
    have hvalid : (w.db.node0.endpoints 0).valid = true := congrArg EndpointEntry.valid hentry.symm
    rw [hv] at hvalid
    cases hvalid

/-- A driver that refuses every CREATE. -/
def noSession : Env := { drv := fun _ p => ⟨-28, 28, p, {}⟩ }

theorem noSession_refuses (p : U32) : RefusesCreate noSession p := ⟨by show (-28 : Int) < 0; decide, rfl⟩

/-- The first create of a process, refused, is reported as a success. -/
theorem first_refusal_lost : ¬ ReportsRefusal noSession { db := (Sys.init.after firstInit).db } 5 :=
  (refusal_lost (s := Sys.init.after firstInit) (Lts.Reachable.tail (.refl _) (l := firstInit) rfl) rfl rfl
    (noSession_refuses 5)).1

/-- And the refusal of a further one aborts. -/
theorem refusal_not_reported :
    ¬ ∀ s g, Lts.Reachable SysStep Sys.init s → s.seg = some g → ∀ E w p, w.db = g.db → RefusesCreate E p →
      ReportsRefusal E w p := by
  intro h
  have hs : Lts.Reachable SysStep Sys.init (Sys.init.after firstInit) :=
    Lts.Reachable.tail (.refl _) (l := firstInit) rfl
  obtain ⟨e, st, w', hc, hst, -⟩ := h _ _ hs rfl noSession { db := (Sys.init.after firstInit).db } 5 rfl
    (noSession_refuses 5)
  have hreg : Registered (Sys.init.after firstInit).db := registered_run hs _ rfl
  rw [endpointCreate_refused (w := { db := (Sys.init.after firstInit).db }) hreg (noSession_refuses 5),
    if_neg (by decide)] at hc
  cases hc
  exact hst rfl

end Mcapi
