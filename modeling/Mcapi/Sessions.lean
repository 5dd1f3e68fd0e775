/-
  Mcapi.Sessions — the endpoint table and the driver's sessions, side by side.

  The driver keeps a session per endpoint: CREATE opens one and returns its index,
  SHUTDOWN closes it (`DriverStep`). The library keeps the entry of that index. A
  `JointStep` is one create or delete with what the driver makes of its commands, for a
  driver that opens a session only at an index that is not live.

  `table_mirrors_sessions`: where a scan past the table counts as no match, after any run
  of creates and deletes slot k is valid exactly when session k is live, with the port it
  was created for; a create finds its slot free; and a delete changes nothing or clears
  one slot and closes the session with its index.
-/

import Mcapi.EndpointRuns

namespace Mcapi

variable {B : Build} {E : Env} {w w' : World} {db db' : Database} {n : U32}

/-! ## Creates and deletes on the only node -/

theorem OneNode.setNode (h : OneNode n db) {x : NodeEntry} (hx : x.nodeNum = n) : OneNode n (db.setNode 0 x) :=
  ⟨h.one, h.valid, by rw [setNode_node0]; exact hx⟩

/-- What a create does there. -/
theorem create_eq (hB : B.asserts = true) (h : FirstNode n w.db) (p : U32) :
    endpointCreate B E w p =
      (if (E.drv .create (createPkt p)).pkt.sessionIdx.msb then .error .assertion
      else do
        let k ← slotOf (E.drv .create (createPkt p)).pkt.sessionIdx
        if (w.db.node0.endpoints k).valid then .error .assertion
        else .ok ((endpointHandle n p, .success),
          { (ioctl E w .create (createPkt p)).2 with db := w.db.setNode 0 (w.db.node0.create k p) })) := by
  have hn : transGetNodeNum w.db = n := h.node
  have hnode : (w.db.domains 0).nodes 0 = w.db.node0 := rfl
  have hlim : ¬ transNumEndpoints = maxEndpoints := by decide
  unfold endpointCreate domainIdGet transGetDomainNum
  simp only [h.valid, if_true, ne_eq, not_true_eq_false, if_false, transEndpointExists, hlim, transValidPort,
    Bool.not_true, Bool.false_eq_true, transEndpointCreate, smCreateSession, hB, Bool.true_and]
  generalize hr : (E.drv .create (createPkt p)).pkt.sessionIdx = idx
  have hr' : (ioctl E w .create { localEp := p, type := .spPacket }).1.pkt.sessionIdx = idx := hr
  rw [hr']
  by_cases hm : idx.msb = true
  · rw [if_pos hm, if_pos hm]
    rfl
  rw [if_neg hm, if_neg hm, ioctl_db, hn, h.nodeIndex, ok_bind]
  dsimp only
  rw [hnode]
  rcases slotOf idx with f | k
  · rfl
  · simp only [ok_bind]
    by_cases hv : (w.db.node0.endpoints k).valid = true
    · rw [if_pos hv, if_pos hv]
      rfl
    · rw [if_neg hv, if_neg hv]
      rfl

/-- With an index in the table, at an entry that is free, it succeeds. -/
theorem create_free (hB : B.asserts = true) (h : FirstNode n w.db) {p : U32} {k : Slot}
    (hk : slotOf (E.drv .create (createPkt p)).pkt.sessionIdx = .ok k) (hv : ¬ (w.db.node0.endpoints k).valid = true) :
    endpointCreate B E w p = .ok ((endpointHandle n p, .success),
      { (ioctl E w .create (createPkt p)).2 with db := w.db.setNode 0 (w.db.node0.create k p) }) := by
  have hmsb : ¬ (E.drv .create (createPkt p)).pkt.sessionIdx.msb = true := (Bool.not_eq_true _).mpr (slotOf_msb hk)
  rw [create_eq hB h, if_neg hmsb, hk, ok_bind, if_neg hv]

/-- What a delete does there: only handles of node 0 are looked up. -/
theorem delete_eq (hB : B.asserts = true) (hO : ∀ j, B.overrun ≠ .ok (some j)) (h : OneNode n w.db) (e : U32) :
    endpointDelete B E w e =
      (if (transDecodeHandleInternal e).nodeId ≠ 0 ∨ n ≠ 0 then .ok (.errEndpInvalid, w)
      else do
        match ← scanPorts B w.db.node0 ((transDecodeHandleInternal e).portId.setWidth 32) with
        | none => .ok (.errEndpInvalid, w)
        | some k =>
          if (w.db.node0.endpoints k).isOpen then .ok (.errChanOpen, w)
          else .ok (.success,
            (ioctl E { w with db := w.db.setNode 0 (w.db.node0.delete k) } .shutdown (shutdownPkt k)).2)) := by
  by_cases hm : (transDecodeHandleInternal e).nodeId ≠ 0 ∨ n ≠ 0
  · rw [if_pos hm]
    have hv : transValidEndpoint B w.db e = .ok false := by
      unfold transValidEndpoint
      by_cases hm0 : (transDecodeHandleInternal e).nodeId ≠ masterNodeNum
      · exact if_pos hm0
      · dsimp only
        rw [if_neg hm0, not_not.mp hm0, h.portIndex, if_neg]
        · rfl
        · intro hn
          exact (hm.resolve_left hm0) hn.symm
    unfold endpointDelete
    rw [hv]
    rfl
  rw [if_neg hm]
  have hm0 : (transDecodeHandleInternal e).nodeId = 0 := by
    by_contra hne
    exact hm (.inl hne)
  have hm32 : (transDecodeHandleInternal e).nodeId.setWidth 32 = n := by
    rw [hm0]
    by_contra hne
    exact hm (.inr (Ne.symm hne))
  unfold endpointDelete transValidEndpoint transEndpointChannelIsopen transEndpointDelete
  simp only [masterNodeNum, hm0, ne_eq, not_true_eq_false, if_false, assertDecode, hB, if_true]
  rw [← hm0, hm32]
  simp only [h.portIndex, h.nodeIndex, if_true, ok_bind]
  cases hs : scanPorts B w.db.node0 ((transDecodeHandleInternal e).portId.setWidth 32) with
  | error f => rfl
  | ok k =>
    cases k with
    | none => rfl
    | some k =>
      have hv : (w.db.node0.endpoints k).valid = true := (scan_found hO hs).1
      simp only [ok_bind, hv, Bool.not_true, Bool.false_eq_true, if_false, transEndpointIsowner]
      by_cases ho : (w.db.node0.endpoints k).isOpen = true
      · rw [if_pos ho, if_pos ho]
      · rw [if_neg ho, if_neg ho]
        rfl

/-! ## The driver's sessions -/

/-- The sessions that are live, each with the port it was created for. -/
abbrev Sessions := Slot → Option U32

/-- What the driver makes of a command: a CREATE opens a session at an index that is not
    live, a SHUTDOWN of a live one succeeds and closes it, and one of another does not. -/
inductive DriverStep (live : Sessions) : Command → Sessions → Prop
  | create (k : Slot) (pkt : SmPacket) (reply : Reply) : reply.ret = 0 → slotOf reply.pkt.sessionIdx = .ok k →
      live k = none → DriverStep live ⟨.create, pkt, reply⟩ (Function.update live k (some pkt.localEp))
  | shutdown (k : Slot) (p : U32) (pkt : SmPacket) (reply : Reply) : reply.ret = 0 → slotOf pkt.sessionIdx = .ok k →
      live k = some p → DriverStep live ⟨.shutdown, pkt, reply⟩ (Function.update live k none)
  | foreign (pkt : SmPacket) (reply : Reply) : (∀ k, slotOf pkt.sessionIdx = .ok k → live k = none) →
      DriverStep live ⟨.shutdown, pkt, reply⟩ live

/-- A create or a delete, in this build. -/
def EndpointCall (B : Build) (db : Database) (l : CallRec) (db' : Database) : Prop :=
  (l.before.db = db ∧ l.after.db = db' ∧ l.before.trace = [] ∧ l.call.exec B l.env l.before = .ok (l.ret, l.after)) ∧
    ((∃ p, l.call = .endpointCreate p) ∨ ∃ e, l.call = .endpointDelete e)

/-- The library's table and the driver's. -/
structure Tables where
  db : Database
  live : Sessions

def JointStep (B : Build) (s : Tables) (l : CallRec) (s' : Tables) : Prop :=
  EndpointCall B s.db l s'.db ∧ Lts.Run DriverStep s.live l.commands s'.live

/-- A node just added to a fresh segment, and no session. -/
def Tables.fresh (d n : U32) (a : Option NodeAttributes) : Tables := ⟨initialised d n a, fun _ => none⟩

/-- Slot k is valid, with port p, exactly when session k is live and was created for it. -/
def Mirrors (s : Tables) : Prop := ∀ k p, Holds s.db k p ↔ s.live k = some p

theorem slotOf_sessionOf (k : Slot) : slotOf (sessionOf k) = .ok k := by
  have hk : (sessionOf k).toNat = k.val := by
    rw [sessionOf, BitVec.toNat_ofNat]
    exact Nat.mod_eq_of_lt (Nat.lt_trans k.isLt (by decide))
  unfold slotOf
  rw [dif_pos (by rw [hk]; exact k.isLt)]
  exact congrArg Except.ok (Fin.ext hk)

/-- What a create or delete does to the two tables: nothing, or the same to both. -/
inductive JointEffect (s : Tables) (l : CallRec) : Tables → Prop
  | same (e : U32) : l.call = .endpointDelete e → l.commands = [] → JointEffect s l s
  | created (k : Slot) (p : U32) : l.call = .endpointCreate p →
      slotOf (l.env.drv .create (createPkt p)).pkt.sessionIdx = .ok k → s.live k = none →
      JointEffect s l ⟨s.db.setNode 0 (s.db.node0.create k p), Function.update s.live k (some p)⟩
  | deleted (k : Slot) (e : U32) : l.call = .endpointDelete e → s.live k ≠ none →
      JointEffect s l ⟨s.db.setNode 0 (s.db.node0.delete k), Function.update s.live k none⟩

section
variable (hB : B.asserts = true) (hO : ∀ j, B.overrun ≠ .ok (some j))
include hB

theorem create_effect {s s' : Tables} {l : CallRec} {p : U32} (h : OneNode n s.db) (hs : JointStep B s l s')
    (hc : l.call = .endpointCreate p) : JointEffect s l s' := by
  obtain ⟨⟨⟨hb, ha, ht, he⟩, -⟩, hrun⟩ := hs
  obtain ⟨db, live⟩ := s
  obtain ⟨db', live'⟩ := s'
  subst hb ha
  rw [hc] at he
  obtain ⟨⟨x, w1⟩, hx, he⟩ := bind_eq_ok.mp he
  have hafter : l.after = w1 := by
    simp only [Except.ok.injEq, Prod.mk.injEq] at he
    exact he.2.symm
  rw [create_eq hB h.first] at hx
  split at hx
  · cases hx
  obtain ⟨k, hk, hx⟩ := bind_eq_ok.mp hx
  split at hx
  · cases hx
  cases hx
  have hcs : l.commands = [⟨.create, createPkt p, l.env.drv .create (createPkt p)⟩] := by
    rw [CallRec.commands, hafter]
    simp [ht]
  rw [hcs] at hrun
  cases hrun with
  | cons h1 h2 =>
    cases h2
    cases h1 with
    | create k' _ _ _ hk' hfree =>
      cases hk.symm.trans hk'
      have heff := JointEffect.created (s := ⟨l.before.db, live⟩) k p hc hk hfree
      rw [hafter]
      exact heff

include hO

theorem delete_effect {s s' : Tables} {l : CallRec} {e : U32} (h : OneNode n s.db) (hm : Mirrors s)
    (hs : JointStep B s l s') (hc : l.call = .endpointDelete e) : JointEffect s l s' := by
  obtain ⟨⟨⟨hb, ha, ht, he⟩, -⟩, hrun⟩ := hs
  obtain ⟨db, live⟩ := s
  obtain ⟨db', live'⟩ := s'
  subst hb ha
  rw [hc] at he
  obtain ⟨⟨st, w1⟩, hx, he⟩ := bind_eq_ok.mp he
  have hafter : l.after = w1 := by
    simp only [Except.ok.injEq, Prod.mk.injEq] at he
    exact he.2.symm
  have unchanged : w1 = l.before → JointEffect ⟨l.before.db, live⟩ l ⟨l.after.db, live'⟩ := by
    intro hw
    have hcs : l.commands = [] := by rw [CallRec.commands, hafter, hw, ht]; rfl
    rw [hcs] at hrun
    cases hrun
    rw [hafter, hw]
    exact .same e hc hcs
  rw [delete_eq hB hO h] at hx
  split at hx
  · cases hx
    exact unchanged rfl
  obtain ⟨k, hk, hx⟩ := bind_eq_ok.mp hx
  cases k with
  | none => cases hx; exact unchanged rfl
  | some k =>
    dsimp only at hx
    split at hx
    · cases hx
      exact unchanged rfl
    cases hx
    have hholds : Holds l.before.db k ((transDecodeHandleInternal e).portId.setWidth 32) := scan_found hO hk
    have hlive := (hm k _).mp hholds
    have hcs : l.commands = [⟨.shutdown, shutdownPkt k, l.env.drv .shutdown (shutdownPkt k)⟩] := by
      rw [CallRec.commands, hafter]
      simp [ht]
    rw [hcs] at hrun
    cases hrun with
    | cons h1 h2 =>
      cases h2
      cases h1 with
      | shutdown k' p' _ _ _ hk' _ =>
        cases (slotOf_sessionOf k).symm.trans hk'
        have hopen : live k ≠ none := Option.isSome_iff_ne_none.mp (Option.isSome_iff_exists.mpr ⟨_, hlive⟩)
        have heff := JointEffect.deleted (s := ⟨l.before.db, live⟩) k e hc hopen
        rw [hafter]
        exact heff
      | foreign _ _ hno =>
        rw [hno k (slotOf_sessionOf k)] at hlive
        cases hlive

theorem JointStep.effect {s s' : Tables} {l : CallRec} (h : OneNode n s.db) (hm : Mirrors s)
    (hs : JointStep B s l s') : JointEffect s l s' := by
  rcases hs.1.2 with ⟨p, hc⟩ | ⟨e, hc⟩
  · exact create_effect hB h hs hc
  · exact delete_effect hB hO h hm hs hc

end

/-- The node stays the only one, and the tables stay alike. -/
theorem JointEffect.keeps {s s' : Tables} {l : CallRec} (he : JointEffect s l s') (h : OneNode n s.db)
    (hm : Mirrors s) : OneNode n s'.db ∧ Mirrors s' := by
  cases he with
  | same => exact ⟨h, hm⟩
  | created k p =>
    refine ⟨h.setNode h.node, fun j q => ?_⟩
    rw [holds_create]
    by_cases hj : j = k
    · subst hj
      simp [eq_comm]
    · simp [hj, hm j q]
  | deleted k =>
    refine ⟨h.setNode h.node, fun j q => ?_⟩
    rw [holds_delete]
    by_cases hj : j = k
    · subst hj
      simp
    · simp [hj, hm j q]

/-! ### Steps that can be taken -/

/-- A driver that opens session 0. -/
def sessionZero : Env := { drv := fun _ p => ⟨0, 0, { p with sessionIdx := 0 }, {}⟩ }

/-- A create for which the driver opens a session that is not live. -/
theorem create_joint {s : Tables} (hB : B.asserts = true) (h : OneNode n s.db) (hm : Mirrors s) {p : U32} {k : Slot}
    (hret : (E.drv .create (createPkt p)).ret = 0)
    (hk : slotOf (E.drv .create (createPkt p)).pkt.sessionIdx = .ok k) (hfree : s.live k = none) :
    ∃ l, l.call = .endpointCreate p ∧ l.env = E ∧ JointStep B s l
      ⟨s.db.setNode 0 (s.db.node0.create k p), Function.update s.live k (some p)⟩ := by
  have hv : ¬ (s.db.node0.endpoints k).valid = true := by
    intro hv
    have hl := (hm k _).mp ⟨hv, rfl⟩
    rw [hfree] at hl
    cases hl
  have hx := create_free (w := { db := s.db }) hB h.first hk hv
  refine ⟨⟨E, .endpointCreate p, { db := s.db }, .value (endpointHandle n p) .success,
    { (ioctl E { db := s.db } .create (createPkt p)).2 with db := s.db.setNode 0 (s.db.node0.create k p) }⟩,
    rfl, rfl, ⟨⟨rfl, rfl, rfl, ?_⟩, .inl ⟨p, rfl⟩⟩, ?_⟩
  · simp only [Call.exec, hx, ok_bind]
  · exact .single (.create k _ _ hret hk hfree)

/-- A delete of an endpoint on a port that has no other. -/
theorem delete_joint {s : Tables} (hB : B.asserts = true) (hO : ∀ j, B.overrun ≠ .ok (some j)) (h : OneNode 0 s.db)
    (hm : Mirrors s) {p : U32} {k : Slot} (hp : p.toNat < 65536) (hret : (E.drv .shutdown (shutdownPkt k)).ret = 0)
    (hk : scanPorts B s.db.node0 p = .ok (some k)) (ho : (s.db.node0.endpoints k).isOpen = false) :
    ∃ l, l.call = .endpointDelete (endpointHandle 0 p) ∧ JointStep B s l
      ⟨s.db.setNode 0 (s.db.node0.delete k), Function.update s.live k none⟩ := by
  have hport : (transDecodeHandleInternal (endpointHandle 0 p)).portId.setWidth 32 = p :=
    (endpointHandle_names 0 p).2.trans (portField_of_lt hp)
  have hx := delete_eq (E := E) (w := { db := s.db }) hB hO h (endpointHandle 0 p)
  rw [endpointHandle_master, hport, if_neg (by simp), hk, ok_bind] at hx
  dsimp only at hx
  rw [ho, if_neg (by simp)] at hx
  refine ⟨⟨E, .endpointDelete (endpointHandle 0 p), { db := s.db }, .status .success,
    (ioctl E { db := s.db.setNode 0 (s.db.node0.delete k) } .shutdown (shutdownPkt k)).2⟩,
    rfl, ⟨⟨rfl, rfl, rfl, ?_⟩, .inr ⟨_, rfl⟩⟩, ?_⟩
  · simp only [Call.exec, hx, ok_bind]
  · exact .single (.shutdown k p _ _ hret (slotOf_sessionOf k) ((hm k p).mp (scan_found hO hk)))

/-! ## Runs -/

theorem fresh_node0 (d n : U32) (a : Option NodeAttributes) :
    ∃ attributes, (initialised d n a).node0 = ⟨n, true, attributes, 1, fun _ => {}⟩ := by
  obtain ⟨attributes, hd⟩ := initialised_domain d n a
  exact ⟨attributes, by rw [Database.node0, hd]; rfl⟩

theorem fresh_oneNode (d n : U32) (a : Option NodeAttributes) : OneNode n (Tables.fresh d n a).db := by
  obtain ⟨_, hd⟩ := initialised_domain d n a
  obtain ⟨_, hn⟩ := fresh_node0 d n a
  exact ⟨by rw [Tables.fresh, hd], by rw [Tables.fresh, hd], by rw [Tables.fresh, hn]⟩

theorem fresh_mirrors (d n : U32) (a : Option NodeAttributes) : Mirrors (Tables.fresh d n a) := by
  obtain ⟨_, hn⟩ := fresh_node0 d n a
  intro k p
  simp [Holds, Tables.fresh, hn]

theorem mirrors_run (hB : B.asserts = true) (hO : ∀ j, B.overrun ≠ .ok (some j)) {d : U32} {a : Option NodeAttributes}
    {ls : List CallRec} {s : Tables} (hrun : Lts.Run (JointStep B) (.fresh d n a) ls s) :
    OneNode n s.db ∧ Mirrors s := by
  refine hrun.keeps (I := fun s => OneNode n s.db ∧ Mirrors s) ?_ ⟨fresh_oneNode d n a, fresh_mirrors d n a⟩
  intro s l s' _ hi hs
  exact (hs.effect hB hO hi.1 hi.2).keeps hi.1 hi.2

/-- The build in which a scan past the table is no match. -/
def Build.lenient : Build := ⟨true, .ok none⟩

theorem lenient_scan (x : NodeEntry) (p : U32) : ∃ k, scanPorts .lenient x p = .ok k := by
  unfold scanPorts
  split
  · exact ⟨_, rfl⟩
  · split <;> exact ⟨none, rfl⟩

/-- After any run of creates and deletes on the first node, under any number, the valid
    slots are the live sessions, each with the port it was created for. A create for
    which the driver opens a session that is not live succeeds, and a delete leaves
    everything as it is, or clears one valid slot and closes the session of that index. -/
theorem table_mirrors_sessions {d : U32} {a : Option NodeAttributes} {ls : List CallRec} {s : Tables}
    (hrun : Lts.Run (JointStep .lenient) (.fresh d n a) ls s) :
    Mirrors s ∧
    (∀ E w p k, w.db = s.db → slotOf (E.drv .create (createPkt p)).pkt.sessionIdx = .ok k → s.live k = none →
      ∃ w', endpointCreate .lenient E w p = .ok ((endpointHandle n p, .success), w') ∧
        w'.db = s.db.setNode 0 (s.db.node0.create k p)) ∧
    ∀ E w e, w.db = s.db → ∃ st w', endpointDelete .lenient E w e = .ok (st, w') ∧
      (w' = w ∨ ∃ k, (s.db.node0.endpoints k).valid = true ∧ w'.db = s.db.setNode 0 (s.db.node0.delete k) ∧
        commands w'.trace = commands w.trace ++ [⟨.shutdown, shutdownPkt k, E.drv .shutdown (shutdownPkt k)⟩]) := by
  have hB : Build.lenient.asserts = true := rfl
  have hO : ∀ j, Build.lenient.overrun ≠ .ok (some j) := nofun
  obtain ⟨h, hm⟩ := mirrors_run hB hO hrun
  refine ⟨hm, ?_, ?_⟩
  · intro E w p k hw hk hfree
    rw [← hw] at h ⊢
    have hv : ¬ (w.db.node0.endpoints k).valid = true := by
      intro hv
      rw [hw] at hv
      have hl := (hm k _).mp ⟨hv, rfl⟩
      rw [hfree] at hl
      cases hl
    exact ⟨_, create_free hB h.first hk hv, rfl⟩
  · intro E w e hw
    rw [← hw] at h ⊢
    rw [delete_eq hB hO h]
    split
    · exact ⟨_, _, rfl, .inl rfl⟩
    obtain ⟨k, hk⟩ := lenient_scan w.db.node0 ((transDecodeHandleInternal e).portId.setWidth 32)
    rw [hk, ok_bind]
    cases k with
    | none => exact ⟨_, _, rfl, .inl rfl⟩
    | some k =>
      dsimp only
      split
      · exact ⟨_, _, rfl, .inl rfl⟩
      exact ⟨_, _, rfl, .inr ⟨k, (scan_found hO hk).1, rfl, commands_ioctl_trace _ .shutdown (shutdownPkt k)⟩⟩

/-- The first node, number 7, creates an endpoint on port 5. -/
theorem first_create_mirrored :
    ∃ ls s, Lts.Run (JointStep .lenient) (.fresh 0 7 none) ls s ∧ s.live 0 = some 5 ∧ Mirrors s := by
  obtain ⟨l, -, -, hs⟩ := create_joint (B := .lenient) (E := sessionZero) (p := 5) (k := 0) rfl (fresh_oneNode 0 7 none)
    (fresh_mirrors 0 7 none) rfl rfl rfl
  exact ⟨_, _, .single hs, by simp, (table_mirrors_sessions (.single hs)).1⟩

end Mcapi
