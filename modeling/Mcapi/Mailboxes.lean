/-
  Mcapi.Mailboxes — messages from end to end: the library and a driver that keeps them.

  The driver is the one thing between a send and a receive. What is asked of it (`Serves`):
  it keeps a queue for each session, with the port the session was created for. CREATE
  gives out a session that is not in use, SHUTDOWN ends one. A SEND for this node goes to
  the back of the queue of the session with that port, and a RECV takes the front of the
  queue of the session it names; a WAIT for a send or a receive does what the command it
  waits for would have done. One of these that returns -1, and not 0, does nothing.

  To the caller there are no sessions, only ports in handles. `CallRec.deed` says, from a
  call's arguments, its result and the record of its request, what it did to the mailbox of
  a port. Between the two stands the library: handles are decoded, looked up in the
  endpoint table and turned into session numbers, again for each call.

  - `mailboxes_refined`: a run of library and driver is, with the deeds of its calls, a run
    of mailboxes by port.
  - `messages_in_order`: so from the creation of an endpoint until it is deleted, the
    messages received on its port are those sent to it, in order and each once; the rest
    wait in its session.

  Runs are of node 0, with usable creates (`UsableCreate`).
-/

import Mcapi.Routing
import Mcapi.PublicApi
import Mcapi.Isolation
import Mcapi.Sessions
import Mcapi.Lib.Boxes

namespace Mcapi

open Boxes (Deed Mail Shows)

variable {M : Type} {E : Env} {w w' : World} {db db' : Database}

/-! ## The driver -/

/-- The sessions that are live, each with its port and the messages that wait in it. -/
abbrev Posts (M : Type) := Slot → Option (U32 × List M)

/-- What a command asks for; a WAIT asks for what it waits for. -/
inductive Action where
  | opens
  | closes
  | sends
  | hands
  | counts
  | asks
  deriving DecidableEq, Repr

def Command.action (c : Command) : Action :=
  match c.cmd with
  | .create => .opens
  | .shutdown => .closes
  | .send => .sends
  | .recv => .hands
  | .getSessionStatus => .counts
  | .wait =>
    match c.pkt.type with
    | .request .send => .sends
    | .request .recv => .hands
    | _ => .asks
  | .queryRemoteEp | .connect => .asks

/-- What the driver makes of a command; `m` is the message that it moves, if it does. -/
def Serves (m : M) (posts : Posts M) (c : Command) (posts' : Posts M) : Prop :=
  match c.action with
  | .opens => c.reply.ret = 0 ∧ ∃ k, slotOf c.reply.pkt.sessionIdx = .ok k ∧ posts k = none ∧
      posts' = Function.update posts k (some (c.pkt.localEp, []))
  | .closes => ∃ k, slotOf c.pkt.sessionIdx = .ok k ∧ posts k ≠ none ∧ posts' = Function.update posts k none
  | .sends =>
    -- it goes to the back of the queue of its port, or leaves the node
    (c.reply.ret = 0 ∧ c.pkt.dstCpu = 0 ∧ ∃ k q, posts k = some (c.pkt.remoteEp, q) ∧
      posts' = Function.update posts k (some (c.pkt.remoteEp, q ++ [m]))) ∨
    (c.reply.ret = 0 ∧ c.pkt.dstCpu ≠ 0 ∧ posts' = posts) ∨ (c.reply.ret = -1 ∧ posts' = posts)
  | .hands =>
    (c.reply.ret = 0 ∧ ∃ k p q, slotOf c.pkt.sessionIdx = .ok k ∧ posts k = some (p, m :: q) ∧
      posts' = Function.update posts k (some (p, q))) ∨ (c.reply.ret = -1 ∧ posts' = posts)
  | .counts => posts' = posts ∧
    (c.reply.ret = -1 ∨ (c.reply.ret = 0 ∧ ∃ k p q, slotOf c.pkt.sessionIdx = .ok k ∧ posts k = some (p, q) ∧
      c.reply.status.nAvail.toNat = q.length))
  | .asks => posts' = posts

/-! ## What a call does to the mailboxes -/

/-- A message sent to a handle: it stays here, or leaves the node. -/
def sentTo (h : U32) (m : M) : Deed U32 M := if nodeOf h = 0 then .put (portOf h) m else .idle

/-- The completion of a request with this record; a second one does nothing. -/
def RequestData.deed (d : RequestData) (m : M) : Deed U32 M :=
  if d.completed then .idle
  else match d.type with
    | .send => sentTo d.epEndpoint m
    | .recv => .took (portOf d.handle) m
    | _ => .idle

/-- The completion of the request with this handle. -/
def completes (db : Database) (v : U32) (m : M) : Deed U32 M :=
  match requestSlot v with
  | .ok r => (db.requests r).deed m
  | .error _ => .idle

/-- The number a call returns. -/
def Ret.number : Ret → U32
  | .value v _ => v
  | _ => 0

/-- What a call did to the mailbox of a port, as its caller sees it: by the handles it
    passed and the status it got. A truncated message is gone all the same. -/
def CallRec.deed (l : CallRec) (m : M) : Deed U32 M :=
  let st := l.ret.reported
  match l.call with
  | .endpointCreate p => if st = .success then .opened p else .idle
  | .endpointDelete e => if st = .success then .closed (portOf e) else .idle
  | .msgSend _ r _ _ _ => if st = .success then sentTo r m else .idle
  | .msgSendI _ r _ _ _ _ => if st = .success then sentTo r m else .idle
  | .msgRecv r _ _ _ => if st = .success ∨ st = .errMsgTruncated then .took (portOf r) m else .idle
  | .msgRecvI r _ _ _ => if st = .success then .took (portOf r) m else .idle
  | .msgAvailable r => if st = .success then .counted (portOf r) l.ret.number.toNat else .idle
  | .test v _ => if st = .success then completes l.before.db v m else .idle
  | .wait v _ _ => if st = .success then completes l.before.db v m else .idle
  | _ => .idle

/-! ## Runs of both -/

/-- The library's database and the driver's sessions. -/
structure Post (M : Type) where
  db : Database
  posts : Posts M

/-- A call, with what the driver makes of its commands. -/
def PostStep (s : Post M) (l : CallRec × M) (s' : Post M) : Prop :=
  CallStep s.db l.1 s'.db ∧ Lts.Run (Serves l.2) s.posts l.1.commands s'.posts

def UsablePost (s : Post M) (l : CallRec × M) : Prop := ∀ p, l.1.call = .endpointCreate p → UsableCreate l.1.env s.db p

/-- Node 0, just added to a fresh segment, and no session. -/
def Post.fresh (d : U32) (a : Option NodeAttributes) : Post M := ⟨initialised d 0 a, fun _ => none⟩

/-- The table is in order, and has the ports of the sessions. -/
structure Mirrored (s : Post M) : Prop where
  table : TableInv s.db
  same : ∀ k p, Holds s.db k p ↔ ∃ q, s.posts k = some (p, q)

theorem fresh_mirrored (d : U32) (a : Option NodeAttributes) : Mirrored (M := M) (.fresh d a) := by
  refine ⟨initialised_table d a, fun k p => ⟨fun h => ?_, fun h => ?_⟩⟩
  · obtain ⟨attributes, hd⟩ := initialised_domain d 0 a
    have hv := h.1
    rw [Post.fresh, Database.node0, hd] at hv
    cases hv
  · obtain ⟨q, hq⟩ := h
    cases hq

/-- A handle that leads to an endpoint names node 0 and its port. -/
theorem lookup_holds (h : TableInv db) {e : U32} {k : Slot} (hk : lookup db e = .ok (some k)) :
    nodeOf e = 0 ∧ Holds db k (portOf e) := by
  have hlook : lookup db e = transGetPortIndex .std db (nodeOf e) (portOf e) := rfl
  have hnode : nodeOf e = 0 := by
    by_contra hne
    rw [hlook, h.oneNode.portIndex, if_neg hne] at hk
    cases hk
  rw [hlook, hnode] at hk
  exact ⟨hnode, holds_of_getPortIndex h hk⟩

/-! ## What a call tells the driver -/

/-- What one call tells the driver, and what its caller can tell of it. -/
inductive Speaks (db : Database) (l : CallRec) (db' : Database) : Prop
  | silent : l.commands = [] → (∀ (M : Type) (m : M), l.deed m = .idle) → db'.domains = db.domains → Speaks db l db'
  | asks (c : Command) : l.commands = [c] → c.action = .asks → (∀ (M : Type) (m : M), l.deed m = .idle) →
      db'.domains = db.domains → Speaks db l db'
  | counts (c : Command) (k : Slot) (e : U32) : l.commands = [c] → c.action = .counts →
      c.pkt.sessionIdx = sessionOf k → lookup db e = .ok (some k) →
      (c.reply.ret = 0 → ∀ (M : Type) (m : M), l.deed m = .counted (portOf e) c.reply.status.nAvail.toNat) →
      (c.reply.ret = -1 → ∀ (M : Type) (m : M), l.deed m = .idle) → db'.domains = db.domains → Speaks db l db'
  | sends (c : Command) (e : U32) : l.commands = [c] → c.action = .sends → c.pkt.dstCpu = nodeOf e →
      c.pkt.remoteEp = portOf e →
      (c.reply.ret = 0 → ∀ (M : Type) (m : M), l.deed m = sentTo e m) →
      (c.reply.ret = -1 → ∀ (M : Type) (m : M), l.deed m = .idle) → db'.domains = db.domains → Speaks db l db'
  | hands (c : Command) (k : Slot) (e : U32) : l.commands = [c] → c.action = .hands → c.pkt.sessionIdx = sessionOf k →
      lookup db e = .ok (some k) → (c.reply.ret = 0 → ∀ (M : Type) (m : M), l.deed m = .took (portOf e) m) →
      (c.reply.ret = -1 → ∀ (M : Type) (m : M), l.deed m = .idle) → db'.domains = db.domains → Speaks db l db'
  | opens (k : Slot) (p : U32) (reply : Reply) : l.call = .endpointCreate p → reply = l.env.drv .create (createPkt p) →
      l.commands = [⟨.create, createPkt p, reply⟩] → slotOf reply.pkt.sessionIdx = .ok k →
      (∀ (M : Type) (m : M), l.deed m = .opened p) → db' = db.setNode 0 (db.node0.create k p) → Speaks db l db'
  | closes (k : Slot) (e : U32) (reply : Reply) : l.commands = [⟨.shutdown, shutdownPkt k, reply⟩] →
      lookup db e = .ok (some k) → (∀ (M : Type) (m : M), l.deed m = .closed (portOf e)) →
      db' = db.setNode 0 (db.node0.delete k) → Speaks db l db'

/-- With the world before and after in place of the record. -/
theorem commands_after {l : CallRec} (ht : l.before.trace = []) {cs : List Command}
    (h : commands l.after.trace = commands l.before.trace ++ cs) : l.commands = cs := by
  rw [CallRec.commands, h, ht]
  rfl

/-- How a blocking send ends, where it gets as far as the driver. -/
theorem send_cases {s r b n p : U32} {st : Status} (h : msgSend .std E w s r b n p = .ok (st, w')) :
    (w' = w ∧ st ≠ .success) ∨ ∃ k, lookup w.db s = .ok (some k) ∧
      commands w'.trace = commands w.trace ++ [⟨.send, sendPkt k r b n, E.drv .send (sendPkt k r b n)⟩] ∧
      (st = .success ↔ (E.drv .send (sendPkt k r b n)).ret = 0) := by
  obtain ⟨v, hv, h⟩ := bind_eq_ok.mp h
  split at h
  · rename_i hne
    cases h
    exact .inl ⟨rfl, hne⟩
  obtain ⟨k, hk, h⟩ := bind_eq_ok.mp h
  cases k with
  | none => cases h; exact .inl ⟨rfl, nofun⟩
  | some k =>
    right
    refine ⟨k, hk, ?_⟩
    have hcs : commands (smSendPacket E w (sessionOf k) (portOf r) (nodeOf r) b n true).2.2.trace =
        commands w.trace ++ [⟨.send, sendPkt k r b n, E.drv .send (sendPkt k r b n)⟩] := by
      have htr := commands_ioctl_trace (E := E) (setBlocking w true) .send (sendPkt k r b n)
      rwa [commands_setBlocking] at htr
    dsimp only at h
    split at h
    · rename_i hret
      cases h
      refine ⟨hcs, ⟨fun hst => ?_, fun h0 => absurd h0 hret⟩⟩
      split at hst <;> cases hst
    · rename_i hret
      cases h
      exact ⟨hcs, fun _ => not_not.mp hret, fun _ => rfl⟩

/-- A blocking receive has a message exactly where the command returned 0, also where the
    caller is told that it was cut. -/
theorem recv_cases {r b n m : U32} {x : Status × U32} (h : msgRecv .std E w r b n m = .ok (x, w')) :
    (w' = w ∧ x.1 ≠ .success ∧ x.1 ≠ .errMsgTruncated) ∨ ∃ k, lookup w.db r = .ok (some k) ∧
      commands w'.trace = commands w.trace ++ [⟨.recv, recvPkt k b n, E.drv .recv (recvPkt k b n)⟩] ∧
      (x.1 = .success ∨ x.1 = .errMsgTruncated ↔ (E.drv .recv (recvPkt k b n)).ret = 0) := by
  obtain ⟨v, hv, h⟩ := bind_eq_ok.mp h
  split at h
  · rename_i hne
    cases h
    refine .inl ⟨rfl, hne, fun ht => ?_⟩
    have hrec : v = .errParameter ∨ v = .errEndpInvalid ∨ v = .success := by
      unfold recvChecks at hv
      split at hv
      · cases hv; exact .inl rfl
      obtain ⟨ok, -, hv⟩ := bind_eq_ok.mp hv
      split at hv
      · cases hv; exact .inr (.inl rfl)
      · cases hv; exact .inr (.inr rfl)
    have ht : v = .errMsgTruncated := ht
    subst ht
    rcases hrec with h | h | h <;> cases h
  rename_i hok
  have hb : b ≠ 0 := by
    intro hb
    subst hb
    have hnull : recvChecks .std w.db r 0 = .ok .errParameter := rfl
    cases hnull.symm.trans hv
    exact hok (by decide)
  obtain ⟨⟨⟨st, len⟩, w1⟩, h1, h⟩ := bind_eq_ok.mp h
  obtain ⟨k, hk, h1⟩ := bind_eq_ok.mp h1
  cases k with
  | none =>
    cases h1
    cases h
    exact .inl ⟨rfl, nofun, nofun⟩
  | some k =>
    right
    refine ⟨k, hk, ?_⟩
    have hcs : commands (ioctl E (setBlocking w true) .recv (recvPkt k b n)).2.trace =
        commands w.trace ++ [⟨.recv, recvPkt k b n, E.drv .recv (recvPkt k b n)⟩] := by
      rw [commands_ioctl_trace, commands_setBlocking]
    simp only [smRecvPacket_eq hb, received_ret] at h1
    split at h1
    · rename_i hret
      cases h1
      cases h
      refine ⟨hcs, ⟨fun hst => ?_, fun h0 => absurd h0 hret⟩⟩
      exfalso
      dsimp only at hst
      split at hst <;> rcases hst with hst | hst <;> cases hst
    · rename_i hret
      cases h1
      have h0 := not_not.mp hret
      dsimp only at h
      split at h
      · cases h
        exact ⟨hcs, fun _ => h0, fun _ => .inr rfl⟩
      · cases h
        exact ⟨hcs, fun _ => h0, fun _ => .inl rfl⟩

theorem available_cases {r : U32} {x : U32 × Status} (h : msgAvailable .std E w r = .ok (x, w')) :
    (w' = w ∧ x.2 ≠ .success) ∨ ∃ k c, lookup w.db r = .ok (some k) ∧ c.cmd = .getSessionStatus ∧
      c.pkt.sessionIdx = sessionOf k ∧ commands w'.trace = commands w.trace ++ [c] ∧
      (x.2 = .success ↔ c.reply.ret = 0) ∧ (c.reply.ret = 0 → x.1 = c.reply.status.nAvail) := by
  obtain ⟨v, -, h⟩ := bind_eq_ok.mp h
  split at h
  · cases h; exact .inl ⟨rfl, nofun⟩
  dsimp only [transMsgAvailable] at h
  split at h
  · cases h
  obtain ⟨k, hk, h⟩ := bind_eq_ok.mp h
  cases k with
  | none => cases h; exact .inl ⟨rfl, nofun⟩
  | some k =>
    right
    let pkt : SmPacket := { sessionIdx := sessionOf k }
    refine ⟨k, ⟨.getSessionStatus, pkt, E.drv .getSessionStatus pkt⟩, hk, rfl, rfl, ?_⟩
    have hcs := commands_ioctl_trace (E := E) w .getSessionStatus { sessionIdx := sessionOf k }
    dsimp only at h
    split at h
    · rename_i hret
      cases h
      exact ⟨hcs, ⟨nofun, fun h0 => absurd h0 hret⟩, fun h0 => absurd h0 hret⟩
    · rename_i hret
      cases h
      exact ⟨hcs, ⟨fun _ => not_not.mp hret, fun _ => rfl⟩, fun _ => rfl⟩

/-- A test on an uncompleted request that succeeds has had its WAIT taken for a success. -/
theorem test_success_taken {r : Req} {size : Option U32} {d : Done} {t : Target} (hr : (w.db.requests r).valid = true)
    (hc : (w.db.requests r).completed = false)
    (ht : completionTarget .std E w.db (w.db.requests r) = .ok (some t))
    (h : test .std E w (handleOf r) size = .ok (d, w')) (hd : d.status = .success) :
    (waitCommand E t (w.db.requests r) 0).Taken := by
  cases size with
  | none => cases h; cases hd
  | some sz => ?_
  rw [waitCommand_taken]
  by_contra hret
  have hv : ¬ (Build.std.asserts && !transValidRequestHandle w.db (handleOf r)) = true := by simp [hr]
  simp only [test, transValidSizeParam, validRequestHandle_handleOf, hr, Option.isSome_some, Bool.not_true,
    Bool.false_eq_true, if_false] at h
  rw [transTestI, if_neg hv, requestSlot_handleOf, ok_bind] at h
  dsimp only at h
  rw [ht] at h
  simp only [hr, hc, Bool.not_true, Bool.false_eq_true, if_false, ok_bind, Option.map_some, smWaitNonblocking_eq, hret,
    ne_eq, not_false_eq_true, if_true] at h
  split at h
  · cases h; cases hd
  · cases h
    exact ite_ne (x := Status.pending) (y := .errGeneral) (z := .success) (by decide) (by decide) hd

/-- With `ioctl`'s two values, a WAIT is taken for a success where it is one. -/
theorem taken_iff {t : Target} {d : RequestData} {timeout : U32}
    (hret : (waitCommand E t d timeout).reply.ret = 0 ∨ (waitCommand E t d timeout).reply.ret = -1) :
    (waitCommand E t d timeout).Taken ↔ (waitCommand E t d timeout).reply.ret = 0 := by
  rw [waitCommand_taken]
  rcases hret with h | h <;> rw [h] <;> decide

/-- The WAIT for a request, as a command on what its record names. -/
theorem wait_speaks {l : CallRec} {r : Req} {t : Target} {timeout : U32}
    (ht : completionTarget .std l.env db (db.requests r) = .ok (some t))
    (hcs : l.commands = [waitCommand l.env t (db.requests r) timeout]) (hdom : db'.domains = db.domains)
    (hdeed : ∀ (M : Type) (m : M), l.deed m =
      if (waitCommand l.env t (db.requests r) timeout).Taken then (db.requests r).deed m else .idle)
    (hc : (db.requests r).completed = false) : Speaks db l db' := by
  have htaken (h0 : (waitCommand l.env t (db.requests r) timeout).reply.ret = 0) (M : Type) (m : M) :
      l.deed m = (db.requests r).deed m := by
    rw [hdeed, if_pos ((taken_iff (.inl h0)).mpr h0)]
  have hnot (h1 : (waitCommand l.env t (db.requests r) timeout).reply.ret = -1) (M : Type) (m : M) :
      l.deed m = .idle := by
    rw [hdeed, if_neg]
    intro htk
    have h0 := (taken_iff (.inr h1)).mp htk
    rw [h1] at h0
    cases h0
  have hval (M : Type) (m : M) : (db.requests r).deed m = match (db.requests r).type with
      | .send => sentTo (db.requests r).epEndpoint m
      | .recv => .took (portOf (db.requests r).handle) m
      | _ => .idle := by
    rw [RequestData.deed, if_neg (by rw [hc]; simp)]
  have hact : (waitCommand l.env t (db.requests r) timeout).action =
      match (db.requests r).type with
      | .send => .sends
      | .recv => .hands
      | _ => .asks := by
    cases h : (db.requests r).type <;> simp [Command.action, waitCommand, waitPkt, h]
  cases htype : (db.requests r).type with
  | send =>
    have htgt : t.re = portOf (db.requests r).epEndpoint ∧ t.rn = nodeOf (db.requests r).epEndpoint := by
      unfold completionTarget at ht
      rw [if_pos (by rw [htype]; decide)] at ht
      obtain ⟨k, -, ht⟩ := bind_eq_ok.mp ht
      cases k with
      | none => cases ht
      | some k => cases ht; exact ⟨rfl, rfl⟩
    refine .sends _ (db.requests r).epEndpoint hcs (by rw [hact, htype]) htgt.2 htgt.1 ?_ hnot hdom
    intro h0 M m
    rw [htaken h0, hval, htype]
  | recv =>
    obtain ⟨k, hk, hidx⟩ := target_session (by rw [htype]; decide) ht
    refine .hands _ k (db.requests r).handle hcs (by rw [hact, htype]) hidx hk ?_ hnot hdom
    intro h0 M m
    rw [htaken h0, hval, htype]
  | _ =>
    refine .asks _ hcs (by rw [hact, htype]) (fun M m => ?_) hdom
    rw [hdeed]
    split
    · rw [hval, htype]
    · rfl

theorem test_speaks {l : CallRec} {v : U32} {size : Option U32} (hs : CallStep db l db') (hc : l.call = .test v size) :
    Speaks db l db' := by
  obtain ⟨rfl, rfl, ht, hx⟩ := hs
  rw [hc] at hx
  obtain ⟨d, hd, hx⟩ := test_exec hx
  have hdeed (M : Type) (m : M) : l.deed m =
      if d.status = .success then completes l.before.db v m else .idle := by
    simp only [CallRec.deed, hc, hd, Ret.reported]
  have hcases := test_cases hx
  generalize hw : l.after = w' at hx hcases
  cases hcases with
  | refused _ hst =>
    refine .silent (commands_after ht (by rw [hw, List.append_nil])) (fun M m => ?_) rfl
    rw [hdeed, if_neg]
    rcases hst with h | h <;> simp [h]
  | ended r _ hv hr hdone =>
    refine .silent (commands_after ht (by rw [hw, List.append_nil])) (fun M m => ?_) rfl
    rw [hdeed]
    split
    · rename_i hst
      obtain ⟨-, hcomp⟩ := hdone hst
      rw [hv, completes, requestSlot_handleOf]
      simp only [RequestData.deed, hcomp, if_true]
    · rfl
  | pending r t _ w' hv hr hcomp htgt hret _ hst hdb htr =>
    refine wait_speaks htgt (commands_after ht (by rw [hw]; exact htr)) (by rw [hdb]) (fun M m => ?_) hcomp
    rw [hdeed, if_neg hst, if_neg]
    exact hret
  | done r t _ w' sz hv hr hcomp htgt _ hst hdb htr =>
    refine wait_speaks htgt (commands_after ht (by rw [hw]; exact htr)) (by rw [hdb]; rfl) (fun M m => ?_) hcomp
    rw [hv] at hx
    rw [hdeed, if_pos hst, if_pos (test_success_taken hr hcomp htgt hx hst), hv, completes, requestSlot_handleOf]

theorem wait_call_speaks {l : CallRec} {v t : U32} {size : Option U32} (hs : CallStep db l db')
    (hc : l.call = .wait v size t) : Speaks db l db' := by
  obtain ⟨rfl, rfl, ht, hx⟩ := hs
  rw [hc] at hx
  obtain ⟨d, hd, hx⟩ := wait_exec hx
  have hdeed (M : Type) (m : M) : l.deed m =
      if d.status = .success then completes l.before.db v m else .idle := by
    simp only [CallRec.deed, hc, hd, Ret.reported]
  have hcases := wait_cases hx
  generalize hw : l.after = w' at hx hcases
  cases hcases with
  | refused _ hst =>
    refine .silent (commands_after ht (by rw [hw, List.append_nil])) (fun M m => ?_) rfl
    rw [hdeed, if_neg]
    rcases hst with h | h <;> simp [h]
  | gone r _ hv hr htgt _ hst =>
    refine .silent (commands_after ht (by rw [hw, List.append_nil])) (fun M m => ?_) rfl
    rw [hdeed, if_neg]
    simp [hst]
  | already r _ w' hv hr hcomp _ _ hdb htr =>
    refine .silent (commands_after ht (by rw [hw, htr, List.append_nil])) (fun M m => ?_) ?_
    · rw [hdeed, hv, completes, requestSlot_handleOf]
      simp only [RequestData.deed, hcomp, if_true, ite_self]
    · rw [hdb, dropped_domains]
  | failed r tg _ w' hv hr hcomp htgt hret _ hst hdb htr =>
    refine wait_speaks htgt (commands_after ht (by rw [hw]; exact htr)) (by rw [hdb, dropped_domains]) (fun M m => ?_)
      hcomp
    rw [hdeed, if_neg, if_neg]
    · exact hret
    · rcases hst with h | h <;> simp [h]
  | done r tg _ w' rec hv hr hcomp htgt _ hst _ hdb htr =>
    refine wait_speaks htgt (commands_after ht (by rw [hw]; exact htr)) (by rw [hdb, dropped_domains]; rfl)
      (fun M m => ?_) hcomp
    rw [hv] at hx
    rw [hdeed, if_pos hst, if_pos (wait_success_taken hr hcomp htgt hx hst), hv, completes, requestSlot_handleOf]

/-- What the status of an issued request says of its command. -/
theorem issueStatus_success {ret errno : Int} : issueStatus ret errno = .success ↔ ret = 0 := by
  unfold issueStatus
  by_cases h : ret = 0
  · simp [h]
  · rw [if_pos h]
    constructor
    · intro hst
      split at hst <;> cases hst
    · intro h0
      exact absurd h0 h

theorem issue_speaks {l : CallRec} {i : Issuer} {q : Option U32} (hs : CallStep db l db') (hc : l.call = i.call q) :
    Speaks db l db' := by
  have hdom : db'.domains = db.domains := by
    obtain ⟨rfl, rfl, -, hx⟩ := hs
    rw [hc] at hx
    obtain ⟨y, -, hx⟩ := issue_exec hx
    exact issue_domains hx
  obtain ⟨rfl, rfl, ht, hx⟩ := hs
  rw [hc] at hx
  obtain ⟨y, hy, hx⟩ := issue_exec hx
  -- where it is not answered by a command, the deed is none
  have hidle (hst : y.status = .success → ∃ d n p e, i = .endpointGetI d n p e) (M : Type) (m : M) :
      l.deed m = .idle := by
    cases i with
    | endpointGetI d n p e => simp only [CallRec.deed, hc, Issuer.call]
    | msgSendI s r b n p =>
      have hne : ¬ y.status = .success := by
        intro h
        obtain ⟨_, _, _, _, h⟩ := hst h
        cases h
      simp only [CallRec.deed, hc, Issuer.call, hy, Ret.reported, if_neg hne]
    | msgRecvI r b n =>
      have hne : ¬ y.status = .success := by
        intro h
        obtain ⟨_, _, _, _, h⟩ := hst h
        cases h
      simp only [CallRec.deed, hc, Issuer.call, hy, Ret.reported, if_neg hne]
  have hcases := issue_cases hx
  generalize hw : l.after = w' at hcases hdom
  cases hcases with
  | refused =>
    exact .silent (commands_after ht (by rw [hw, List.append_nil])) (hidle fun h => by cases h) hdom
  | found w' hr _ htr =>
    exact .silent (commands_after ht (by rw [hw, htr, List.append_nil])) (hidle fun _ => route_found hr) hdom
  | limit =>
    exact .silent (commands_after ht (by rw [hw, List.append_nil])) (hidle fun h => by cases h) hdom
  | missing id =>
    exact .silent (commands_after ht (by rw [hw, List.append_nil])) (hidle fun h => by cases h) hdom
  | noBuffer id w' _ _ _ _ htr =>
    refine .silent (commands_after ht (by rw [hw, htr, List.append_nil])) (hidle ?_) hdom
    intro hst
    have hst : issueStatus (-einval) l.before.errno = .success := hst
    cases issueStatus_success.mp hst
  | command id c p w' _ _ hr _ htr =>
    have hcs : l.commands = [⟨c, p, l.env.drv c p⟩] := commands_after ht (by rw [hw]; exact htr)
    cases i with
    | endpointGetI d n pt e =>
      obtain ⟨k, -, hr⟩ := bind_eq_ok.mp hr
      cases k <;> cases hr
      exact .asks _ hcs rfl (hidle fun _ => ⟨d, n, pt, e, rfl⟩) hdom
    | msgSendI s r b n pr =>
      have hdeed (M : Type) (m : M) : l.deed m =
          if (l.env.drv c p).ret = 0 then sentTo r m else .idle := by
        simp only [CallRec.deed, hc, Issuer.call, hy, Ret.reported, issueStatus_success]
      obtain ⟨k, -, hr⟩ := bind_eq_ok.mp hr
      cases k <;> cases hr
      refine .sends _ r hcs rfl rfl rfl (fun h0 M m => ?_) (fun h1 M m => ?_) hdom
      · rw [hdeed]
        exact if_pos h0
      · rw [hdeed, if_neg]
        intro h0
        rw [h0] at h1
        cases h1
    | msgRecvI r b n =>
      have hdeed (M : Type) (m : M) : l.deed m =
          if (l.env.drv c p).ret = 0 then .took (portOf r) m else .idle := by
        simp only [CallRec.deed, hc, Issuer.call, hy, Ret.reported, issueStatus_success]
      obtain ⟨k, hk, hr⟩ := bind_eq_ok.mp hr
      cases k with
      | none => cases hr
      | some k =>
        dsimp only at hr
        split at hr <;> cases hr
        refine .hands _ k r hcs rfl rfl hk (fun h0 M m => ?_) (fun h1 M m => ?_) hdom
        · rw [hdeed]
          exact if_pos h0
        · rw [hdeed, if_neg]
          intro h0
          rw [h0] at h1
          cases h1

theorem create_speaks (h : TableInv db) {l : CallRec} {p : U32} (hs : CallStep db l db')
    (hc : l.call = .endpointCreate p) : Speaks db l db' := by
  obtain ⟨rfl, rfl, ht, hx⟩ := hs
  rw [hc] at hx
  obtain ⟨⟨x, w1⟩, hx, hret⟩ := bind_eq_ok.mp hx
  have hafter : l.ret = .value x.1 x.2 ∧ l.after = w1 := by
    simp only [Except.ok.injEq, Prod.mk.injEq] at hret
    exact ⟨hret.1.symm, hret.2.symm⟩
  obtain ⟨hret, hafter⟩ := hafter
  cases create_cases hx with
  | notInit e hv => rw [h.valid] at hv; cases hv
  | created i k w1 hi hk _ hdb htr =>
    have hnum : transGetNodeNum l.before.db = 0 := h.node
    rw [hnum, nodeIndex_master h] at hi
    cases hi
    refine .opens k p _ hc rfl (commands_after ht (by rw [hafter]; exact htr)) hk (fun M m => ?_)
      (by rw [hafter]; exact hdb)
    simp only [CallRec.deed, hc, hret, Ret.reported, if_true]

theorem delete_speaks (h : TableInv db) {l : CallRec} {e : U32} (hs : CallStep db l db')
    (hc : l.call = .endpointDelete e) : Speaks db l db' := by
  obtain ⟨rfl, rfl, ht, hx⟩ := hs
  rw [hc] at hx
  obtain ⟨⟨st, w1⟩, hx, hret⟩ := bind_eq_ok.mp hx
  have hafter : l.ret = .status st ∧ l.after = w1 := by
    simp only [Except.ok.injEq, Prod.mk.injEq] at hret
    exact ⟨hret.1.symm, hret.2.symm⟩
  obtain ⟨hret, hafter⟩ := hafter
  have hdeed (M : Type) (m : M) : l.deed m = if st = .success then .closed (portOf e) else .idle := by
    simp only [CallRec.deed, hc, hret, Ret.reported]
  cases delete_cases hx with
  | refused _ hst =>
    refine .silent (commands_after ht (by rw [hafter, List.append_nil])) (fun M m => ?_) (by rw [hafter])
    rw [hdeed, if_neg hst]
  | deleted i k w1 hv hi hl hdb htr =>
    have hnode : (transDecodeHandleInternal e).nodeId.setWidth 32 = (0 : U32) := (lookup_holds h hl).1
    rw [hnode, nodeIndex_master h] at hi
    cases hi
    refine .closes k e _ (commands_after ht (by rw [hafter]; exact htr)) hl (fun M m => ?_) (by rw [hafter]; exact hdb)
    rw [hdeed, if_pos rfl]

theorem send_speaks {l : CallRec} {s r b n p : U32} (hs : CallStep db l db') (hc : l.call = .msgSend s r b n p) :
    Speaks db l db' := by
  obtain ⟨rfl, rfl, ht, hx⟩ := hs
  rw [hc] at hx
  obtain ⟨⟨st, w1⟩, hx, hret⟩ := bind_eq_ok.mp hx
  have hafter : l.ret = .status st ∧ l.after = w1 := by
    simp only [Except.ok.injEq, Prod.mk.injEq] at hret
    exact ⟨hret.1.symm, hret.2.symm⟩
  obtain ⟨hret, hafter⟩ := hafter
  have hdom : l.after.db.domains = l.before.db.domains := by rw [hafter, send_db hx]
  have hdeed (M : Type) (m : M) : l.deed m = if st = .success then sentTo r m else .idle := by
    simp only [CallRec.deed, hc, hret, Ret.reported]
  rcases send_cases hx with ⟨hw, hst⟩ | ⟨k, -, htr, hst⟩
  · refine .silent (commands_after ht (by rw [hafter, hw, List.append_nil])) (fun M m => ?_) hdom
    rw [hdeed, if_neg hst]
  · refine .sends _ r (commands_after ht (by rw [hafter]; exact htr)) rfl rfl rfl (fun h0 M m => ?_)
      (fun h1 M m => ?_) hdom
    · rw [hdeed, if_pos (hst.mpr h0)]
    · rw [hdeed, if_neg]
      intro h
      rw [hst.mp h] at h1
      cases h1

theorem recv_speaks {l : CallRec} {r b n m : U32} (hs : CallStep db l db') (hc : l.call = .msgRecv r b n m) :
    Speaks db l db' := by
  obtain ⟨rfl, rfl, ht, hx⟩ := hs
  rw [hc] at hx
  obtain ⟨⟨x, w1⟩, hx, hret⟩ := bind_eq_ok.mp hx
  have hafter : l.ret = .value x.2 x.1 ∧ l.after = w1 := by
    simp only [Except.ok.injEq, Prod.mk.injEq] at hret
    exact ⟨hret.1.symm, hret.2.symm⟩
  obtain ⟨hret, hafter⟩ := hafter
  have hdom : l.after.db.domains = l.before.db.domains := by rw [hafter, recv_db hx]
  have hdeed (M : Type) (m : M) : l.deed m =
      if x.1 = .success ∨ x.1 = .errMsgTruncated then .took (portOf r) m else .idle := by
    simp only [CallRec.deed, hc, hret, Ret.reported]
  rcases recv_cases hx with ⟨hw, hok, htrunc⟩ | ⟨k, hk, htr, hst⟩
  · refine .silent (commands_after ht (by rw [hafter, hw, List.append_nil])) (fun M m => ?_) hdom
    rw [hdeed, if_neg (not_or.mpr ⟨hok, htrunc⟩)]
  · refine .hands _ k r (commands_after ht (by rw [hafter]; exact htr)) rfl rfl hk (fun h0 M m => ?_)
      (fun h1 M m => ?_) hdom
    · rw [hdeed, if_pos (hst.mpr h0)]
    · rw [hdeed, if_neg]
      intro h
      rw [hst.mp h] at h1
      cases h1

theorem available_speaks {l : CallRec} {r : U32} (hs : CallStep db l db') (hc : l.call = .msgAvailable r) :
    Speaks db l db' := by
  obtain ⟨rfl, rfl, ht, hx⟩ := hs
  rw [hc] at hx
  obtain ⟨⟨x, w1⟩, hx, hret⟩ := bind_eq_ok.mp hx
  have hafter : l.ret = .value x.1 x.2 ∧ l.after = w1 := by
    simp only [Except.ok.injEq, Prod.mk.injEq] at hret
    exact ⟨hret.1.symm, hret.2.symm⟩
  obtain ⟨hret, hafter⟩ := hafter
  have hdom : l.after.db.domains = l.before.db.domains := by rw [hafter, available_db hx]
  have hdeed (M : Type) (m : M) : l.deed m = if x.2 = .success then .counted (portOf r) x.1.toNat else .idle := by
    simp only [CallRec.deed, hc, hret, Ret.reported, Ret.number]
  rcases available_cases hx with ⟨hw, hst⟩ | ⟨k, c, hk, hcmd, hidx, htr, hst, hn⟩
  · refine .silent (commands_after ht (by rw [hafter, hw, List.append_nil])) (fun M m => ?_) hdom
    rw [hdeed, if_neg hst]
  · have hact : c.action = .counts := by
      unfold Command.action
      rw [hcmd]
    refine .counts c k r (commands_after ht (by rw [hafter]; exact htr)) hact hidx hk (fun h0 M m => ?_)
      (fun h1 M m => ?_) hdom
    · rw [hdeed, if_pos (hst.mpr h0), hn h0]
    · rw [hdeed, if_neg]
      intro h
      rw [hst.mp h] at h1
      cases h1

/-- Calls that have no deed and at most a question for the driver. -/
theorem quiet_speaks {l : CallRec} (hs : CallStep db l db') (hdeed : ∀ (M : Type) (m : M), l.deed m = .idle)
    (hdom : db'.domains = db.domains) (hone : OneOf [.queryRemoteEp] l.before l.after) : Speaks db l db' := by
  obtain ⟨rfl, rfl, ht, -⟩ := hs
  rcases hone with hone | ⟨c, hone, hmem⟩
  · exact .silent (commands_after ht (by rw [hone, List.append_nil])) hdeed hdom
  · have hact : c.action = .asks := by
      unfold Command.action
      rw [List.mem_singleton.mp hmem]
    exact .asks c (commands_after ht hone) hact hdeed hdom

/-- Every call, from a table in order. -/
theorem CallStep.speaks (h : TableInv db) {l : CallRec} (hs : CallStep db l db') : Speaks db l db' := by
  have hx := hs.2.2.2
  cases hc : l.call with
  | endpointCreate p => exact create_speaks h hs hc
  | endpointDelete e => exact delete_speaks h hs hc
  | msgSend s r b n p => exact send_speaks hs hc
  | msgRecv r b n m => exact recv_speaks hs hc
  | msgAvailable r => exact available_speaks hs hc
  | test v size => exact test_speaks hs hc
  | wait v size t => exact wait_call_speaks hs hc
  | endpointGetI d n p e q => exact issue_speaks (i := .endpointGetI d n p e) hs hc
  | msgSendI s r b n p q => exact issue_speaks (i := .msgSendI s r b n p) hs hc
  | msgRecvI r b n q => exact issue_speaks (i := .msgRecvI r b n) hs hc
  | endpointGet d n p t =>
    rw [hc] at hx
    obtain ⟨⟨⟨v, st⟩, w1⟩, hx, hret⟩ := bind_eq_ok.mp hx
    have hafter : l.after = w1 := by
      simp only [Except.ok.injEq, Prod.mk.injEq] at hret
      exact hret.2.symm
    refine quiet_speaks hs (fun M m => by simp only [CallRec.deed, hc]) ?_ ?_
    · rw [← hs.1, ← hs.2.1, hafter, get_db hx]
    · rw [hafter]
      exact (get_within hx).2
  | endpointGetAttribute e =>
    rw [hc] at hx
    obtain ⟨⟨st, w1⟩, hx, hret⟩ := bind_eq_ok.mp hx
    have hafter : l.after = w1 := by
      simp only [Except.ok.injEq, Prod.mk.injEq] at hret
      exact hret.2.symm
    obtain ⟨v, -, hx⟩ := bind_eq_ok.mp hx
    have hw : w1 = l.before := by split at hx <;> cases hx <;> rfl
    refine quiet_speaks hs (fun M m => by simp only [CallRec.deed, hc]) ?_ ?_
    · rw [← hs.1, ← hs.2.1, hafter, hw]
    · rw [hafter, hw]
      exact .refl _ _
  | domainIdGet =>
    rw [hc] at hx
    have hafter : l.after = l.before := by
      simp only [Call.exec, Except.ok.injEq, Prod.mk.injEq] at hx
      exact hx.2.symm
    refine quiet_speaks hs (fun M m => by simp only [CallRec.deed, hc]) ?_ ?_
    · rw [← hs.1, ← hs.2.1, hafter]
    · rw [hafter]
      exact .refl _ _
  | nodeIdGet =>
    rw [hc] at hx
    have hafter : l.after = l.before := by
      simp only [Call.exec, Except.ok.injEq, Prod.mk.injEq] at hx
      exact hx.2.symm
    refine quiet_speaks hs (fun M m => by simp only [CallRec.deed, hc]) ?_ ?_
    · rw [← hs.1, ← hs.2.1, hafter]
    · rw [hafter]
      exact .refl _ _

/-! ## The library and the driver together -/

/-- One command, served. -/
theorem served {m : M} {posts posts' : Posts M} {cs : List Command} {c : Command}
    (h : Lts.Run (Serves m) posts cs posts') (hc : cs = [c]) : Serves m posts c posts' := by
  subst hc
  cases h with
  | cons h1 hrest => cases hrest; exact h1

variable {s s' : Post M} {b : Mail U32 M}

theorem Mirrored.congr (h : Mirrored s) (hd : s'.db.domains = s.db.domains) (hp : s'.posts = s.posts) :
    Mirrored s' := by
  refine ⟨h.table.congr hd, fun k p => ?_⟩
  rw [Holds.congr hd, hp]
  exact h.same k p

/-- Only the queue of a session is written. -/
theorem Mirrored.queued (h : Mirrored s) (hd : s'.db.domains = s.db.domains) {k : Slot} {p : U32} {q q' : List M}
    (hk : s.posts k = some (p, q)) (hp : s'.posts = Function.update s.posts k (some (p, q'))) : Mirrored s' := by
  refine ⟨h.table.congr hd, fun j r => ?_⟩
  rw [Holds.congr hd, hp, h.same j r]
  by_cases hj : j = k
  · subst hj
    rw [Function.update_self, hk]
    constructor
    · intro hr
      obtain ⟨q1, hr⟩ := hr
      cases hr
      exact ⟨q', rfl⟩
    · intro hr
      obtain ⟨q1, hr⟩ := hr
      cases hr
      exact ⟨q, rfl⟩
  · rw [Function.update_of_ne hj]

theorem Mirrored.free (h : Mirrored s) {k : Slot} (hk : s.posts k = none) (p : U32) : ¬ Holds s.db k p := by
  intro hh
  obtain ⟨q, hq⟩ := (h.same k p).mp hh
  rw [hk] at hq
  cases hq

theorem Mirrored.create (h : Mirrored s) {k : Slot} {p : U32} (hk : s.posts k = none)
    (ht : TableInv (s.db.setNode 0 (s.db.node0.create k p))) (hd : s'.db = s.db.setNode 0 (s.db.node0.create k p))
    (hp : s'.posts = Function.update s.posts k (some (p, []))) : Mirrored s' := by
  refine ⟨by rw [hd]; exact ht, fun j r => ?_⟩
  rw [hd, hp, holds_create]
  by_cases hj : j = k
  · subst hj
    rw [Function.update_self]
    constructor
    · intro hr
      rcases hr with hr | hr
      · exact ⟨[], by rw [hr.2]⟩
      · exact absurd rfl hr.1
    · intro hr
      obtain ⟨q, hr⟩ := hr
      cases hr
      exact .inl ⟨rfl, rfl⟩
  · rw [Function.update_of_ne hj, ← h.same j r]
    simp [hj]

theorem Mirrored.delete (h : Mirrored s) {k : Slot} (hd : s'.db = s.db.setNode 0 (s.db.node0.delete k))
    (hp : s'.posts = Function.update s.posts k none) : Mirrored s' := by
  refine ⟨by rw [hd]; exact h.table.delete k, fun j r => ?_⟩
  rw [hd, hp, holds_delete]
  by_cases hj : j = k
  · subst hj
    rw [Function.update_self]
    simp
  · rw [Function.update_of_ne hj, ← h.same j r]
    simp [hj]

/-- The session that a lookup leads to. -/
theorem Mirrored.session (h : Mirrored s) {e : U32} {k : Slot} (hk : lookup s.db e = .ok (some k)) :
    nodeOf e = 0 ∧ ∃ q, s.posts k = some (portOf e, q) := by
  obtain ⟨hnode, hholds⟩ := lookup_holds h.table hk
  exact ⟨hnode, (h.same k (portOf e)).mp hholds⟩

/-- A step does to the mailboxes what the caller can tell. -/
theorem PostStep.refines (h : Mirrored s) (hb : Shows s.posts b) {l : CallRec × M} (hu : UsablePost s l)
    (hs : PostStep s l s') : ∃ b', Boxes.Step b (l.1.deed l.2) b' ∧ Mirrored s' ∧ Shows s'.posts b' := by
  obtain ⟨hs, hrun⟩ := hs
  cases hs.speaks h.table with
  | silent hcs hdeed hd =>
    rw [hcs] at hrun
    have hp : s'.posts = s.posts := by
      generalize s'.posts = posts at hrun
      cases hrun
      rfl
    rw [hdeed, hp]
    exact ⟨b, .idle, h.congr hd hp, hb⟩
  | asks c hcs hact hdeed hd =>
    have hserve := served hrun hcs
    simp only [Serves, hact] at hserve
    rw [hdeed, hserve]
    exact ⟨b, .idle, h.congr hd hserve, hb⟩
  | counts c k e hcs hact hidx hk hok hfail hd =>
    have hserve := served hrun hcs
    simp only [Serves, hact, hidx, slotOf_sessionOf] at hserve
    obtain ⟨hp, hret⟩ := hserve
    refine ⟨b, ?_, h.congr hd hp, by rw [hp]; exact hb⟩
    rcases hret with hret | ⟨hret, j, p, q, hj, hq, hn⟩
    · rw [hfail hret]
      exact .idle
    · cases hj
      obtain ⟨-, q', hq'⟩ := h.session hk
      rw [hq] at hq'
      cases hq'
      rw [hok hret, hn]
      exact .counted _ q (hb.mail hq)
  | sends c e hcs hact hcpu hep hok hfail hd =>
    have hserve := served hrun hcs
    simp only [Serves, hact, hcpu, hep] at hserve
    rcases hserve with ⟨hret, hnode, k, q, hk, hp⟩ | ⟨hret, hnode, hp⟩ | ⟨hret, hp⟩
    · rw [hok hret, sentTo, if_pos hnode, hp]
      exact ⟨_, .put _ _ q (hb.mail hk), h.queued hd hk hp, hb.rewrite hk (some (q ++ [l.2]))⟩
    · rw [hok hret, sentTo, if_neg hnode, hp]
      exact ⟨b, .idle, h.congr hd hp, hb⟩
    · rw [hfail hret, hp]
      exact ⟨b, .idle, h.congr hd hp, hb⟩
  | hands c k e hcs hact hidx hk hok hfail hd =>
    have hserve := served hrun hcs
    simp only [Serves, hact, hidx, slotOf_sessionOf] at hserve
    rcases hserve with ⟨hret, j, p, q, hj, hq, hp⟩ | ⟨hret, hp⟩
    · cases hj
      obtain ⟨-, q', hq'⟩ := h.session hk
      rw [hq] at hq'
      cases hq'
      rw [hok hret, hp]
      exact ⟨_, .took _ _ q (hb.mail hq), h.queued hd hq hp, hb.rewrite hq (some q)⟩
    · rw [hfail hret, hp]
      exact ⟨b, .idle, h.congr hd hp, hb⟩
  | opens k p reply hcall hreply hcs hk hdeed hdb =>
    have hserve := served hrun hcs
    simp only [Serves, Command.action, hk] at hserve
    obtain ⟨-, j, hj, hfree, hp⟩ := hserve
    cases hj
    obtain ⟨hfit, hnew, hidx, hroom⟩ := hu p hcall
    rw [← hreply, ← slotOf_val hk] at hidx
    have hno (t : Slot) (q : List M) : s.posts t ≠ some (p, q) := by
      intro ht
      exact hnew t ((h.same t p).mpr ⟨q, ht⟩)
    obtain ⟨hstep, hshows⟩ := hb.fill hfree hno
    rw [hdeed, hp]
    exact ⟨_, hstep, h.create hfree (h.table.create hfit hnew hidx hroom) hdb hp, hshows⟩
  | closes k e reply hcs hk hdeed hdb =>
    have hserve := served hrun hcs
    simp only [Serves, Command.action, shutdownPkt, slotOf_sessionOf] at hserve
    obtain ⟨j, hj, hlive, hp⟩ := hserve
    cases hj
    obtain ⟨-, q, hq⟩ := h.session hk
    rw [hdeed, hp]
    exact ⟨_, .closed _ q (hb.mail hq), h.delete hdb hp, hb.rewrite hq none⟩

/-! ## Whole runs -/

/-- The deeds of a run's calls, each with its message. -/
def deeds (ls : List (CallRec × M)) : List (Deed U32 M) := ls.map fun l => l.1.deed l.2

theorem run_refines {ls : List (CallRec × M)} (h : Lts.Run (Lts.Guarded PostStep UsablePost) s ls s')
    (hm : Mirrored s) (hb : Shows s.posts b) :
    ∃ b', Lts.Run Boxes.Step b (deeds ls) b' ∧ Mirrored s' ∧ Shows s'.posts b' := by
  refine h.simulated (R := fun s b => Mirrored s ∧ Shows s.posts b) ?_ ⟨hm, hb⟩
  intro s l s' b hsb hs
  exact hs.2.refines hsb.1 hsb.2 hs.1

/-- Calls on a driver that keeps sessions are, to their callers, mailboxes by port. -/
theorem mailboxes_refined {d : U32} {a : Option NodeAttributes} {ls : List (CallRec × M)}
    (h : Lts.Run (Lts.Guarded PostStep UsablePost) (.fresh d a) ls s) :
    ∃ b, Lts.Run Boxes.Step (fun _ => none) (deeds ls) b ∧ Shows s.posts b ∧
      ∀ p, b p ≠ none ↔ ∃ k, Holds s.db k p := by
  obtain ⟨b, hrun, hm, hb⟩ := run_refines h (fresh_mirrored d a) .empty
  refine ⟨b, hrun, hb, fun p => ?_⟩
  constructor
  · intro hp
    obtain ⟨q, hq⟩ := Option.ne_none_iff_exists'.mp hp
    obtain ⟨k, hk⟩ := (hb.same p q).mp hq
    exact ⟨k, (hm.same k p).mpr ⟨q, hk⟩⟩
  · intro hp
    obtain ⟨k, hk⟩ := hp
    obtain ⟨q, hq⟩ := (hm.same k p).mp hk
    rw [hb.mail hq]
    exact Option.some_ne_none q

/-- From its creation on, until it is deleted, an endpoint's messages are received in the
    order in which they were sent, each once; the rest wait in its session. -/
theorem messages_in_order {d : U32} {a : Option NodeAttributes} {pre : List (CallRec × M)}
    (hpre : Lts.Run (Lts.Guarded PostStep UsablePost) (.fresh d a) pre s) {l : CallRec × M} {s1 s2 : Post M}
    (hs : Lts.Guarded PostStep UsablePost s l s1) {p handle : U32} (hc : l.1.call = .endpointCreate p)
    (hret : l.1.ret = .value handle .success) {ls : List (CallRec × M)}
    (hrun : Lts.Run (Lts.Guarded PostStep UsablePost) s1 ls s2) (hkeep : ∀ x ∈ deeds ls, x ≠ .closed p) :
    ∃ k left, s2.posts k = some (p, left) ∧
      (deeds ls).flatMap (Boxes.puts p) = (deeds ls).flatMap (Boxes.takes p) ++ left := by
  obtain ⟨b, -, hm, hb⟩ := run_refines hpre (fresh_mirrored d a) .empty
  obtain ⟨b1, hstep, hm1, hb1⟩ := hs.2.refines hm hb hs.1
  have hopened : l.1.deed l.2 = .opened p := by
    simp only [CallRec.deed, hc, hret, Ret.reported, if_true]
  have hempty : b1 p = some [] := by
    rw [hopened] at hstep
    cases hstep
    exact Function.update_self p (some []) b
  obtain ⟨b2, hrun2, -, hb2⟩ := run_refines hrun hm1 hb1
  obtain ⟨left, hleft, hall⟩ := Boxes.run_fifo hrun2 hempty hkeep
  obtain ⟨k, hk⟩ := (hb2.same p left).mp hleft
  exact ⟨k, left, hk, hall⟩

/-! ### A message that is sent and received -/

theorem served_by {m : M} {posts posts' : Posts M} {cs : List Command} {c : Command} (hc : cs = [c])
    (h : Serves m posts c posts') : Lts.Run (Serves m) posts cs posts' := by
  rw [hc]
  exact .single h

/-- Session 1, with what waits in it. -/
def holding (q : List Nat) : Posts Nat := Function.update (fun _ => none) 1 (some (5, q))

theorem holding_update (q q' : List Nat) : Function.update (holding q) 1 (some (5, q')) = holding q' :=
  Function.update_idem _ _ _

def opened5 : CallRec := (Call.endpointCreate 5).record sessionOne (initialised 0 0 none)
def sent5 : CallRec := (Call.msgSend (endpointHandle 0 5) (endpointHandle 0 5) 4096 8 0).record willing onePort
def got5 : CallRec := (Call.msgRecv (endpointHandle 0 5) 4096 8 0).record willing sent5.after.db

theorem opened5_step : Lts.Guarded PostStep UsablePost (.fresh 0 none) (opened5, 0) ⟨onePort, holding []⟩ := by
  refine ⟨fun p hp => ?_, record_step rfl, served_by rfl ⟨rfl, 1, rfl, rfl, rfl⟩⟩
  cases hp
  decide +kernel

theorem sent5_step (n : Nat) :
    Lts.Guarded PostStep UsablePost ⟨onePort, holding []⟩ (sent5, n) ⟨sent5.after.db, holding [n]⟩ := by
  refine ⟨fun p hp => ?_, record_step rfl, served_by rfl (.inl ⟨rfl, rfl, 1, [], rfl, ?_⟩)⟩
  · cases hp
  · exact (holding_update [] [n]).symm

theorem got5_step (n : Nat) :
    Lts.Guarded PostStep UsablePost ⟨sent5.after.db, holding [n]⟩ (got5, n) ⟨got5.after.db, holding []⟩ := by
  refine ⟨fun p hp => ?_, record_step rfl, served_by rfl (.inl ⟨rfl, 1, 5, [], rfl, rfl, ?_⟩)⟩
  · cases hp
  · exact (holding_update [n] []).symm

/-- What is sent to port 5 is received there. -/
theorem seven_received :
    ∃ k left, holding [] k = some (5, left) ∧ (deeds [(sent5, 7), (got5, 7)]).flatMap (Boxes.puts 5) =
      (deeds [(sent5, 7), (got5, 7)]).flatMap (Boxes.takes 5) ++ left :=
  messages_in_order (.nil _) opened5_step rfl rfl (.cons (sent5_step 7) (.single (got5_step 7))) (by
    intro x hx
    rcases List.mem_pair.mp hx with rfl | rfl
    · exact nofun
    · exact nofun)

theorem seven_refined :
    ∃ b, Lts.Run Boxes.Step (fun _ => none) (deeds [(opened5, 0), (sent5, 7), (got5, 7)]) b ∧ Shows (holding []) b ∧
      ∀ p, b p ≠ none ↔ ∃ k, Holds got5.after.db k p :=
  mailboxes_refined (.cons opened5_step (.cons (sent5_step 7) (.single (got5_step 7))))

end Mcapi
