/-
  Mcapi.Receive — `mcapi_msg_recv` and `mcapi_msg_recv_i` side by side.

  Both make the same checks. The blocking receive stops where they fail, and compares the
  length it got with its buffer. The non-blocking one calls the transport whatever the
  checks find, and none of its three completions (at once, by a test, by a wait) makes
  the comparison.

  So a rejected call is rejected alike only where it has a buffer and no endpoint is found
  (`SameRejection`). A message is seen alike exactly when it fits its buffer, and, if a
  wait follows its delivery, when the endpoint is still there (`receives_agree_iff`).
-/

import Mcapi.Confirmation
import Mcapi.Isolation
import Mcapi.Sends

namespace Mcapi

variable {E : Env} {w w' : World} {db db' : Database} {e b n : U32} {r : Req}

/-! ## Calls that are rejected -/

/-- The checks of a receive end in this error. -/
def Rejects (db : Database) (e b : U32) (st : Status) : Prop := recvChecks .std db e b = .ok st ∧ st ≠ .success

/-- A call rejected with a status is rejected by both receives, whatever `errno` was, and
    neither gives the driver a command. -/
def RejectsAlike (db : Database) (e b n : U32) : Prop :=
  ∀ E w m q st, w.db = db → Rejects db e b st → msgRecv .std E w e b n m = .ok ((st, m), w) ∧
    ∃ x w', msgRecvI .std E w e b n (some q) = .ok (x, w') ∧ x.status = st ∧ commands w'.trace = commands w.trace

/-- There is a buffer; and no endpoint is found, or the checks accept the call, or they
    run past the table themselves. -/
def SameRejection (db : Database) (e b : U32) : Prop :=
  b ≠ 0 ∧ (lookup db e = .ok none ∨ transValidEndpoint .std db e = .ok true ∨
    ∃ f, transValidEndpoint .std db e = .error f)

theorem msgRecv_rejects {st : Status} (h : Rejects w.db e b st) (n m : U32) :
    msgRecv .std E w e b n m = .ok ((st, m), w) := by
  rw [msgRecv, h.1, ok_bind, if_pos h.2]

theorem rejects_null (db : Database) (e : U32) : Rejects db e 0 .errParameter := ⟨rfl, by decide⟩

theorem recvChecks_buffer (hb : b ≠ 0) : recvChecks .std db e b = (do
    if !(← transValidEndpoint .std db e) then .ok .errEndpInvalid else .ok .success) := by
  have hvalid : (!transValidBufferParam b) = false := by simpa [transValidBufferParam] using hb
  rw [recvChecks, hvalid]
  rfl

theorem rejects_invalid (hb : b ≠ 0) {st : Status} :
    Rejects db e b st ↔ transValidEndpoint .std db e = .ok false ∧ st = .errEndpInvalid := by
  rw [Rejects, recvChecks_buffer hb]
  cases transValidEndpoint .std db e with
  | error f =>
    constructor
    · intro h
      cases h.1
    · intro h
      cases h.1
  | ok v =>
    cases v with
    | true =>
      constructor
      · rintro ⟨h, hst⟩
        cases h
        exact absurd rfl hst
      · intro h
        cases h.1
    | false =>
      constructor
      · rintro ⟨h, -⟩
        cases h
        exact ⟨rfl, rfl⟩
      · rintro ⟨-, rfl⟩
        exact ⟨rfl, by decide⟩

section
variable {id : Req} (hid : w.db.requestReservesHeader.emptyHeadIndex = some id)
include hid

/-- Without a buffer, the status is never that of the checks. -/
theorem msgRecvI_null {q : U32} {x : Issue} (h : msgRecvI .std E w e 0 n (some q) = .ok (x, w')) :
    x.status ≠ .errParameter := by
  have hi : Issued E w (some q) (.msgRecvI e 0 n) x w' := issue_cases h
  cases hi with
  | refused h0 => cases h0
  | found _ hr =>
    obtain ⟨_, _, _, _, h0⟩ := route_found hr
    cases h0
  | limit h0 =>
    rw [hid] at h0
    cases h0
  | missing =>
    intro hst
    cases hst
  | noBuffer => exact issueStatus_ne (by decide) (by decide) (by decide) (-einval) w.errno
  | command => exact issueStatus_ne (by decide) (by decide) (by decide) _ _

/-- With its endpoint there and a buffer, it gives the driver a RECV. -/
theorem msgRecvI_some {k : Slot} (hl : lookup w.db e = .ok (some k)) (hb : b ≠ 0) {q : U32} {x : Issue}
    (h : msgRecvI .std E w e b n (some q) = .ok (x, w')) :
    x = ⟨some (handleOf id), issueStatus (E.drv .recv (recvPkt k b n)).ret (errnoAfter E w .recv (recvPkt k b n))⟩ ∧
      w'.db = (Issuer.msgRecvI e b n).filled E w.db id (E.drv .recv (recvPkt k b n)).ret
        (E.drv .recv (recvPkt k b n)).pkt ∧
      commands w'.trace = commands w.trace ++ [⟨.recv, recvPkt k b n, E.drv .recv (recvPkt k b n)⟩] := by
  have hr : (Issuer.msgRecvI e b n).route w.db = .ok (.command .recv (recvPkt k b n)) := by
    simp only [Issuer.route, hl, ok_bind, hb, if_false]
  have hi : Issued E w (some q) (.msgRecvI e b n) x w' := issue_cases h
  exact hi.at_command hid hr

theorem msgRecvI_missing (hl : lookup w.db e = .ok none) (q : U32) :
    ∃ x w', msgRecvI .std E w e b n (some q) = .ok (x, w') ∧ x.status = .errEndpInvalid ∧
      commands w'.trace = commands w.trace := by
  have hr : (Issuer.msgRecvI e b n).route w.db = .ok .missing := by simp only [Issuer.route, hl, ok_bind]
  obtain ⟨x, w', h⟩ := issue_returns (E := E) hid hr (by decide) (fun c p h0 => by cases h0) q
  have hi : Issued E w (some q) (.msgRecvI e b n) x w' := issue_cases h
  exact ⟨x, w', h, hi.at_missing hid hr⟩

end

/-- With a slot free, the calls are rejected alike exactly under `SameRejection`. -/
theorem rejectsAlike_iff {id : Req} (hid : db.requestReservesHeader.emptyHeadIndex = some id) :
    RejectsAlike db e b n ↔ SameRejection db e b := by
  constructor
  · intro h
    by_cases hb : b = 0
    · subst hb
      obtain ⟨-, x, w', hx, hst, -⟩ := h willing { db := db } 0 0 _ rfl (rejects_null db e)
      exact absurd hst (msgRecvI_null (w := { db := db }) hid hx)
    refine ⟨hb, ?_⟩
    cases hv : transValidEndpoint .std db e with
    | error f => exact .inr (.inr ⟨f, rfl⟩)
    | ok v =>
      cases v with
      | true => exact .inr (.inl rfl)
      | false =>
        obtain ⟨-, x, w', hx, -, htr⟩ := h willing { db := db } 0 0 _ rfl ((rejects_invalid hb).mpr ⟨hv, rfl⟩)
        cases hl : lookup db e with
        | error f =>
          have hr : (Issuer.msgRecvI e b n).route db = .error f := by
            simp only [Issuer.route, hl]
            rfl
          have hi : Issued willing { db := db } (some 0) (.msgRecvI e b n) x w' := issue_cases hx
          exact absurd hr (hi.route_ok hid f)
        | ok k =>
          cases k with
          | none => exact .inl rfl
          | some k =>
            obtain ⟨-, -, hc⟩ := msgRecvI_some (w := { db := db }) hid hl hb hx
            exact absurd (hc.symm.trans htr) append_ne
  · rintro ⟨hb, hcase⟩ E w m q st rfl hrej
    refine ⟨msgRecv_rejects hrej n m, ?_⟩
    obtain ⟨hv, rfl⟩ := (rejects_invalid hb).mp hrej
    rcases hcase with hl | hv' | ⟨f, hv'⟩
    · exact msgRecvI_missing hid hl q
    · cases hv.symm.trans hv'
    · cases hv.symm.trans hv'

/-! ## Messages that are delivered -/

/-- What the blocking receive makes of a message of length `len`. -/
def recvOutcome (n len : U32) : Status × U32 := if n < len then (.errMsgTruncated, n) else (.success, len)

theorem msgRecv_delivers {k : Slot} (hc : recvChecks .std w.db e b = .ok .success)
    (hl : lookup w.db e = .ok (some k)) (hb : b ≠ 0) (hret : (E.drv .recv (recvPkt k b n)).ret = 0) (m : U32) :
    ∃ w', msgRecv .std E w e b n m = .ok (recvOutcome n (E.drv .recv (recvPkt k b n)).pkt.bufLen, w') := by
  have ht : transMsgRecv .std E w e b n = .ok ((.success, some (E.drv .recv (recvPkt k b n)).pkt.bufLen),
      (ioctl E (setBlocking w true) .recv (recvPkt k b n)).2) := by
    unfold lookup at hl
    simp only [transMsgRecv, assertDecode_std, hl, ok_bind, smRecvPacket_eq hb, received, hret, if_true, ne_eq,
      not_true_eq_false, if_false]
  refine ⟨(ioctl E (setBlocking w true) .recv (recvPkt k b n)).2, ?_⟩
  simp only [msgRecv, hc, ok_bind, ne_eq, not_true_eq_false, if_false, ht]
  unfold recvOutcome
  split
  · rfl
  · rfl

/-- What a request that is a send or a receive is completed with. -/
def messageTarget (k : Slot) (d : RequestData) : Target :=
  ⟨sessionOf k, (transDecodeHandleInternal d.epEndpoint).portId.setWidth 32,
    (transDecodeHandleInternal d.epEndpoint).nodeId.setWidth 32⟩

/-- The record of a receive on `e` that nobody has waited for, and the commands given
    for it so far. Until one succeeds it is not completed, and then its size is the length
    that one reported. -/
structure Receiving (r : Req) (e : U32) (db : Database) (cs : List Command) : Prop where
  inv : PoolInv db
  valid : (db.requests r).valid = true
  uncancelled : (db.requests r).cancelled = false
  type : (db.requests r).type = .recv
  handle : (db.requests r).handle = e
  pending : (db.requests r).completed = false → ∀ c ∈ cs, c.reply.ret ≠ 0
  delivered : (db.requests r).completed = true → ∀ c ∈ cs, c.reply.ret = 0 → c.reply.pkt.bufLen = (db.requests r).size

theorem Receiving.target {cs : List Command} (h : Receiving r e db cs) :
    completionTarget .std E db (db.requests r) = (do
      match ← lookup db e with
      | none => .ok none
      | some k => .ok (some (messageTarget k (db.requests r)))) := by
  unfold completionTarget lookup
  simp only [h.type, h.handle, ne_eq, reduceCtorEq, not_false_eq_true, if_true, assertDecode_std]
  rfl

theorem Receiving.settled {cs : List Command} (h : Receiving r e db cs) (hc : (db.requests r).completed = true) :
    Settled (db.requests r) (db.requests r).size :=
  ⟨h.valid, hc, h.uncancelled, by rw [h.type]; decide, rfl⟩

/-- A test while it is pending. -/
theorem Receiving.test_eq {cs : List Command} (h : Receiving r e w.db cs) (hc : (w.db.requests r).completed = false)
    (q : U32) : test .std E w (handleOf r) (some q) = (do
      match ← lookup w.db e with
      | none => .ok (⟨false, some q, .errNodeNotinit⟩, w)
      | some k =>
        let d := w.db.requests r
        let t := messageTarget k d
        let c := waitCommand E t d 0
        let w1 := (ioctl E (setBlocking w false) .wait (waitPkt t d 0)).2
        if truncated c.reply.ret ≠ 0 then
          .ok (⟨false, some c.reply.pkt.bufLen, if w1.errno = eagain then .pending else .errGeneral⟩,
            { w1 with db := w1.db.setRequest r { d with completed := false } })
        else
          .ok (⟨true, some c.reply.pkt.bufLen, .success⟩,
            { w1 with db := w1.db.setRequest r { d with completed := true, size := c.reply.pkt.bufLen } })) := by
  have hv : transValidRequestHandle w.db (handleOf r) = true := by simp [h.valid]
  have hmessage : ¬ (w.db.requests r).type = .getEndpt := by rw [h.type]; decide
  unfold test transTestI
  simp only [transValidSizeParam, hv, h.valid, h.uncancelled, hc, Option.isSome_some, Bool.not_true, Bool.and_false,
    Bool.false_eq_true, if_false, requestSlot_handleOf, ok_bind, h.target, Option.map_some]
  cases lookup w.db e with
  | error f => rfl
  | ok k =>
    cases k with
    | none => rfl
    | some k =>
      simp only [ok_bind, smWaitNonblocking_eq, hmessage, if_false]
      rfl

/-- A wait while it is pending. -/
theorem Receiving.wait_pending {cs : List Command} (h : Receiving r e w.db cs)
    (hc : (w.db.requests r).completed = false) {q timeout : U32} {d : Done}
    (hx : wait .std E w (handleOf r) (some q) timeout = .ok (d, w')) :
    (commands w'.trace = commands w.trace ∧ lookup w.db e = .ok none) ∨
    ∃ k c, lookup w.db e = .ok (some k) ∧
      c = waitCommand E (messageTarget k (w.db.requests r)) (w.db.requests r) timeout ∧
      commands w'.trace = commands w.trace ++ [c] ∧
      (c.reply.ret = 0 → d = ⟨true, some c.reply.pkt.bufLen, .success⟩) := by
  have hv : transValidRequestHandle w.db (handleOf r) = true := by simp [h.valid]
  have hmessage : ¬ (w.db.requests r).type = .getEndpt := by rw [h.type]; decide
  unfold wait transWait at hx
  simp only [transValidSizeParam, hv, Option.isSome_some, Bool.not_true, Bool.and_false, Bool.false_eq_true, if_false,
    requestSlot_handleOf, ok_bind, h.target, Option.map_some] at hx
  cases hl : lookup w.db e with
  | error f =>
    rw [hl] at hx
    cases hx
  | ok k =>
    rw [hl] at hx
    cases k with
    | none =>
      cases hx
      exact .inl ⟨rfl, rfl⟩
    | some k =>
      refine .inr ⟨k, _, rfl, rfl, ?_⟩
      simp only [ok_bind, hc, Bool.false_eq_true, if_false, smWaitNonblocking_eq, hmessage] at hx
      split at hx
      · rename_i hret
        rw [dropRequest_valid (by simpa using h.valid)] at hx
        cases hx
        refine ⟨by simp [waitCommand], fun h0 => ?_⟩
        exact absurd h0 (truncated_ne hret)
      · rw [dropRequest_valid (by simpa using h.valid)] at hx
        cases hx
        exact ⟨by simp [waitCommand], fun _ => rfl⟩

/-! ### From the receive to its end -/

theorem recvChecks_success (h : recvChecks .std db e b = .ok .success) :
    b ≠ 0 ∧ ∃ k, lookup db e = .ok (some k) := by
  by_cases hb : b = 0
  · subst hb
    cases h
  refine ⟨hb, ?_⟩
  rw [recvChecks_buffer hb] at h
  obtain ⟨v, hv, h⟩ := bind_eq_ok.mp h
  cases v with
  | false => cases h
  | true =>
    obtain ⟨-, k, hl, -⟩ := validEndpoint_true hv
    exact ⟨k, hl⟩

/-- The receive itself gives one command. -/
theorem recv_receiving (hi : PoolInv db) {id : Req} (hid : db.requestReservesHeader.emptyHeadIndex = some id)
    (hc : recvChecks .std db e b = .ok .success) {l : CallRec} (hs : CallStep db l db') {q : U32}
    (hcall : l.call = .msgRecvI e b n (some q)) {status : Status}
    (hret : l.ret = .issue ⟨some (handleOf r), status⟩) : Receiving r e db' l.commands := by
  obtain ⟨hb, k, hl⟩ := recvChecks_success hc
  have hi' := CallStep.inv hs hi
  obtain ⟨rfl, rfl, ht, he⟩ := hs
  rw [hcall, hret] at he
  obtain ⟨x, hx, he⟩ := issue_exec (i := .msgRecvI e b n) he
  obtain ⟨heq, hdb, hcmd⟩ := msgRecvI_some hid hl hb he
  rw [← Ret.issue.inj hx] at heq
  injection heq with hreq
  obtain rfl : r = id := handleOf_inj (Option.some.inj hreq)
  have hcmd : l.commands = [⟨.recv, recvPkt k b n, l.env.drv .recv (recvPkt k b n)⟩] := by
    rw [CallRec.commands, hcmd, ht]
    rfl
  rw [hcmd]
  have hrec : l.after.db.requests r = (Issuer.msgRecvI e b n).record l.env.locals (l.env.drv .recv (recvPkt k b n)).ret
      (l.env.drv .recv (recvPkt k b n)).pkt ((l.before.db.take r).requests r) := by
    rw [hdb, Issuer.filled, setRequest_same]
  refine ⟨hi', ?_, ?_, ?_, ?_, ?_, ?_⟩
  · rw [hrec]; rfl
  · rw [hrec]; rfl
  · rw [hrec]; rfl
  · rw [hrec]; rfl
  · intro hcomp c hmem
    rw [hrec, record_completed] at hcomp
    rw [List.mem_singleton.mp hmem]
    exact beq_eq_false_iff_ne.mp hcomp
  · intro _ c hmem h0
    rw [List.mem_singleton.mp hmem] at h0 ⊢
    rw [hrec]
    have hlen : (received l.env.locals n (l.env.drv .recv (recvPkt k b n)).ret
        (l.env.drv .recv (recvPkt k b n)).pkt).len = (l.env.drv .recv (recvPkt k b n)).pkt.bufLen := by
      rw [received, if_pos h0]
    exact hlen.symm

/-- Nothing is given for the request, and its record stays. -/
theorem Receiving.same {cs : List Command} (h : Receiving r e db cs) (hi : PoolInv db')
    (hd : db'.requests r = db.requests r) : Receiving r e db' (cs ++ []) := by
  rw [List.append_nil]
  exact ⟨hi, hd ▸ h.valid, hd ▸ h.uncancelled, hd ▸ h.type, hd ▸ h.handle, hd ▸ h.pending, hd ▸ h.delivered⟩

/-- What a test leaves, and what it returns once a command has succeeded. -/
theorem Receiving.test {cs : List Command} (h : Receiving r e w.db cs) (hnil : commands w.trace = [])
    {size : Option U32} {d : Done} (hx : Mcapi.test .std E w (handleOf r) size = .ok (d, w')) :
    Receiving r e w'.db (cs ++ commands w'.trace) ∧
      (size ≠ none → ∀ c ∈ cs ++ commands w'.trace, c.reply.ret = 0 →
        d = ⟨true, some c.reply.pkt.bufLen, .success⟩) := by
  have hi : PoolInv w'.db := (test_effect hx).inv h.inv
  cases size with
  | none =>
    cases hx
    rw [hnil]
    exact ⟨h.same hi rfl, fun hne => absurd rfl hne⟩
  | some q =>
    cases hc : (w.db.requests r).completed with
    | true =>
      rw [settled_test (h.settled hc)] at hx
      cases hx
      rw [hnil]
      refine ⟨h.same hi rfl, fun _ c hmem h0 => ?_⟩
      rw [List.append_nil] at hmem
      rw [h.delivered hc c hmem h0]
    | false =>
      rw [h.test_eq hc] at hx
      obtain ⟨k, -, hx⟩ := bind_eq_ok.mp hx
      cases k with
      | none =>
        cases hx
        rw [hnil]
        refine ⟨h.same hi rfl, fun _ c hmem h0 => ?_⟩
        rw [List.append_nil] at hmem
        exact absurd h0 (h.pending hc c hmem)
      | some k =>
        dsimp only at hx
        generalize hcmd : waitCommand E (messageTarget k (w.db.requests r)) (w.db.requests r) 0 = c at hx
        have htr : commands (ioctl E (setBlocking w false) .wait
            (waitPkt (messageTarget k (w.db.requests r)) (w.db.requests r) 0)).2.trace = [c] := by
          rw [commands_ioctl_trace, commands_setBlocking, hnil, ← hcmd]
          rfl
        have hlast : ∀ c' ∈ cs ++ [c], c'.reply.ret = 0 → c' = c := by
          intro c' hmem h0
          rcases List.mem_append.mp hmem with hmem | hmem
          · exact absurd h0 (h.pending hc c' hmem)
          · exact List.mem_singleton.mp hmem
        split at hx
        · rename_i hret
          cases hx
          have hne : ∀ c' ∈ cs ++ [c], c'.reply.ret ≠ 0 := by
            intro c' hmem h0
            rw [hlast c' hmem h0] at h0
            exact truncated_ne hret h0
          simp only [ioctl_db, setBlocking_db, setRequest_uncompleted hc] at hi ⊢
          rw [htr]
          refine ⟨⟨hi, h.valid, h.uncancelled, h.type, h.handle, fun _ => hne, fun hc' => ?_⟩, ?_⟩
          · rw [hc] at hc'
            cases hc'
          · intro _ c' hmem h0
            exact absurd h0 (hne c' hmem)
        · cases hx
          simp only [ioctl_db, setBlocking_db] at hi ⊢
          rw [htr]
          refine ⟨⟨hi, ?_, ?_, ?_, ?_, ?_, ?_⟩, ?_⟩
          · rw [setRequest_same]; exact h.valid
          · rw [setRequest_same]; exact h.uncancelled
          · rw [setRequest_same]; exact h.type
          · rw [setRequest_same]; exact h.handle
          · intro hc'
            rw [setRequest_same] at hc'
            cases hc'
          · intro _ c' hmem h0
            rw [setRequest_same, hlast c' hmem h0]
          · intro _ c' hmem h0
            rw [hlast c' hmem h0]

/-- What a wait that ends it returns. -/
theorem Receiving.wait {cs : List Command} (h : Receiving r e w.db cs) (hnil : commands w.trace = []) {q timeout : U32}
    {d : Done} (hx : Mcapi.wait .std E w (handleOf r) (some q) timeout = .ok (d, w')) {c : Command}
    (hmem : c ∈ cs ++ commands w'.trace) (h0 : c.reply.ret = 0) :
    if lookup w.db e = .ok none then d.status = .errNodeNotinit else d = ⟨true, some c.reply.pkt.bufLen, .success⟩ := by
  cases hc : (w.db.requests r).completed with
  | true =>
    rw [settled_wait (h.settled hc), h.handle] at hx
    obtain ⟨k, hl, hx⟩ := bind_eq_ok.mp hx
    cases k with
    | none =>
      rw [if_pos hl]
      cases hx
      rfl
    | some k =>
      rw [if_neg (by rw [hl]; exact fun hn => by cases hn)]
      cases hx
      rw [hnil, List.append_nil] at hmem
      rw [h.delivered hc c hmem h0]
  | false =>
    have hlate : c ∈ commands w'.trace := by
      rcases List.mem_append.mp hmem with hmem | hmem
      · exact absurd h0 (h.pending hc c hmem)
      · exact hmem
    rcases h.wait_pending hc hx with ⟨htr, -⟩ | ⟨k, c', hl, -, htr, hd⟩
    · rw [htr, hnil] at hlate
      cases hlate
    · rw [htr, hnil, List.nil_append] at hlate
      obtain rfl := List.mem_singleton.mp hlate
      rw [if_neg (by rw [hl]; exact fun hn => by cases hn)]
      exact hd h0

/-- A call that is not a wait on the request. -/
def Unwaited (r : Req) (_ : Database) (l : CallRec) : Prop := ∀ size timeout, l.call ≠ .wait (handleOf r) size timeout

theorem Receiving.step {cs : List Command} (h : Receiving r e db cs) {l : CallRec}
    (hs : Lts.Guarded CallStep (Unwaited r) db l db') : Receiving r e db' (cs ++ onBehalf r l) := by
  obtain ⟨hw, hs⟩ := hs
  by_cases hh : l.call.handle = some (handleOf r)
  · rw [onBehalf, if_pos hh]
    have hon := hs.on_request hh
    obtain ⟨rfl, rfl, ht, -⟩ := hs
    have hnil : commands l.before.trace = [] := by rw [ht]; rfl
    rcases hon with ⟨size, d, -, -, hx⟩ | ⟨size, timeout, d, hc, -, -⟩
    · exact (h.test hnil hx).1
    · exact absurd hc (hw size timeout)
  · rw [onBehalf, if_neg hh]
    exact h.same (CallStep.inv hs h.inv) ((call_effect hs).frame h.inv h.valid hh)

/-- A receive on `e` followed to a test or wait on its request: the call, what is called
    after it (no wait on the request among that), and then the test or wait. -/
structure Followed (db : Database) (e b n : U32) where
  r : Req
  q : U32
  size : U32
  status : Status
  done : Done
  first : CallRec
  between : List CallRec
  last : CallRec
  db1 : Database
  db2 : Database
  db3 : Database
  issues : CallStep db first db1
  issue : first.call = .msgRecvI e b n (some q)
  issued : first.ret = .issue ⟨some (handleOf r), status⟩
  run : Lts.Run (Lts.Guarded CallStep (Unwaited r)) db1 between db2
  ends : CallStep db2 last db3
  asks : last.call = .test (handleOf r) (some size) ∨ ∃ timeout, last.call = .wait (handleOf r) (some size) timeout
  ended : last.ret = .done done

variable (F : Followed db e b n)

/-- The commands given for the request. -/
def Followed.commands : List Command := F.first.commands ++ F.between.flatMap (onBehalf F.r) ++ onBehalf F.r F.last

/-- The driver delivers a message of this length, to the receive itself or to a WAIT. -/
def Followed.Delivers (len : U32) : Prop := ∃ c ∈ F.commands, c.reply.ret = 0 ∧ c.reply.pkt.bufLen = len

/-- The caller sees what the blocking receive would make of it. -/
structure Followed.Agrees (len : U32) : Prop where
  atOnce : F.status = .success → (recvOutcome n len).1 = .success
  status : F.done.status = (recvOutcome n len).1
  size : F.done.size = some (recvOutcome n len).2

/-- If it ends in a wait, its endpoint is still found then. -/
def Followed.EndpointThere : Prop :=
  (∃ timeout, F.last.call = .wait (handleOf F.r) (some F.size) timeout) → lookup F.db2 e ≠ .ok none

theorem recvOutcome_fits {len : U32} (h : len ≤ n) : recvOutcome n len = (.success, len) :=
  if_neg (BitVec.not_lt.mpr h)

theorem recvOutcome_exceeds {len : U32} (h : ¬ len ≤ n) : recvOutcome n len = (.errMsgTruncated, n) :=
  if_pos (BitVec.not_le.mp h)

variable {F} in
/-- A completion with the length the driver reported is the right one where it fits. -/
theorem Followed.agrees_of_done {len : U32} (hd : F.done = ⟨true, some len, .success⟩) : F.Agrees len ↔ len ≤ n := by
  constructor
  · intro h
    by_contra hlen
    have hst := h.status
    rw [hd, recvOutcome_exceeds hlen] at hst
    cases hst
  · intro hlen
    refine ⟨fun _ => ?_, ?_, ?_⟩
    · rw [recvOutcome_fits hlen]
    · rw [hd, recvOutcome_fits hlen]
    · rw [hd, recvOutcome_fits hlen]

variable {F} in
theorem Followed.not_agrees_of_gone {len : U32} (hd : F.done.status = .errNodeNotinit) : ¬ F.Agrees len := by
  intro h
  have hst := h.status
  rw [hd] at hst
  unfold recvOutcome at hst
  split at hst
  · cases hst
  · cases hst

theorem Followed.agrees_iff (hi : PoolInv db) {id : Req} (hid : db.requestReservesHeader.emptyHeadIndex = some id)
    (hc : recvChecks .std db e b = .ok .success) {len : U32} (h : F.Delivers len) :
    F.Agrees len ↔ len ≤ n ∧ F.EndpointThere := by
  have hfirst : Receiving F.r e F.db1 F.first.commands := recv_receiving hi hid hc F.issues F.issue F.issued
  have hrun : Receiving F.r e F.db2 (F.first.commands ++ F.between.flatMap (onBehalf F.r)) :=
    F.run.accumulates (fun _ h hs => h.step hs) hfirst
  obtain ⟨c, hmem, h0, rfl⟩ := h
  have hends := F.ends
  have hended := F.ended
  rcases F.asks with hask | ⟨timeout, hask⟩
  · have hh : F.last.call.handle = some (handleOf F.r) := by rw [hask]; rfl
    rw [Followed.commands, onBehalf, if_pos hh] at hmem
    obtain ⟨hdb, -, ht, he⟩ := hends
    rw [← hdb] at hrun
    rw [hask, hended] at he
    obtain ⟨d, hd, hx⟩ := test_exec he
    obtain rfl := Ret.done.inj hd
    have hdone := (hrun.test (by rw [ht]; rfl) hx).2 (Option.some_ne_none _) c hmem h0
    have hthere : F.EndpointThere := by
      rintro ⟨timeout, hw⟩
      rw [hask] at hw
      cases hw
    rw [Followed.agrees_of_done hdone]
    exact ⟨fun hlen => ⟨hlen, hthere⟩, And.left⟩
  · have hh : F.last.call.handle = some (handleOf F.r) := by rw [hask]; rfl
    rw [Followed.commands, onBehalf, if_pos hh] at hmem
    obtain ⟨hdb, -, ht, he⟩ := hends
    rw [hask, hended] at he
    obtain ⟨d, hd, hx⟩ := wait_exec he
    obtain rfl := Ret.done.inj hd
    rw [← hdb] at hrun
    have hdone := hrun.wait (by rw [ht]; rfl) hx hmem h0
    rw [hdb] at hdone
    by_cases hl : lookup F.db2 e = .ok none
    · rw [if_pos hl] at hdone
      constructor
      · intro ha
        exact absurd ha (Followed.not_agrees_of_gone hdone)
      · intro hcond
        exact absurd hl (hcond.2 ⟨timeout, hask⟩)
    · rw [if_neg hl] at hdone
      rw [Followed.agrees_of_done hdone]
      exact ⟨fun hlen => ⟨hlen, fun _ => hl⟩, And.left⟩

/-- In any state in which a request can be reserved: a rejected call is rejected alike
    exactly under `SameRejection`; the blocking receive makes of every message what it
    should; and, from the states of healthy runs, a message reported to the other one is
    seen alike exactly when it fits the buffer and, if a wait ends the receive, the
    endpoint is still there. -/
theorem receives_agree_iff (hf : Spare db) (e b n : U32) :
    (RejectsAlike db e b n ↔ SameRejection db e b) ∧
    (recvChecks .std db e b = .ok .success →
      (∀ E w m k, w.db = db → lookup db e = .ok (some k) → (E.drv .recv (recvPkt k b n)).ret = 0 →
        ∃ w', msgRecv .std E w e b n m = .ok (recvOutcome n (E.drv .recv (recvPkt k b n)).pkt.bufLen, w')) ∧
      (Reached db → ∀ (F : Followed db e b n) (len : U32), F.Delivers len →
        (F.Agrees len ↔ len ≤ n ∧ F.EndpointThere))) := by
  obtain ⟨id, hid⟩ := spare_iff.mp hf
  refine ⟨rejectsAlike_iff hid, fun hc => ⟨?_, ?_⟩⟩
  · rintro E w m k rfl hl hret
    exact msgRecv_delivers hc hl (recvChecks_success hc).1 hret m
  · intro h F len hd
    exact F.agrees_iff h.inv hid hc hd

/-! ### A message into 8 bytes -/

/-- A driver that reports every message to be of this length. -/
def reports (len : U32) : Env := { drv := fun _ p => ⟨0, 0, { p with bufLen := len }, {}⟩ }

/-- A receive of 8 bytes, and a test for which the driver has a message. -/
def tested (len : U32) : CallRec := (Call.test 0 (some 0)).record (reports len) received5

def followed (len : U32) : Followed onePort (endpointHandle 0 5) 4096 8 where
  r := 0
  q := 0
  size := 0
  status := .pending
  done := ⟨true, some len, .success⟩
  first := recv5
  between := []
  last := tested len
  db1 := received5
  db2 := received5
  db3 := (tested len).after.db
  issues := record_step rfl
  issue := rfl
  issued := rfl
  run := .nil received5
  ends := record_step rfl
  asks := .inl rfl
  ended := rfl

theorem followed_delivers (len : U32) : (followed len).Delivers len :=
  ⟨_, List.mem_append_right _ List.mem_cons_self, rfl, rfl⟩

/-- A message of 5 bytes is seen as the blocking receive would report it, and a receive on
    a port without an endpoint is rejected as it would be. -/
theorem short_message_agrees :
    (followed 5).Agrees 5 ∧ RejectsAlike onePort (endpointHandle 0 6) 4096 8 := by
  have hspare : Spare onePort := onePort_live.inv.spare_iff_free.mpr ⟨0, rfl⟩
  have hseen := ((receives_agree_iff hspare (endpointHandle 0 5) 4096 8).2 rfl).2 onePort_live.reached (followed 5) 5
    (followed_delivers 5)
  exact ⟨hseen.mpr ⟨by decide, fun ⟨_, hw⟩ => by cases hw⟩,
    (receives_agree_iff hspare (endpointHandle 0 6) 4096 8).1.mpr ⟨by decide, .inl rfl⟩⟩

/-- A message of 100 bytes is reported whole, and a receive without a buffer is not
    rejected as one. -/
theorem long_message_not_truncated :
    (¬ ∀ db, Reached db → (∃ r, IsFree db r) → ∀ e b n, RejectsAlike db e b n) ∧
    ¬ ∀ db, Reached db → (∃ r, IsFree db r) → ∀ e b n, recvChecks .std db e b = .ok .success →
      ∀ (F : Followed db e b n) len, F.Delivers len → F.Agrees len := by
  constructor
  · intro h
    have hid : onePort.requestReservesHeader.emptyHeadIndex = some 0 := rfl
    have hsame := (rejectsAlike_iff hid).mp (h onePort onePort_live.reached ⟨0, rfl⟩ (endpointHandle 0 5) 0 8)
    exact hsame.1 rfl
  · intro h
    have ha := h onePort onePort_live.reached ⟨0, rfl⟩ _ 4096 8 rfl (followed 100) 100 (followed_delivers 100)
    have hst := ha.status
    cases hst

end Mcapi
