/-
  Mcapi.Sends — `mcapi_msg_send` and `mcapi_msg_send_i` side by side.

  Both make the same checks. The blocking send stops where they fail. The non-blocking
  one notes the status and calls the transport all the same, which looks the endpoint up
  again, without the checks, and writes the status over. So they agree where there is no
  such endpoint, where every check passes, and where the lookup of both runs past the
  table, and nowhere else (`sends_agree_iff`).
-/

import Mcapi.Processes

namespace Mcapi

variable {E : Env} {w w' : World}

/-- Where the blocking send returns without a command, the other one returns the same
    status without one; where it gives one, the other gives one with the same packet. -/
def SendsAgree (E : Env) (w : World) (s r b n p q : U32) : Prop :=
  ∀ st w1, msgSend .std E w s r b n p = .ok (st, w1) →
    ∃ x w2, msgSendI .std E w s r b n p (some q) = .ok (x, w2) ∧
      (commands w1.trace = commands w.trace → x.status = st ∧ commands w2.trace = commands w.trace) ∧
      (commands w1.trace ≠ commands w.trace → ∃ pkt a a', commands w1.trace = commands w.trace ++ [⟨.send, pkt, a⟩] ∧
        commands w2.trace = commands w.trace ++ [⟨.send, pkt, a'⟩])

/-- There is no such endpoint, or it is valid and the message is not too long, or the
    checks themselves run past the table. -/
def SameChecks (db : Database) (s n : U32) : Prop :=
  lookup db s = .ok none ∨ (transValidEndpoint .std db s = .ok true ∧ n ≤ maxMsgSize) ∨
    ∃ f, transValidEndpoint .std db s = .error f

theorem sendChecks_eq (db : Database) (s r n p : U32) :
    sendChecks .std db s r n p = (do
      if !(← transValidEndpoint .std db s) then .ok .errEndpInvalid
      else if maxMsgSize < n then .ok .errMsgLimit
      else .ok .success) := rfl

/-- With its endpoint there, the transport's send returns, with one command given. -/
theorem transMsgSend_some {s : U32} {k : Slot} (h : lookup w.db s = .ok (some k)) (r b n : U32) :
    ∃ st w1, transMsgSend .std E w s r b n = .ok (st, w1) ∧
      commands w1.trace = commands w.trace ++ [⟨.send, sendPkt k r b n, E.drv .send (sendPkt k r b n)⟩] := by
  have hc : commands (ioctl E (setBlocking w true) .send (sendPkt k r b n)).2.trace =
      commands w.trace ++ [⟨.send, sendPkt k r b n, E.drv .send (sendPkt k r b n)⟩] := by
    rw [commands_ioctl_trace, commands_setBlocking]
  unfold lookup at h
  simp only [transMsgSend, assertDecode_std, h, ok_bind]
  by_cases hret : (E.drv .send (sendPkt k r b n)).ret ≠ 0
  · exact ⟨_, _, if_pos hret, hc⟩
  · exact ⟨_, _, if_neg hret, hc⟩

/-- Without it, nothing is sent. -/
theorem msgSendI_missing {id : Req} (hid : w.db.requestReservesHeader.emptyHeadIndex = some id) {s : U32}
    (h : lookup w.db s = .ok none) (r b n p q : U32) :
    ∃ x w2, msgSendI .std E w s r b n p (some q) = .ok (x, w2) ∧ x.status = .errEndpInvalid ∧
      commands w2.trace = commands w.trace := by
  obtain ⟨x, w2, he⟩ := msgSendI_returns (E := E) hid h r b n p q
  have hr : (Issuer.msgSendI s r b n p).route w.db = .ok .missing := by simp only [Issuer.route, h, ok_bind]
  exact ⟨x, w2, he, (issue_cases he).at_missing hid hr⟩

/-- With it, the non-blocking send gives one command, whatever the checks found. -/
theorem msgSendI_some {id : Req} (hid : w.db.requestReservesHeader.emptyHeadIndex = some id) {s : U32} {k : Slot}
    (h : lookup w.db s = .ok (some k)) (r b n p q : U32) :
    ∃ x w2, msgSendI .std E w s r b n p (some q) = .ok (x, w2) ∧
      commands w2.trace = commands w.trace ++ [⟨.send, sendPkt k r b n, E.drv .send (sendPkt k r b n)⟩] := by
  obtain ⟨x, w2, he⟩ := msgSendI_returns (E := E) hid h r b n p q
  have hr : (Issuer.msgSendI s r b n p).route w.db = .ok (.command .send (sendPkt k r b n)) := by
    simp only [Issuer.route, h, ok_bind]
  exact ⟨x, w2, he, ((issue_cases he).at_command hid hr).2.2⟩

theorem validEndpoint_missing {db : Database} {s : U32} (h : lookup db s = .ok none) :
    transValidEndpoint .std db s = .ok false := by
  unfold lookup at h
  simp only [transValidEndpoint, h, ok_bind]
  split <;> rfl

/-- A send the checks reject. -/
theorem msgSend_rejects {s n : U32} {v : Bool} (hv : transValidEndpoint .std w.db s = .ok v)
    (h : ¬ (v = true ∧ n ≤ maxMsgSize)) (r b p : U32) :
    ∃ st, msgSend .std E w s r b n p = .ok (st, w) ∧ (v = false → st = .errEndpInvalid) := by
  cases v with
  | false => exact ⟨.errEndpInvalid, by simp [msgSend, sendChecks_eq, hv], fun _ => rfl⟩
  | true =>
    have hn : maxMsgSize < n := by
      simpa [BitVec.not_le] using h
    exact ⟨.errMsgLimit, by simp [msgSend, sendChecks_eq, hv, hn], nofun⟩

/-- A send the checks let through. -/
theorem msgSend_accepted {s n : U32} (hv : transValidEndpoint .std w.db s = .ok true) (hn : n ≤ maxMsgSize)
    (r b p : U32) : msgSend .std E w s r b n p = transMsgSend .std E w s r b n := by
  have hlt : ¬ maxMsgSize < n := BitVec.not_lt.mpr hn
  simp [msgSend, sendChecks_eq, hv, hlt]

theorem append_ne {cs : List Command} {c : Command} : cs ++ [c] ≠ cs := by
  intro h
  have := congrArg List.length h
  simp at this

/-- A send the checks reject, where the endpoint is there all the same, is not rejected
    by the non-blocking one. -/
theorem disagree_of_some {id : Req} (hid : w.db.requestReservesHeader.emptyHeadIndex = some id) {s n : U32} {k : Slot}
    (hl : lookup w.db s = .ok (some k)) {v : Bool} (hv : transValidEndpoint .std w.db s = .ok v)
    (h : ¬ (v = true ∧ n ≤ maxMsgSize)) (r b p q : U32) : ¬ SendsAgree E w s r b n p q := by
  intro ha
  obtain ⟨st, hs, -⟩ := msgSend_rejects (E := E) hv h r b p
  obtain ⟨x, w2, hx, hrej, -⟩ := ha st w hs
  obtain ⟨x', w2', hx', htr⟩ := msgSendI_some (E := E) hid hl r b n p q
  cases hx.symm.trans hx'
  exact append_ne (htr.symm.trans (hrej rfl).2)

/-- A lookup past the table stops the non-blocking send, and not the checks of a handle
    of another node. -/
theorem disagree_of_fault {id : Req} (hid : w.db.requestReservesHeader.emptyHeadIndex = some id) {s n : U32} {f : Fault}
    (hl : lookup w.db s = .error f) {v : Bool} (hv : transValidEndpoint .std w.db s = .ok v)
    (r b p q : U32) : ¬ SendsAgree E w s r b n p q := by
  intro ha
  have hrej : ¬ (v = true ∧ n ≤ maxMsgSize) := by
    intro hacc
    rw [hacc.1] at hv
    obtain ⟨-, k, hk, -⟩ := validEndpoint_true hv
    rw [hl] at hk
    cases hk
  obtain ⟨st, hs, -⟩ := msgSend_rejects (E := E) hv hrej r b p
  obtain ⟨x, w2, hx, -⟩ := ha st w hs
  have hr : (Issuer.msgSendI s r b n p).route w.db = .error f := by
    simp only [Issuer.route, hl]
    rfl
  exact Issued.route_ok (issue_cases (i := .msgSendI s r b n p) hx) hid f hr

theorem agree_of_missing {id : Req} (hid : w.db.requestReservesHeader.emptyHeadIndex = some id) {s : U32}
    (hl : lookup w.db s = .ok none) (r b n p q : U32) : SendsAgree E w s r b n p q := by
  intro st w1 hs
  obtain ⟨st', hs', hst⟩ := msgSend_rejects (E := E) (n := n) (validEndpoint_missing hl) (by simp) r b p
  cases hs.symm.trans hs'
  obtain ⟨x, w2, hx, hxst, htr⟩ := msgSendI_missing (E := E) hid hl r b n p q
  exact ⟨x, w2, hx, fun _ => ⟨hxst.trans (hst rfl).symm, htr⟩, fun h => absurd rfl h⟩

theorem agree_of_valid {id : Req} (hid : w.db.requestReservesHeader.emptyHeadIndex = some id) {s n : U32}
    (hv : transValidEndpoint .std w.db s = .ok true) (hn : n ≤ maxMsgSize) (r b p q : U32) :
    SendsAgree E w s r b n p q := by
  intro st w1 hs
  obtain ⟨-, k, hl, -⟩ := validEndpoint_true hv
  rw [msgSend_accepted hv hn] at hs
  obtain ⟨st', w1', hs', htr⟩ := transMsgSend_some (E := E) hl r b n
  cases hs.symm.trans hs'
  obtain ⟨x, w2, hx, htr2⟩ := msgSendI_some (E := E) hid hl r b n p q
  exact ⟨x, w2, hx, fun h => absurd (htr.symm.trans h) append_ne, fun _ => ⟨_, _, _, htr, htr2⟩⟩

/-- In any state in which a request can be reserved, the two sends agree exactly where they
    make the same checks. -/
theorem sends_agree_iff (hf : Spare w.db) (s r b n p q : U32) : SendsAgree E w s r b n p q ↔ SameChecks w.db s n := by
  obtain ⟨id, hid⟩ := spare_iff.mp hf
  constructor
  · intro ha
    cases hv : transValidEndpoint .std w.db s with
    | error f => exact .inr (.inr ⟨f, hv⟩)
    | ok v =>
      cases hl : lookup w.db s with
      | error f => exact absurd ha (disagree_of_fault hid hl hv r b p q)
      | ok k =>
        cases k with
        | none => exact .inl hl
        | some k =>
          by_cases hc : v = true ∧ n ≤ maxMsgSize
          · exact .inr (.inl ⟨hc.1 ▸ hv, hc.2⟩)
          · exact absurd ha (disagree_of_some hid hl hv hc r b p q)
  · intro hc
    rcases hc with hl | ⟨hv, hn⟩ | ⟨f, hv⟩
    · exact agree_of_missing hid hl r b n p q
    · exact agree_of_valid hid hv hn r b p q
    · intro st w1 hs
      rw [msgSend, sendChecks_eq, hv] at hs
      cases hs

/-- From the endpoint of port 5, 64 bytes are sent alike. -/
theorem short_sends_agree :
    SendsAgree sessionOne { db := onePort } (endpointHandle 0 5) (endpointHandle 7 5) 4096 64 0 0 := by
  have hv : transValidEndpoint .std onePort (endpointHandle 0 5) = .ok true := rfl
  have hn : (64 : U32) ≤ maxMsgSize := by decide
  have hspare : Spare onePort := onePort_live.inv.spare_iff_free.mpr ⟨0, rfl⟩
  exact (sends_agree_iff (w := { db := onePort }) hspare (endpointHandle 0 5)
    (endpointHandle 7 5) 4096 64 0 0).mpr (.inr (.inl ⟨hv, hn⟩))

/-- 2000 bytes are not: one send rejects them, the other gives them to the driver. -/
theorem long_sends_disagree :
    ¬ ∀ w, Reached w.db → (∃ r, IsFree w.db r) → ∀ E s r b n p q, SendsAgree E w s r b n p q := by
  intro h
  have hv : transValidEndpoint .std onePort (endpointHandle 0 5) = .ok true := rfl
  obtain ⟨-, k, hl, -⟩ := validEndpoint_true hv
  have hid : onePort.requestReservesHeader.emptyHeadIndex = some 0 := rfl
  exact disagree_of_some (w := { db := onePort }) hid hl hv (n := 2000) (by decide) _ _ _ _
    (h { db := onePort } onePort_live.reached ⟨0, rfl⟩ sessionOne _ (endpointHandle 7 5) 4096 _ 0 0)

end Mcapi
