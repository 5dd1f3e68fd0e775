/-
  Mcapi.Ownership — whose request a call acts on.

  An accepted call hands out the slot it reserved, filled in with the operation
  (`accepted_issue_owns_request`), and from then on test and wait on it change no other
  reserved request. Two things its caller might expect are not so
  (`accepted_issue_exceptions`): the record of a send keeps no buffer, since the message
  is named by its payload, and an endpoint found locally is returned at once with
  nothing reserved, `*request` being left as it was.
-/

import Mcapi.Processes

namespace Mcapi

variable {E : Env} {w w' : World} {db db' : Database}

/-- What the record of a request keeps of its operation. -/
def Issuer.Recorded (d : RequestData) : Issuer → Prop
  | .msgSendI s r _ n _ => d.type = .send ∧ d.handle = s ∧ d.epEndpoint = r ∧ d.size = n ∧ d.buffer = 0
  | .msgRecvI r b _ => d.type = .recv ∧ d.handle = r ∧ d.buffer = b
  | .endpointGetI dom n p e =>
    d.type = .getEndpt ∧ d.epDomainNum = dom ∧ d.epNodeNum = n ∧ d.epPortNum = p ∧ d.buffer = e

/-- What it would keep if the buffer of a send were kept too. -/
def Issuer.RecordedWithBuffer (d : RequestData) : Issuer → Prop
  | .msgSendI s r b _ _ => d.type = .send ∧ d.handle = s ∧ d.epEndpoint = r ∧ d.buffer = b
  | i => i.Recorded d

theorem record_recorded (locals : Locals) (ret : Int) (pkt : SmPacket) (d : RequestData) (i : Issuer) :
    i.Recorded (i.record locals ret pkt d) := by
  cases i with
  | msgSendI s r b n p => exact ⟨rfl, rfl, rfl, rfl, rfl⟩
  | msgRecvI r b n => exact ⟨rfl, rfl, rfl⟩
  | endpointGetI dom n p e => exact ⟨rfl, rfl, rfl, rfl, rfl⟩

/-- From `db` on, calls given request `r` change no other reserved request. -/
def ActsAlone (db : Database) (r : Req) : Prop :=
  ∀ db1, Lts.Reachable CallStep db db1 → ∀ l db2, CallStep db1 l db2 → l.call.handle = some (handleOf r) →
    ∀ q, q ≠ r → (db1.requests q).valid = true → db2.requests q = db1.requests q

theorem actsAlone (h : PoolInv db) (r : Req) : ActsAlone db r := by
  intro db1 hdb1 l db2 hs hl q hq hv
  have h1 : PoolInv db1 := hdb1.invariant h fun hi hs => CallStep.inv hs hi
  refine (call_effect hs).frame h1 hv ?_
  rw [hl]
  intro he
  exact hq (handleOf_inj (Option.some.inj he)).symm

/-- If the call is accepted, what it leaves in `*request` is a request that was not valid
    before and is now, `Keeps` its operation, and is acted on alone. -/
def HandsOut (Keeps : RequestData → Issuer → Prop) (E : Env) (w : World) (request : Option U32) (i : Issuer) : Prop :=
  ∀ x w', i.exec .std E w request = .ok (x, w') → ¬ Failed x.status →
    ∃ r, x.request = some (handleOf r) ∧ (w.db.requests r).valid = false ∧ (w'.db.requests r).valid = true ∧
      Keeps (w'.db.requests r) i ∧ ActsAlone w'.db r

theorem handsOut_filled {i : Issuer} {q : Option U32} {x : Issue} {id : Req} {ret : Int} {pkt : SmPacket}
    (h : PoolInv w.db) (he : i.exec .std E w q = .ok (x, w'))
    (hid : w.db.requestReservesHeader.emptyHeadIndex = some id) (hdb : w'.db = i.filled E w.db id ret pkt) :
    (w.db.requests id).valid = false ∧ (w'.db.requests id).valid = true ∧ i.Recorded (w'.db.requests id) ∧
      ActsAlone w'.db id := by
  have hr : w'.db.requests id = i.record E.locals ret pkt ((w.db.take id).requests id) := by
    rw [hdb, Issuer.filled, setRequest_same]
  refine ⟨h.head_free hid, ?_, ?_, actsAlone ((issue_effect he).inv h) id⟩
  · rw [hr]; exact record_valid ..
  · rw [hr]; exact record_recorded ..

/-- An accepted send, receive, or get of an endpoint that is not found locally, hands
    out a request of its own. -/
theorem accepted_issue_owns_request (h : Reached w.db) {i : Issuer} (hr : i.route w.db ≠ .ok .found)
    (q : Option U32) : HandsOut (fun d i => i.Recorded d) E w q i := by
  intro x w' he hx
  obtain ⟨id, ret, pkt, hreq, hid, hdb⟩ := (issue_cases he).accepted hr hx
  exact ⟨id, hreq, handsOut_filled h.inv he hid hdb⟩

/-- A get of an endpoint of another node, still pending. -/
theorem pending_get_owns_request :
    HandsOut (fun d i => i.Recorded d) notYet { db := initialised 0 0 none } (some 0) (.endpointGetI 0 7 5 4096) :=
  accepted_issue_owns_request (Live.reached ⟨0, 0, none, .refl _⟩)
    (by rw [show Issuer.route _ (.endpointGetI 0 7 5 4096) = .ok (.command .queryRemoteEp (queryPkt 7 5 0)) from rfl]
        exact nofun) (some 0)

/-! ### What an accepted call need not do -/

/-- A send keeps no buffer, and a get of a local endpoint hands out nothing. -/
theorem accepted_issue_exceptions :
    Live onePort ∧
    ¬ HandsOut (fun d i => i.RecordedWithBuffer d) sessionOne { db := onePort } (some 9)
      (.msgSendI (endpointHandle 0 5) (endpointHandle 7 5) 4096 4 0) ∧
    ¬ HandsOut (fun d i => i.RecordedWithBuffer d) sessionOne { db := onePort } (some 9)
      (.endpointGetI 0 0 5 4096) := by
  refine ⟨onePort_live, ?_, ?_⟩
  · intro h
    obtain ⟨r, hr, -, -, hk, -⟩ := h _ _ rfl (by decide)
    obtain rfl : 0 = r := handleOf_inj (Option.some.inj hr)
    exact absurd hk.2.2.2 (by decide)
  · intro h
    obtain ⟨r, hr, -, hv, -⟩ := h _ _ rfl (by decide)
    obtain rfl : 9 = r := handleOf_inj (Option.some.inj hr)
    exact absurd hv (by decide)

end Mcapi
