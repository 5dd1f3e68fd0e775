/-
  Mcapi.Pool — what a call can do to the pool, over whole runs.

  A call leaves the records and the header alone, reserves the head of the free list
  and fills in its record, rewrites the record of the request it was given, or drops
  that request (`Effect`, `call_effect`). So every state that calls lead to satisfies
  `PoolInv` (`Live.inv`), and a call changes no record of a reserved request but the
  one it was given (`Effect.frame`), and in that one, while it stays reserved, only
  `completed` and `size` (`Effect.sameOperation`).
-/

import Mcapi.Completion
import Mcapi.Endpoints

namespace Mcapi

variable {E : Env} {w w' : World} {db db' : Database}

/-- The request a call is given. -/
def Call.handle : Call → Option U32
  | .test v _ => some v
  | .wait v _ _ => some v
  | _ => none

/-! ## Calls that leave the pool alone -/

/-- Records and header are untouched. -/
def Quiet (db db' : Database) : Prop :=
  db'.requests = db.requests ∧ db'.requestReservesHeader = db.requestReservesHeader

theorem Quiet.of_eq (h : db' = db) : Quiet db db' := h ▸ ⟨rfl, rfl⟩

/-- The flags, the free list and the counter are the same. -/
def SamePool (db db' : Database) : Prop :=
  (∀ r, (db'.requests r).valid = (db.requests r).valid) ∧ db'.requestReservesHeader = db.requestReservesHeader

theorem SamePool.refl (db : Database) : SamePool db db := ⟨fun _ => rfl, rfl⟩

theorem SamePool.trans {a b c : Database} (h : SamePool a b) (h' : SamePool b c) : SamePool a c :=
  ⟨fun r => (h'.1 r).trans (h.1 r), h'.2.trans h.2⟩

theorem create_quiet {p : U32} {x : U32 × Status} (h : endpointCreate .std E w p = .ok (x, w')) : Quiet w.db w'.db := by
  cases create_cases h with
  | notInit => exact .of_eq rfl
  | created i k w' _ _ _ hdb _ => rw [hdb]; exact ⟨rfl, rfl⟩

theorem delete_quiet {e : U32} {st : Status} (h : endpointDelete .std E w e = .ok (st, w')) : Quiet w.db w'.db := by
  cases delete_cases h with
  | refused => exact .of_eq rfl
  | deleted i k w' _ _ _ hdb _ => rw [hdb]; exact ⟨rfl, rfl⟩

theorem get_db {d n p t : U32} {x : U32 × Status} (h : endpointGet .std E w d n p t = .ok (x, w')) : w'.db = w.db := by
  simp only [endpointGet, transValidNode, transValidPort, transEndpointGet, Bool.not_true, Bool.false_eq_true,
    if_false] at h
  obtain ⟨k, -, h⟩ := bind_eq_ok.mp h
  cases k with
  | some k => cases h; rfl
  | none =>
    dsimp only at h
    split at h <;> · cases h; simp

theorem getAttribute_db {e : U32} {st : Status} (h : endpointGetAttribute .std w e = .ok (st, w')) : w'.db = w.db := by
  obtain ⟨v, -, h⟩ := bind_eq_ok.mp h
  split at h <;> · cases h; rfl

theorem send_db {s r b n p : U32} {st : Status} (h : msgSend .std E w s r b n p = .ok (st, w')) : w'.db = w.db := by
  obtain ⟨v, -, h⟩ := bind_eq_ok.mp h
  split at h
  · cases h; rfl
  · obtain ⟨k, -, h⟩ := bind_eq_ok.mp h
    cases k with
    | none => cases h; rfl
    | some k =>
      dsimp only at h
      split at h <;> · cases h; simp

theorem recv_db {r b n m : U32} {x : Status × U32} (h : msgRecv .std E w r b n m = .ok (x, w')) : w'.db = w.db := by
  obtain ⟨v, -, h⟩ := bind_eq_ok.mp h
  split at h
  · cases h; rfl
  obtain ⟨⟨⟨st, len⟩, w1⟩, h1, h⟩ := bind_eq_ok.mp h
  have hw : w' = w1 := by
    cases len with
    | none => cases h; rfl
    | some len =>
      dsimp only at h
      split at h <;> · cases h; rfl
  subst hw
  obtain ⟨k, -, h1⟩ := bind_eq_ok.mp h1
  cases k with
  | none => cases h1; rfl
  | some k =>
    dsimp only at h1
    split at h1 <;> · cases h1; simp

theorem available_db {r : U32} {x : U32 × Status} (h : msgAvailable .std E w r = .ok (x, w')) : w'.db = w.db := by
  obtain ⟨v, -, h⟩ := bind_eq_ok.mp h
  split at h
  · cases h; rfl
  dsimp only [transMsgAvailable] at h
  split at h
  · cases h
  obtain ⟨k, -, h⟩ := bind_eq_ok.mp h
  cases k with
  | none => cases h; rfl
  | some k =>
    dsimp only at h
    split at h <;> · cases h; rfl

/-! ## The effect of a call -/

inductive Effect (call : Call) (db : Database) : Database → Prop
  | quiet (db' : Database) : Quiet db db' → Effect call db db'
  | reserve (i : Issuer) (q : Option U32) (id : Req) (d : RequestData) : call = i.call q →
      db.requestReservesHeader.emptyHeadIndex = some id → d.valid = true →
      Effect call db ((db.take id).setRequest id d)
  | rewrite (r : Req) (d : RequestData) : call.handle = some (handleOf r) → (db.requests r).valid = true →
      SameOperation (db.requests r) d → Effect call db (db.setRequest r d)
  | drop (r : Req) (d : RequestData) : call.handle = some (handleOf r) → (db.requests r).valid = true →
      SameOperation (db.requests r) d → Effect call db (dropped (db.setRequest r d) r)

theorem setRequest_self (db : Database) (r : Req) : db.setRequest r (db.requests r) = db := by
  rw [Database.setRequest, Function.update_eq_self]

theorem issue_effect {i : Issuer} {q : Option U32} {x : Issue} (h : i.exec .std E w q = .ok (x, w')) :
    Effect (i.call q) w.db w'.db := by
  cases issue_cases h with
  | refused => exact .quiet _ (.of_eq rfl)
  | found w' _ hdb => exact .quiet _ (.of_eq hdb)
  | limit => exact .quiet _ (.of_eq rfl)
  | missing id _ hid _ =>
    have he := Effect.reserve i q id ((w.db.take id).requests id) rfl hid (by simp)
    rwa [setRequest_self] at he
  | noBuffer id w' _ hid _ hdb =>
    rw [hdb]
    exact .reserve i q id _ rfl hid (record_valid ..)
  | command id c p w' _ hid _ hdb =>
    rw [hdb]
    exact .reserve i q id _ rfl hid (record_valid ..)

theorem test_effect {v : U32} {size : Option U32} {d : Done} (h : test .std E w v size = .ok (d, w')) :
    Effect (.test v size) w.db w'.db := by
  cases test_cases h with
  | refused => exact .quiet _ (.of_eq rfl)
  | ended => exact .quiet _ (.of_eq rfl)
  | pending r t d w' _ _ _ _ _ _ _ hdb => exact .quiet _ (.of_eq hdb)
  | done r t d w' size hv hr _ _ _ _ hdb =>
    rw [hdb]
    exact .rewrite r _ (congrArg some hv) hr (completedRecord_same ..)

theorem wait_drops {v timeout : U32} {size : Option U32} {r : Req} (hv : v = handleOf r)
    (hr : (db.requests r).valid = true) (hdb : db' = dropped db r) : Effect (.wait v size timeout) db db' := by
  have he : Effect (.wait v size timeout) db (dropped (db.setRequest r (db.requests r)) r) :=
    .drop r _ (congrArg some hv) hr (.refl _)
  rwa [setRequest_self, ← hdb] at he

theorem wait_effect {v timeout : U32} {size : Option U32} {d : Done} (h : wait .std E w v size timeout = .ok (d, w')) :
    Effect (.wait v size timeout) w.db w'.db := by
  cases wait_cases h with
  | refused => exact .quiet _ (.of_eq rfl)
  | gone => exact .quiet _ (.of_eq rfl)
  | already r d w' hv hr _ _ _ hdb =>
    exact wait_drops hv hr hdb
  | failed r t d w' hv hr _ _ _ _ _ hdb =>
    exact wait_drops hv hr hdb
  | done r t d w' rec hv hr _ _ _ _ hrec hdb =>
    rw [hdb]
    exact .drop r rec (congrArg some hv) hr hrec

theorem exec_effect {c : Call} {x : Ret} (h : c.exec .std E w = .ok (x, w')) : Effect c w.db w'.db := by
  cases c with
  | domainIdGet => cases h; exact .quiet _ (.of_eq rfl)
  | nodeIdGet => cases h; exact .quiet _ (.of_eq rfl)
  | endpointCreate p =>
    obtain ⟨⟨⟨v, st⟩, w1⟩, hx, h⟩ := bind_eq_ok.mp h
    cases h
    exact .quiet _ (create_quiet hx)
  | endpointGetI d n p e q =>
    obtain ⟨y, -, hx⟩ := issue_exec (i := .endpointGetI d n p e) h
    exact issue_effect hx
  | endpointGet d n p t =>
    obtain ⟨⟨⟨v, st⟩, w1⟩, hx, h⟩ := bind_eq_ok.mp h
    cases h
    exact .quiet _ (.of_eq (get_db hx))
  | endpointDelete e =>
    obtain ⟨⟨st, w1⟩, hx, h⟩ := bind_eq_ok.mp h
    cases h
    exact .quiet _ (delete_quiet hx)
  | endpointGetAttribute e =>
    obtain ⟨⟨st, w1⟩, hx, h⟩ := bind_eq_ok.mp h
    cases h
    exact .quiet _ (.of_eq (getAttribute_db hx))
  | msgSendI s r b n p q =>
    obtain ⟨y, -, hx⟩ := issue_exec (i := .msgSendI s r b n p) h
    exact issue_effect hx
  | msgSend s r b n p =>
    obtain ⟨⟨st, w1⟩, hx, h⟩ := bind_eq_ok.mp h
    cases h
    exact .quiet _ (.of_eq (send_db hx))
  | msgRecvI r b n q =>
    obtain ⟨y, -, hx⟩ := issue_exec (i := .msgRecvI r b n) h
    exact issue_effect hx
  | msgRecv r b n m =>
    obtain ⟨⟨⟨st, v⟩, w1⟩, hx, h⟩ := bind_eq_ok.mp h
    cases h
    exact .quiet _ (.of_eq (recv_db hx))
  | msgAvailable r =>
    obtain ⟨⟨⟨v, st⟩, w1⟩, hx, h⟩ := bind_eq_ok.mp h
    cases h
    exact .quiet _ (.of_eq (available_db hx))
  | test v size =>
    obtain ⟨⟨d, w1⟩, hx, h⟩ := bind_eq_ok.mp h
    cases h
    exact test_effect hx
  | wait v size timeout =>
    obtain ⟨⟨d, w1⟩, hx, h⟩ := bind_eq_ok.mp h
    cases h
    exact wait_effect hx

theorem call_effect {l : CallRec} (h : CallStep db l db') : Effect l.call db db' := by
  obtain ⟨rfl, rfl, -, h⟩ := h
  exact exec_effect h

/-- A call on request `r` is a test or a wait. -/
theorem CallStep.on_request {l : CallRec} (hs : CallStep db l db') {r : Req} (hh : l.call.handle = some (handleOf r)) :
    (∃ size d, l.call = .test (handleOf r) size ∧ l.ret = .done d ∧
      test .std l.env l.before (handleOf r) size = .ok (d, l.after)) ∨
    ∃ size timeout d, l.call = .wait (handleOf r) size timeout ∧ l.ret = .done d ∧
      wait .std l.env l.before (handleOf r) size timeout = .ok (d, l.after) := by
  obtain ⟨-, -, -, he⟩ := hs
  cases hc : l.call with
  | test v size =>
    rw [hc] at hh he
    cases hh
    obtain ⟨d, hd, he⟩ := test_exec he
    exact .inl ⟨size, d, rfl, hd, he⟩
  | wait v size timeout =>
    rw [hc] at hh he
    cases hh
    obtain ⟨d, hd, he⟩ := wait_exec he
    exact .inr ⟨size, timeout, d, rfl, hd, he⟩
  | _ => rw [hc] at hh; cases hh

/-! ## The invariant and the frame -/

theorem PoolInv.dropped (h : PoolInv db) {r : Req} (hr : (db.requests r).valid = true) : PoolInv (dropped db r) := by
  unfold Mcapi.dropped
  split
  · exact h.release hr
  · exact h

theorem Effect.inv {call : Call} (he : Effect call db db') (h : PoolInv db) : PoolInv db' := by
  cases he with
  | quiet db' hq => exact h.congr (fun r => by rw [hq.1]) hq.2
  | reserve i q id d _ hid hd => exact (h.take hid).setRequest (by simp [hd])
  | rewrite r d _ hr hd => exact h.setRequest hd.valid
  | drop r d _ hr hd => exact (h.setRequest hd.valid).dropped (by simpa using hd.valid.trans hr)

theorem dropped_requests_ne {r q : Req} (h : q ≠ r) : (dropped db r).requests q = db.requests q := by
  unfold dropped
  split
  · exact release_requests_ne db h
  · rfl

theorem dropped_record {r : Req} (h : ((dropped db r).requests r).valid = true) :
    (dropped db r).requests r = db.requests r := by
  unfold dropped at h ⊢
  split
  · rename_i hc
    rw [if_pos hc, release_requests_same] at h
    cases h
  · rfl

/-- A call changes no record of a reserved request but the one it was given. -/
theorem Effect.frame {call : Call} (he : Effect call db db') (h : PoolInv db) {q : Req}
    (hq : (db.requests q).valid = true) (hne : call.handle ≠ some (handleOf q)) : db'.requests q = db.requests q := by
  cases he with
  | quiet db' hd => rw [hd.1]
  | reserve i q' id d _ hid _ =>
    have hf : (db.requests id).valid = false := h.head_free hid
    have hne : q ≠ id := by intro e; rw [← e, hq] at hf; cases hf
    rw [setRequest_ne _ _ hne, take_requests_ne _ hne]
  | rewrite r d hh _ _ =>
    have hne : q ≠ r := by intro e; rw [← e] at hh; exact hne hh
    exact setRequest_ne _ _ hne
  | drop r d hh _ _ =>
    have hne : q ≠ r := by intro e; rw [← e] at hh; exact hne hh
    rw [dropped_requests_ne hne, setRequest_ne _ _ hne]

/-- A request that stays reserved keeps its operation. -/
theorem Effect.sameOperation {call : Call} (he : Effect call db db') (h : PoolInv db) {q : Req}
    (hq : (db.requests q).valid = true) (hq' : (db'.requests q).valid = true) :
    SameOperation (db.requests q) (db'.requests q) := by
  by_cases hh : call.handle = some (handleOf q)
  · cases he with
    | quiet db' hd => rw [hd.1]; exact .refl _
    | reserve i q' _ _ hc _ _ => rw [hc] at hh; cases i <;> cases hh
    | rewrite r d hr _ hd =>
      obtain rfl : r = q := handleOf_inj (Option.some.inj (hr.symm.trans hh))
      rw [setRequest_same]
      exact hd
    | drop r d hr _ hd =>
      obtain rfl : r = q := handleOf_inj (Option.some.inj (hr.symm.trans hh))
      rw [dropped_record hq', setRequest_same]
      exact hd
  · rw [he.frame h hq hh]
    exact .refl _

/-- A step while request `r` is reserved. -/
def Reserves (r : Req) (db : Database) (_ : CallRec) : Prop := (db.requests r).valid = true

theorem CallStep.inv {l : CallRec} (hs : CallStep db l db') (h : PoolInv db) : PoolInv db' := (call_effect hs).inv h

/-- A request that stays reserved over a run keeps its operation. -/
theorem sameOperation_run (h : PoolInv db) {r : Req} {ls : List CallRec}
    (hrun : Lts.Run (Lts.Guarded CallStep (Reserves r)) db ls db') (hr : (db'.requests r).valid = true) :
    SameOperation (db.requests r) (db'.requests r) := by
  have hkeep : PoolInv db' ∧ ((db'.requests r).valid = true → SameOperation (db.requests r) (db'.requests r)) := by
    refine hrun.keeps (I := fun db1 => PoolInv db1 ∧ ((db1.requests r).valid = true →
      SameOperation (db.requests r) (db1.requests r))) ?_ ⟨h, fun _ => .refl _⟩
    intro db1 l db2 _ hb hstep
    obtain ⟨hi, hsame⟩ := hb
    obtain ⟨hv, hs⟩ := hstep
    exact ⟨CallStep.inv hs hi, fun hv' => (hsame hv).trans ((call_effect hs).sameOperation hi hv hv')⟩
  exact hkeep.2 hr

theorem initialised_inv (d n : U32) (a : Option NodeAttributes) : PoolInv (initialised d n a) := by
  have h : PoolInv freshPool := init_inv fun _ => rfl
  exact h.congr (fun r => by rw [initialised, addNode_requests]) (by rw [initialised, addNode_header])

theorem Live.inv (h : Live db) : PoolInv db := by
  obtain ⟨d, n, a, h⟩ := h
  exact h.invariant (initialised_inv d n a) fun hi hs => CallStep.inv hs hi

/-! ## Some states -/

/-- A driver that takes every command and gives out session 1. -/
def sessionOne : Env := { drv := fun _ p => ⟨0, 0, { p with sessionIdx := 1 }, {}⟩ }

/-- A driver that gives out session 2. -/
def sessionTwo : Env := { drv := fun _ p => ⟨0, 0, { p with sessionIdx := 2 }, {}⟩ }

/-- Node 0, with an endpoint on port 5. -/
def onePort : Database := (Call.endpointCreate 5).after sessionOne (initialised 0 0 none)

theorem onePort_live : Live onePort := Live.after ⟨0, 0, none, .refl _⟩ _ _

theorem Live.iterate (h : Live db) (E : Env) (c : Call) (n : Nat) : Live ((c.after E)^[n] db) := by
  induction n with
  | zero => exact h
  | succ n ih => rw [Function.iterate_succ_apply']; exact ih.after E c

/-- A driver that has nothing yet: every command gets EAGAIN. -/
def notYet : Env := { drv := fun _ p => ⟨-1, eagain, p, {}⟩ }

/-- Node 0, which has asked `n` times for an endpoint of another node. -/
def asked (n : Nat) : Database := ((Call.endpointGetI 0 7 5 4096 (some 0)).after notYet)^[n] (initialised 0 0 none)

theorem asked_live (n : Nat) : Live (asked n) := Live.iterate ⟨0, 0, none, .refl _⟩ _ _ n

/-- Each question keeps a slot, until there are none. -/
theorem asked_full : (reserved (asked maxRequests)).card = maxRequests :=
  (asked_live _).inv.head_none_iff.mp (by decide +kernel)

end Mcapi
