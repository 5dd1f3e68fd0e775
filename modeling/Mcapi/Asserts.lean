/-
  Mcapi.Asserts — the library built without its assertions (`NDEBUG`).

  An `assert` is then gone with its argument, and in many the argument does the work:
  `assert(mcapi_trans_decode_handle_internal(...))` decodes the handle, and
  `assert(mcapi_trans_get_node_num(...))` reads the node number. Without it the call goes
  on with what its locals happened to hold. The checks of the interface layer decode
  without an assertion, and find the same in both builds.

  A call that decodes a handle (`Decodes`) works without assertions on whatever endpoint
  its locals name: if there is one, it gives a command or returns something else than if
  there is none (`ByName`), and some names lead nowhere (`nowhere`). A create that returns
  has used the node number. So every call of a run returns in both builds, and looks the
  same, exactly when each returns in the build with assertions, none is a create, and
  those that decode find no endpoint under any name (`ndebug_same_iff`); a get, with its
  uninitialised local, must be clean as well. The sends, receives and deletes that do
  their work are none of these.
-/

import Mcapi.Lib.Ends
import Mcapi.Unset
import Mathlib.Data.Fintype.Pigeonhole

namespace Mcapi

open Outcome (Ends)

variable {db : Database} {drv : Cmd → SmPacket → Reply} {l l' : Locals}

/-! ## The two builds -/

/-- The build with `NDEBUG`. -/
def Build.ndebug : Build := ⟨false, .error .outOfBounds⟩

/-- One call of a run, in either build. The functions a call goes through find the same in
    their locals of one name; two of them decode in a delete only, and no delete that gets
    so far is the same in both builds. -/
def Input.runIn (B : Build) (locals : Locals) (db : Database) (i : Input) : Res (Ret × World) :=
  i.call.exec B ⟨i.drv, locals⟩ { db := db, errno := i.errno, fl := i.fl }

def outcomesIn (B : Build) (db : Database) (is : List Input) (locals : Nat → Locals) : List (Res (Ret × World)) :=
  Hidden.outputs (Input.runIn B) (fun x => x.2.db) db is locals

/-- What the caller and the driver see of a call, and the database it leaves. -/
structure Seen where
  ret : Ret
  commands : List Command
  stores : List (U32 × U32)
  db : Database

def seen (x : Ret × World) : Seen := ⟨x.1, commands x.2.trace, stores x.2.trace, x.2.db⟩

@[simp] theorem ndebug_asserts : Build.ndebug.asserts = false := rfl
@[simp] theorem assertDecode_ndebug (locals : Decoded) (handle : U32) :
    assertDecode .ndebug locals handle = locals := rfl

/-! ## Names -/

/-- What the lookup of a name finds, in both builds. -/
def lookupName (db : Database) (name : Decoded) : Res (Option Slot) :=
  transGetPortIndex .std db (name.nodeId.setWidth 32) (name.portId.setWidth 32)

theorem ndebug_portIndex (n p : U32) : transGetPortIndex .ndebug db n p = transGetPortIndex .std db n p := rfl

/-- No name leads to an endpoint. -/
def NoName (db : Database) : Prop := ∀ name, lookupName db name = .ok none

/-- A valid request that is looked up by its handle. -/
def Named (db : Database) (r : Req) : Prop := (db.requests r).valid = true ∧ (db.requests r).type ≠ .getEndpt

/-- The call gets as far as decoding a handle under an assertion. -/
def Input.Decodes (db : Database) (i : Input) : Prop :=
  match i.call with
  | .endpointDelete e => transValidEndpoint .std db e = .ok true
  | .msgSendI _ _ _ _ _ q => q ≠ none ∧ db.requestReservesHeader.emptyHeadIndex ≠ none
  | .msgSend s r _ n p => sendChecks .std db s r n p = .ok .success
  | .msgRecvI _ _ _ q => q ≠ none ∧ db.requestReservesHeader.emptyHeadIndex ≠ none
  | .msgRecv e b _ _ => recvChecks .std db e b = .ok .success
  | .msgAvailable e => transValidEndpoint .std db e = .ok true
  | .test v size => size ≠ none ∧
    ∃ r, v = handleOf r ∧ Named db r ∧ (db.requests r).cancelled = false ∧ (db.requests r).completed = false
  | .wait v size _ => size ≠ none ∧ ∃ r, v = handleOf r ∧ Named db r
  | _ => False

/-- It works on no other local: it is no create, which takes its node number from one, and
    if it is a get it reads none that is not set. -/
def Input.Settled (db : Database) (i : Input) : Prop :=
  match i.call with
  | .endpointCreate _ => False
  | .endpointGet _ _ _ _ => i.Unread db
  | _ => True

/-- The call returns, and needs no assertion. -/
structure Input.Plain (db : Database) (i : Input) : Prop where
  returns : i.Returns db
  settled : i.Settled db
  unnamed : i.Decodes db → NoName db

/-- Every call of the run does so where it is made. -/
def PlainRun (db : Database) (is : List Input) (locals : Nat → Locals) : Prop :=
  Hidden.During (Input.runIn .std) (fun x => x.2.db) (fun db i => i.Plain db) db is locals

/-- Where no endpoint is valid and no count is past the table, no name leads anywhere. -/
theorem noName_of_empty (hvalid : ∀ i k, (((db.domains 0).nodes i).endpoints k).valid = false)
    (hcount : ∀ i, ((db.domains 0).nodes i).numEndpoints.toNat ≤ maxEndpoints) : NoName db := by
  intro name
  refine Tables.foldlM_skip (fun i _ b => ?_) none
  have hscan (p : U32) : scanPorts .std ((db.domains 0).nodes i) p = .ok none := by
    rw [scan_within (hcount i), List.find?_eq_none.mpr]
    intro k _
    simp [portMatches, hvalid i k]
  rw [hscan, ok_bind, ite_self]

theorem NoName.not_overruns (h : NoName db) (e : U32) : ¬ Overruns db (nodeOf e) (portOf e) :=
  Mcapi.not_overruns (h (transDecodeHandleInternal e))

theorem NoName.not_checkOverruns (h : NoName db) (e : U32) : ¬ CheckOverruns db e := by
  intro ho
  refine h.not_overruns e ?_
  rw [ho.1]
  exact ho.2

/-- There are more names than nodes. -/
theorem absent_node (db : Database) : ∃ n : U16, ∀ i, ((db.domains 0).nodes i).nodeNum ≠ n.setWidth 32 := by
  by_contra hno
  push Not at hno
  choose node hnode using hno
  have hdistinct : ∀ a b : Fin 3, a ≠ b →
      (BitVec.ofNat 16 b.val).setWidth 32 ≠ ((BitVec.ofNat 16 a.val).setWidth 32 : U32) := by decide
  obtain ⟨a, b, hab, heq⟩ := Fintype.exists_ne_map_eq_of_card_lt
    (fun a : Fin 3 => node (BitVec.ofNat 16 a.val)) (by decide)
  have hnum := hnode (BitVec.ofNat 16 a.val)
  rw [heq, hnode (BitVec.ofNat 16 b.val)] at hnum
  exact hdistinct a b hab hnum

/-- So some name is that of no node, and leads nowhere. -/
theorem nowhere (db : Database) : ∃ name : Decoded, lookupName db name = .ok none ∧
    transGetNodeIndex .ndebug db (name.nodeId.setWidth 32) = .ok none := by
  obtain ⟨n, hn⟩ := absent_node db
  refine ⟨⟨0, n, 0⟩, portIndex_absent fun j _ => hn j, ?_⟩
  unfold transGetNodeIndex
  split
  · rename_i i hi
    have hfound := (Tables.find_eq_some_iff.mp hi).1
    simp only [Bool.and_eq_true, beq_iff_eq] at hfound
    exact absurd hfound.2 (hn i)
  · rfl

/-- Where a name leads, its node has an index. -/
theorem found_index {name : Decoded} {k : Slot} (h : lookupName db name = .ok (some k)) :
    ∃ i, transGetNodeIndex .ndebug db (name.nodeId.setWidth 32) = .ok (some i) := by
  cases hi : (List.finRange maxNodes).find? fun i =>
      i.val < (db.domains 0).numNodes.toNat && ((db.domains 0).nodes i).nodeNum == name.nodeId.setWidth 32 with
  | some i => exact ⟨i, by simp only [transGetNodeIndex, hi]⟩
  | none =>
    have hno := List.find?_eq_none.mp hi
    have habsent : lookupName db name = .ok none := by
      refine portIndex_absent fun j hj hn => hno j (List.mem_finRange j) ?_
      simp [hj, hn]
    cases h.symm.trans habsent

/-! ## Calls that work on a name -/

/-- Without assertions the call looks like `x` exactly if the name in its locals leads
    nowhere; with them it does so if no name leads anywhere. -/
structure ByName (db : Database) (i : Input) (name : Locals → Decoded) (x : Seen) : Prop where
  ndebug : ∀ l, (i.runIn .ndebug l db).map seen = .ok x ↔ lookupName db (name l) = .ok none
  std : NoName db → ∀ l, (i.runIn .std l db).map seen = .ok x

/-- Then the builds are the same exactly if no name leads anywhere. -/
theorem ByName.same_iff {i : Input} {name : Locals → Decoded} {x : Seen} (h : ByName db i name x)
    (hname : Function.Surjective name) (l : Locals) :
    (∀ l', (i.runIn .ndebug l' db).map seen = (i.runIn .std l db).map seen) ↔ NoName db := by
  constructor
  · intro hsame n
    obtain ⟨away, haway, -⟩ := nowhere db
    obtain ⟨l0, rfl⟩ := hname away
    obtain ⟨l', rfl⟩ := hname n
    have hx : (i.runIn .std l db).map seen = .ok x := (hsame l0).symm.trans ((h.ndebug l0).mpr haway)
    exact (h.ndebug l').mp ((hsame l').trans hx)
  · intro hno l'
    rw [(h.ndebug l').mpr (hno (name l')), h.std hno l]

section
variable {i : Input} {name : Locals → Decoded} {x : Seen}

/-- A call that does what it does after one lookup. -/
theorem looksLike_iff {m : Res (Option Slot)} {f : Option Slot → Res (Ret × World)}
    (hnone : m = .ok none → (f none).map seen = .ok x)
    (hsome : ∀ k, m = .ok (some k) → ∀ y, f (some k) = .ok y → seen y ≠ x) :
    (m >>= f).map seen = .ok x ↔ m = .ok none := by
  cases m with
  | error e => exact iff_of_false (by intro h; cases h) (by intro h; cases h)
  | ok o =>
    cases o with
    | none => exact iff_of_true (hnone rfl) rfl
    | some k =>
      refine iff_of_false (fun h => ?_) (by intro h; cases h)
      rw [ok_bind] at h
      cases hy : f (some k) with
      | error e =>
        rw [hy] at h
        cases h
      | ok y =>
        rw [hy] at h
        exact hsome k rfl y hy (Except.ok.inj h)

/-- A call does not look like one that returns something else. -/
theorem unlike {m : Res (Ret × World)} (h : Ends (fun r _ => r ≠ x.ret) m) : ∀ y, m = .ok y → seen y ≠ x := by
  rintro ⟨r, w⟩ hy rfl
  exact h r w hy rfl

theorem NoName.not_valid (h : NoName db) (e : U32) : transValidEndpoint .std db e ≠ .ok true := by
  intro hv
  obtain ⟨-, k, hk, -⟩ := validEndpoint_true hv
  cases (h _).symm.trans hk

theorem msgSend_byName {s r b n p : U32} (hc : i.call = .msgSend s r b n p)
    (hok : sendChecks .std db s r n p = .ok .success) :
    ByName db i Locals.send ⟨.status .errEndpInvalid, [], [], db⟩ := by
  refine ⟨fun l => ?_, fun hno => absurd (sendChecks_valid hok) (hno.not_valid s)⟩
  have hchecks : sendChecks .ndebug db s r n p = .ok .success := hok
  simp only [Input.runIn, hc, Call.exec, msgSend, hchecks, ok_bind, ne_eq, not_true_eq_false, if_false, transMsgSend,
    assertDecode_ndebug, bind_assoc]
  refine looksLike_iff (fun _ => rfl) fun k _ => unlike (.andThen (P := fun st _ => st ≠ .errEndpInvalid) ?_ ?_)
  · exact .ite (.ok (ite_ne (by decide) (by decide))) (.ok (by decide))
  · intro st w hst
    exact .ok (mt Ret.status.inj hst)

theorem msgRecv_byName {e b n m : U32} (hc : i.call = .msgRecv e b n m)
    (hok : recvChecks .std db e b = .ok .success) :
    ByName db i Locals.recv ⟨.value m .errEndpInvalid, [], [], db⟩ := by
  refine ⟨fun l => ?_, fun hno => absurd (recvChecks_valid hok) (hno.not_valid e)⟩
  have hchecks : recvChecks .ndebug db e b = .ok .success := hok
  simp only [Input.runIn, hc, Call.exec, msgRecv, hchecks, ok_bind, ne_eq, not_true_eq_false, if_false, transMsgRecv,
    assertDecode_ndebug, bind_assoc]
  refine looksLike_iff (fun _ => rfl) fun k _ => unlike (.andThen (P := fun x _ => x.1 ≠ .errEndpInvalid) ?_ ?_)
  · refine .ite (.ok (ite_ne (by decide) (by decide))) (.ok ?_)
    intro he
    cases he
  · rintro ⟨st, len⟩ w hst
    cases len with
    | none => exact .ok fun he => hst (Ret.value.inj he).2
    | some len =>
      dsimp only
      split
      · exact .ok fun he => by cases he
      · exact .ok fun he => hst (Ret.value.inj he).2

theorem msgAvailable_byName {e : U32} (hc : i.call = .msgAvailable e)
    (hv : transValidEndpoint .std db e = .ok true) :
    ByName db i Locals.recv ⟨.value 0 .errEndpInvalid, [], [], db⟩ := by
  refine ⟨fun l => ?_, fun hno => absurd hv (hno.not_valid e)⟩
  have hvalid : transValidEndpoint .ndebug db e = .ok true := hv
  simp only [Input.runIn, hc, Call.exec, msgAvailable, hvalid, ok_bind, Bool.not_true, Bool.false_eq_true, if_false,
    transMsgAvailable, ndebug_asserts, Bool.false_and, assertDecode_ndebug, bind_assoc]
  refine looksLike_iff (fun _ => rfl) fun k _ => unlike (.andThen (P := fun x _ => x.2 ≠ .errEndpInvalid) ?_ ?_)
  · exact .ite (.ok fun he => by cases he) (.ok fun he => by cases he)
  · rintro ⟨n, st⟩ w hst
    exact .ok fun he => hst (Ret.value.inj he).2

theorem msgSendI_byName {s r b n p v : U32} {id : Req} {st : Status} (hc : i.call = .msgSendI s r b n p (some v))
    (hid : db.requestReservesHeader.emptyHeadIndex = some id) (hst : sendChecks .std db s r n p = .ok st) :
    ByName db i Locals.send ⟨.issue ⟨some (handleOf id), .errEndpInvalid⟩, [], [], db.take id⟩ := by
  have hchecks : sendChecks .ndebug db s r n p = .ok st := hst
  refine ⟨fun l => ?_, fun hno l => ?_⟩
  · simp only [Input.runIn, hc, Call.exec, msgSendI, hchecks, ok_bind, transMsgSendI, transReserveRequest, hid,
      assignRequest, assertDecode_ndebug, bind_assoc]
    refine looksLike_iff (fun _ => rfl) fun k _ => unlike (.ok fun he => ?_)
    have hne (a b : Int) : issueStatus a b ≠ .errEndpInvalid := issueStatus_ne (by decide) (by decide) (by decide) a b
    exact hne _ _ (congrArg Issue.status (Ret.issue.inj he))
  · have hl : lookup db s = .ok none := hno _
    simp only [Input.runIn, hc, Call.exec, msgSendI, hst, ok_bind,
      transMsgSendI_some (w := ⟨db, i.errno, i.fl, []⟩) hid, hl]
    rfl

theorem msgRecvI_byName {e b n v : U32} {id : Req} {st : Status} (hc : i.call = .msgRecvI e b n (some v))
    (hid : db.requestReservesHeader.emptyHeadIndex = some id) (hst : recvChecks .std db e b = .ok st) :
    ByName db i Locals.recv ⟨.issue ⟨some (handleOf id), .errEndpInvalid⟩, [], [], db.take id⟩ := by
  have hchecks : recvChecks .ndebug db e b = .ok st := hst
  refine ⟨fun l => ?_, fun hno l => ?_⟩
  · simp only [Input.runIn, hc, Call.exec, msgRecvI, Option.isNone_some, Bool.false_eq_true, if_false, hchecks, ok_bind,
      transMsgRecvI, transReserveRequest, hid, assignRequest, assertDecode_ndebug, bind_assoc]
    refine looksLike_iff (fun _ => rfl) fun k _ => unlike (.ok fun he => ?_)
    have hne (a b : Int) : issueStatus a b ≠ .errEndpInvalid := issueStatus_ne (by decide) (by decide) (by decide) a b
    exact hne _ _ (congrArg Issue.status (Ret.issue.inj he))
  · have hl : lookup db e = .ok none := hno _
    simp only [Input.runIn, hc, Call.exec, msgRecvI, Option.isNone_some, Bool.false_eq_true, if_false, hst, ok_bind,
      transMsgRecvI_some (w := ⟨db, i.errno, i.fl, []⟩) hid, hl]
    rfl

theorem transEndpointDelete_absent {w : World} {e : U32} (hl : lookupName w.db l.send = .ok none) :
    transEndpointDelete .ndebug ⟨drv, l⟩ w e = .ok w := by
  unfold lookupName at hl
  simp only [transEndpointDelete, assertDecode_ndebug, ndebug_portIndex, hl, ok_bind]
  cases hn : transGetNodeIndex .ndebug w.db (l.send.nodeId.setWidth 32) with
  | error f =>
    unfold transGetNodeIndex at hn
    split at hn
    · cases hn
    · cases hn
  | ok o => cases o <;> rfl

theorem transEndpointDelete_found {w : World} {e : U32} {k : Slot} (hl : lookupName w.db l.send = .ok (some k)) :
    ∃ w', transEndpointDelete .ndebug ⟨drv, l⟩ w e = .ok w' ∧ commands w'.trace ≠ [] := by
  obtain ⟨i, hi⟩ := found_index hl
  unfold lookupName at hl
  simp only [transEndpointDelete, assertDecode_ndebug, ndebug_portIndex, hl, hi, ok_bind]
  exact ⟨_, rfl, by simp [smDestroySession]⟩

theorem endpointDelete_byName {e : U32} (hc : i.call = .endpointDelete e)
    (hv : transValidEndpoint .std db e = .ok true) : ByName db i Locals.send ⟨.status .success, [], [], db⟩ := by
  refine ⟨fun l => ?_, fun hno => absurd hv (hno.not_valid e)⟩
  have hvalid : transValidEndpoint .ndebug db e = .ok true := hv
  simp only [Input.runIn, hc, Call.exec, endpointDelete, hvalid, ok_bind, Bool.not_true, Bool.false_eq_true, if_false,
    transEndpointIsowner, transEndpointChannelIsopen, assertDecode_ndebug, bind_assoc]
  refine looksLike_iff (fun hl => ?_) fun k hl => ?_
  · have hdelete : transEndpointDelete .ndebug ⟨i.drv, l⟩ ⟨db, i.errno, i.fl, []⟩ e = .ok _ :=
      transEndpointDelete_absent hl
    simp only [ok_bind, Bool.false_eq_true, if_false, hdelete]
    rfl
  · rintro ⟨x, w⟩ hy
    simp only [ok_bind] at hy
    by_cases ho : (db.node0.endpoints k).isOpen = true
    · simp only [ho, if_true] at hy
      cases hy
      intro he
      cases congrArg Seen.ret he
    · obtain ⟨w', hdelete, hgiven⟩ : ∃ w', transEndpointDelete .ndebug ⟨i.drv, l⟩ ⟨db, i.errno, i.fl, []⟩ e = .ok w' ∧
          commands w'.trace ≠ [] := transEndpointDelete_found hl
      simp only [ho, hdelete] at hy
      cases hy
      exact fun he => hgiven (congrArg Seen.commands he)

/-! ### Completions -/

/-- Without its endpoint a completion stops at the lookup. -/
theorem completionTarget_absent (hno : NoName db) {r : Req} (hr : Named db r) (E : Env) :
    completionTarget .std E db (db.requests r) = .ok none := by
  have hl : transGetPortIndex .std db _ _ = .ok none := hno (transDecodeHandleInternal (db.requests r).handle)
  simp only [completionTarget, hr.2, ne_eq, not_false_eq_true, if_true, assertDecode_std, hl, ok_bind]

theorem test_byName {n : U32} {r : Req} (hc : i.call = .test (handleOf r) (some n)) (hr : Named db r)
    (hcancel : (db.requests r).cancelled = false) (hdone : (db.requests r).completed = false) :
    ByName db i Locals.send ⟨.done ⟨false, some n, .errNodeNotinit⟩, [], [], db⟩ := by
  have hrun (B : Build) (l : Locals) : i.runIn B l db = (do
      let x ← transTestI B ⟨i.drv, l⟩ { db := db, errno := i.errno, fl := i.fl } (handleOf r) (some n)
      .ok (.done x.1, x.2)) := by
    simp only [Input.runIn, hc, Call.exec, test, transValidSizeParam, Option.isSome_some, Bool.not_true,
      Bool.false_eq_true, if_false, validRequestHandle_handleOf, hr.1]
  refine ⟨fun l => ?_, fun hno l => ?_⟩
  · simp only [hrun, transTestI, ndebug_asserts, Bool.false_and, Bool.false_eq_true, if_false, requestSlot_handleOf,
      ok_bind, hr.1, Bool.not_true, hcancel, hdone, completionTarget, hr.2, ne_eq, not_false_eq_true, if_true,
      assertDecode_ndebug, bind_assoc]
    refine looksLike_iff (fun _ => rfl) fun k _ => unlike ?_
    refine .andThen (P := fun d _ => d.status ≠ .errNodeNotinit) ?_ ?_
    · dsimp only
      exact .ite (.ok (ite_ne (by decide) (by decide))) (.ok fun he => by cases he)
    · intro d w hd
      exact .ok fun he => hd (congrArg Done.status (Ret.done.inj he))
  · simp only [hrun, transTestI, std_asserts, Bool.true_and, validRequestHandle_handleOf, requestSlot_handleOf, ok_bind,
      hr.1, Bool.not_true, Bool.false_eq_true, if_false, hcancel, hdone, completionTarget_absent hno hr]
    rfl

theorem wait_byName {n t : U32} {r : Req} (hc : i.call = .wait (handleOf r) (some n) t) (hr : Named db r) :
    ByName db i Locals.send ⟨.done ⟨false, some n, .errNodeNotinit⟩, [], [], db⟩ := by
  have hrun (B : Build) (l : Locals) : i.runIn B l db = (do
      let x ← transWait B ⟨i.drv, l⟩ { db := db, errno := i.errno, fl := i.fl } (handleOf r) (some n) t
      .ok (.done x.1, x.2)) := by
    simp only [Input.runIn, hc, Call.exec, wait, transValidSizeParam, Option.isSome_some, Bool.not_true,
      Bool.false_eq_true, if_false, validRequestHandle_handleOf, hr.1]
  refine ⟨fun l => ?_, fun hno l => ?_⟩
  · simp only [hrun, transWait, ndebug_asserts, Bool.false_and, Bool.false_eq_true, if_false, requestSlot_handleOf,
      ok_bind, completionTarget, hr.2, ne_eq, not_false_eq_true, if_true, assertDecode_ndebug, bind_assoc]
    refine looksLike_iff (fun _ => rfl) fun k _ => unlike ?_
    refine .andThen (P := fun d _ => d.status ≠ .errNodeNotinit) ?_ ?_
    · dsimp only
      refine .ite (.bind fun w _ => .ok fun he => by cases he) (.ite (.bind fun w _ => .ok ?_) ?_)
      · exact ite_ne (by decide) (by decide)
      · exact .bind fun w _ => .ok fun he => by cases he
    · intro d w hd
      exact .ok fun he => hd (congrArg Done.status (Ret.done.inj he))
  · simp only [hrun, transWait, std_asserts, Bool.true_and, validRequestHandle_handleOf, requestSlot_handleOf, ok_bind,
      hr.1, Bool.not_true, Bool.false_eq_true, if_false, completionTarget_absent hno hr]
    rfl

/-! ## Creates and gets -/

/-- A create without its assertions gets nowhere if the node number in its locals is that
    of no node. -/
theorem transEndpointCreate_ndebug {w : World} {p : U32} (v : U32) (a : Bool)
    (hmsb : (drv .create (createPkt p)).pkt.sessionIdx.msb = false)
    (haway : transGetNodeIndex .ndebug w.db l.nodeNum = .ok none) :
    transEndpointCreate .ndebug ⟨drv, l⟩ w v p a = .error .outOfBounds := by
  unfold createPkt at hmsb
  simp only [transEndpointCreate, smCreateSession, ioctl_reply, hmsb, ioctl_db, ndebug_asserts, Bool.false_eq_true,
    if_false, haway, ok_bind]

/-! ## One call -/

theorem send_surjective : Function.Surjective Locals.send := fun name => ⟨{ send := name }, rfl⟩
theorem recv_surjective : Function.Surjective Locals.recv := fun name => ⟨{ recv := name }, rfl⟩

/-- A call that decodes works on the name it finds. -/
theorem Input.Decodes.byName (h : i.Decodes db) (hret : i.Returns db) :
    ∃ name x, Function.Surjective name ∧ ByName db i name x := by
  unfold Input.Decodes at h
  split at h
  · rename_i e hc
    exact ⟨_, _, send_surjective, endpointDelete_byName hc h⟩
  · rename_i s r b n p q hc
    obtain ⟨v, rfl⟩ := Option.ne_none_iff_exists'.mp h.1
    obtain ⟨id, hid⟩ := Option.ne_none_iff_exists'.mp h.2
    simp only [Input.Returns, hc] at hret
    obtain ⟨st, hst⟩ := Outcome.not_fails_iff.mp (mt sendChecks_fails.mp (not_or.mp hret).1)
    exact ⟨_, _, send_surjective, msgSendI_byName hc hid hst⟩
  · rename_i s r b n p hc
    exact ⟨_, _, send_surjective, msgSend_byName hc h⟩
  · rename_i e b n q hc
    obtain ⟨v, rfl⟩ := Option.ne_none_iff_exists'.mp h.1
    obtain ⟨id, hid⟩ := Option.ne_none_iff_exists'.mp h.2
    simp only [Input.Returns, hc] at hret
    obtain ⟨st, hst⟩ := Outcome.not_fails_iff.mp fun hf => hret ⟨h.1, .inl (recvChecks_fails.mp hf)⟩
    exact ⟨_, _, recv_surjective, msgRecvI_byName hc hid hst⟩
  · rename_i e b n m hc
    exact ⟨_, _, recv_surjective, msgRecv_byName hc h⟩
  · rename_i e hc
    exact ⟨_, _, recv_surjective, msgAvailable_byName hc h⟩
  · rename_i v size hc
    obtain ⟨hsize, r, rfl, hr, hcancel, hdone⟩ := h
    obtain ⟨n, rfl⟩ := Option.ne_none_iff_exists'.mp hsize
    exact ⟨_, _, send_surjective, test_byName hc hr hcancel hdone⟩
  · rename_i v size t hc
    obtain ⟨hsize, r, rfl, hr⟩ := h
    obtain ⟨n, rfl⟩ := Option.ne_none_iff_exists'.mp hsize
    exact ⟨_, _, send_surjective, wait_byName hc hr⟩
  · cases h

theorem create_run {p : U32} (hc : i.call = .endpointCreate p) (hv : (db.domains 0).valid = true) (B : Build)
    (l : Locals) : i.runIn B l db = (do
      let ((rc, e), w) ← transEndpointCreate B ⟨i.drv, l⟩ ⟨db, i.errno, i.fl, []⟩ l.e p false
      .ok (.value e (if rc then .success else .errEndpNoports), w)) := by
  rw [Input.runIn, hc, Call.exec, endpointCreate_valid (w := ⟨db, i.errno, i.fl, []⟩) hv, bind_assoc]
  rfl

/-- A create whose session is a slot does not return without its assertions if its node
    number is that of no node. -/
theorem create_differs {p : U32} {k : Slot} (hc : i.call = .endpointCreate p) (hv : (db.domains 0).valid = true)
    (hk : slotOf (i.drv .create (createPkt p)).pkt.sessionIdx = .ok k) :
    ∃ l' f, i.runIn .ndebug l' db = .error f := by
  obtain ⟨away, -, haway⟩ := nowhere db
  refine ⟨{ nodeNum := away.nodeId.setWidth 32 }, .outOfBounds, ?_⟩
  rw [create_run hc hv .ndebug, transEndpointCreate_ndebug 0 false (slotOf_msb hk) haway]
  rfl

/-- What follows a check that does not pass is the same if each refusal is. -/
theorem checked_same {C : Type} {m m' : Res C} {pass : C} {f g : C → Res (Ret × World)} (hsame : m' = m)
    (hm : m ≠ .ok pass) (h : ∀ c, c ≠ pass → f c = g c) : m' >>= f = m >>= g := by
  subst hsame
  cases hx : m' with
  | error e => rfl
  | ok c => exact h c fun he => hm (he ▸ hx)

theorem delete_same {e : U32} (hc : i.call = .endpointDelete e) (hv : transValidEndpoint .std db e ≠ .ok true) :
    i.runIn .ndebug l' db = i.runIn .std l db := by
  simp only [Input.runIn, hc, Call.exec, endpointDelete, bind_assoc]
  refine checked_same rfl hv fun v hne => ?_
  rw [(Bool.not_eq_true v).mp hne]
  rfl

theorem available_same {e : U32} (hc : i.call = .msgAvailable e) (hv : transValidEndpoint .std db e ≠ .ok true) :
    i.runIn .ndebug l' db = i.runIn .std l db := by
  simp only [Input.runIn, hc, Call.exec, msgAvailable, bind_assoc]
  refine checked_same rfl hv fun v hne => ?_
  rw [(Bool.not_eq_true v).mp hne]
  rfl

theorem send_same {s r b n p : U32} (hc : i.call = .msgSend s r b n p)
    (hst : sendChecks .std db s r n p ≠ .ok .success) : i.runIn .ndebug l' db = i.runIn .std l db := by
  simp only [Input.runIn, hc, Call.exec, msgSend, bind_assoc]
  refine checked_same rfl hst fun st hne => ?_
  rw [if_pos hne, if_pos hne]

theorem recv_same {e b n m : U32} (hc : i.call = .msgRecv e b n m)
    (hst : recvChecks .std db e b ≠ .ok .success) : i.runIn .ndebug l' db = i.runIn .std l db := by
  simp only [Input.runIn, hc, Call.exec, msgRecv, bind_assoc]
  refine checked_same rfl hst fun st hne => ?_
  rw [if_pos hne, if_pos hne]

theorem sendI_same {s r b n p : U32} {q : Option U32} (hc : i.call = .msgSendI s r b n p q)
    (hd : ¬ (q ≠ none ∧ db.requestReservesHeader.emptyHeadIndex ≠ none)) :
    i.runIn .ndebug l' db = i.runIn .std l db := by
  have heq : sendChecks .ndebug db s r n p = sendChecks .std db s r n p := rfl
  simp only [Input.runIn, hc, Call.exec, msgSendI, heq]
  cases hx : sendChecks .std db s r n p with
  | error f => rfl
  | ok st =>
    simp only [ok_bind, transMsgSendI, transReserveRequest]
    cases hid : db.requestReservesHeader.emptyHeadIndex with
    | none => rfl
    | some id =>
      cases q with
      | none => rfl
      | some v => exact absurd ⟨by simp, by simp [hid]⟩ hd

theorem recvI_same {e b n : U32} {q : Option U32} (hc : i.call = .msgRecvI e b n q)
    (hd : ¬ (q ≠ none ∧ db.requestReservesHeader.emptyHeadIndex ≠ none)) :
    i.runIn .ndebug l' db = i.runIn .std l db := by
  have heq : recvChecks .ndebug db e b = recvChecks .std db e b := rfl
  simp only [Input.runIn, hc, Call.exec, msgRecvI, heq]
  cases q with
  | none => rfl
  | some v =>
    cases hx : recvChecks .std db e b with
    | error f => rfl
    | ok st =>
      simp only [ok_bind, transMsgRecvI, transReserveRequest]
      cases hid : db.requestReservesHeader.emptyHeadIndex with
      | none => rfl
      | some id => exact absurd ⟨by simp, by simp [hid]⟩ hd

/-- A completion that decodes nothing is aimed at the same target. -/
theorem completionTarget_query {r : Req} (ht : (db.requests r).type = .getEndpt) (l l' : Locals) :
    completionTarget .ndebug ⟨drv, l'⟩ db (db.requests r) = completionTarget .std ⟨drv, l⟩ db (db.requests r) := by
  simp only [completionTarget, ht, ne_eq, not_true_eq_false, if_false]

theorem test_same {v : U32} {size : Option U32} (hc : i.call = .test v size)
    (hd : ¬ (size ≠ none ∧ ∃ r, v = handleOf r ∧ Named db r ∧ (db.requests r).cancelled = false ∧
      (db.requests r).completed = false)) :
    i.runIn .ndebug l' db = i.runIn .std l db := by
  simp only [Input.runIn, hc, Call.exec, test]
  cases size with
  | none => rfl
  | some n =>
    rcases handle_cases db v with hv | ⟨hv, f, hf⟩ | ⟨r, rfl, hr⟩
    · simp only [hv]
      rfl
    · simp only [transTestI, hv, hf]
      rfl
    · simp only [transTestI, validRequestHandle_handleOf, requestSlot_handleOf, ok_bind, hr]
      cases hcancel : (db.requests r).cancelled with
      | true => rfl
      | false =>
        cases hdone : (db.requests r).completed with
        | true => rfl
        | false =>
          have ht : (db.requests r).type = .getEndpt := by
            by_contra ht
            exact hd ⟨by simp, r, rfl, ⟨hr, ht⟩, hcancel, hdone⟩
          rw [completionTarget_query ht l l']
          rfl

/-- Nor does the removal of a valid request need its assertion. -/
theorem dropRequest_same {w : World} {r : Req} (hr : (w.db.requests r).valid = true) :
    dropRequest .ndebug w (handleOf r) = dropRequest .std w (handleOf r) := by
  rw [dropRequest, dropRequest, remove_valid _ hr, remove_valid _ hr]

theorem transWait_query {w : World} {r : Req} (hvalid : (w.db.requests r).valid = true)
    (ht : (w.db.requests r).type = .getEndpt) (size : Option U32) (t : U32) (l l' : Locals) :
    transWait .ndebug ⟨drv, l'⟩ w (handleOf r) size t = transWait .std ⟨drv, l⟩ w (handleOf r) size t := by
  have hdrop {w1 : World} (hw : w1.db = w.db) :
      dropRequest .ndebug w1 (handleOf r) = dropRequest .std w1 (handleOf r) :=
    dropRequest_same (by rw [hw]; exact hvalid)
  have hstore {w1 : World} (hw : w1.db = w.db) (a v : U32) (d : World → Done) :
      (do
        let w2 ← storeAt w1 a v
        let w3 ← dropRequest .ndebug w2 (handleOf r)
        .ok (d w3, w3) : Res (Done × World)) = (do
        let w2 ← storeAt w1 a v
        let w3 ← dropRequest .std w2 (handleOf r)
        .ok (d w3, w3)) := by
    cases hst : storeAt w1 a v with
    | error f => rfl
    | ok w2 =>
      have hw2 : w2.db = w.db := by rw [storeAt_eq_ok hst, hw]
      rw [ok_bind, ok_bind, hdrop hw2]
  have hdb (E : Env) (a b c d : U32) (n : Option U32) (y : RequestType) (p : U32) :
      (smWaitNonblocking E w a b c d n y p t true).2.2.db = w.db := by simp [smWaitNonblocking]
  simp only [transWait, std_asserts, ndebug_asserts, validRequestHandle_handleOf, hvalid, requestSlot_handleOf, ok_bind,
    completionTarget, ht, ne_eq, not_true_eq_false, if_false, Bool.not_true, Bool.and_false, Bool.false_eq_true,
    if_true, hdrop rfl, hdrop (hdb _ _ _ _ _ _ _ _), hstore (hdb _ _ _ _ _ _ _ _)]
  rfl

theorem wait_same {v t : U32} {size : Option U32} (hc : i.call = .wait v size t)
    (hd : ¬ (size ≠ none ∧ ∃ r, v = handleOf r ∧ Named db r)) :
    i.runIn .ndebug l' db = i.runIn .std l db := by
  simp only [Input.runIn, hc, Call.exec, wait]
  cases size with
  | none => rfl
  | some n =>
    rcases handle_cases db v with hv | ⟨hv, f, hf⟩ | ⟨r, rfl, hr⟩
    · simp only [hv]
      rfl
    · simp only [transWait, hv, hf]
      rfl
    · have ht : (db.requests r).type = .getEndpt := by
        by_contra ht
        exact hd ⟨by simp, r, rfl, hr, ht⟩
      rw [transWait_query (w := ⟨db, i.errno, i.fl, []⟩) hr ht (some n) t l l']

/-- A get has no assertion. -/
theorem get_same {d n p t : U32} (hc : i.call = .endpointGet d n p t) (l : Locals) :
    i.runIn .ndebug l db = i.run l db := by
  simp only [Input.runIn, Input.run, hc]
  rfl

/-- A call that decodes nothing, and lets no other local out, is the same. -/
theorem Input.Settled.same (hs : i.Settled db) (hd : ¬ i.Decodes db) (l l' : Locals) :
    i.runIn .ndebug l' db = i.runIn .std l db := by
  unfold Input.Settled at hs
  unfold Input.Decodes at hd
  cases hc : i.call with
  | endpointCreate p =>
    simp only [hc] at hs
  | endpointGet d n p t =>
    simp only [hc] at hs
    exact (get_same hc l').trans (Input.Unread.same (by simpa only [Input.Unread, hc] using hs) l' l)
  | endpointDelete e =>
    simp only [hc] at hd
    exact delete_same hc hd
  | msgSendI s r b n p q =>
    simp only [hc] at hd
    exact sendI_same hc hd
  | msgSend s r b n p =>
    simp only [hc] at hd
    exact send_same hc hd
  | msgRecvI e b n q =>
    simp only [hc] at hd
    exact recvI_same hc hd
  | msgRecv e b n m =>
    simp only [hc] at hd
    exact recv_same hc hd
  | msgAvailable e =>
    simp only [hc] at hd
    exact available_same hc hd
  | test v size =>
    simp only [hc] at hd
    exact test_same hc hd
  | wait v size t =>
    simp only [hc] at hd
    exact wait_same hc hd
  | _ =>
    simp only [Input.runIn, hc]
    rfl

/-- One that does let a local out differs for some contents of the locals. -/
theorem settled_of_same {y : Ret × World} (hy : i.runIn .std l db = .ok y)
    (hsame : ∀ l', ∃ y', i.runIn .ndebug l' db = .ok y' ∧ seen y' = seen y) : i.Settled db := by
  -- what is returned would be both contents of `e`
  have htells (hrun : ∀ l', ∃ st w, i.runIn .ndebug l' db = .ok (.value l'.e st, w)) : False := by
    have hret (l' : Locals) : ∃ st, y.1 = .value l'.e st := by
      obtain ⟨st, w, h⟩ := hrun l'
      obtain ⟨y', h', hseen⟩ := hsame l'
      cases h.symm.trans h'
      exact ⟨st, (congrArg Seen.ret hseen).symm⟩
    obtain ⟨st, h0⟩ := hret zeros
    obtain ⟨st', h1⟩ := hret ones
    cases h0.symm.trans h1
  unfold Input.Settled
  split
  · rename_i p hc
    have hv : (db.domains 0).valid = true := by
      by_contra hv
      refine htells fun l' => ⟨.errNodeNotinit, { db := db, errno := i.errno, fl := i.fl }, ?_⟩
      have hd : transGetDomainNum db = none := if_neg hv
      simp only [Input.runIn, hc, Call.exec, endpointCreate, domainIdGet, hd]
      rfl
    have hret : i.Returns db := (returns_iff l).mp ⟨y, hy⟩
    simp only [Input.Returns, hc] at hret
    obtain ⟨-, k, -, hk, -⟩ := hret hv
    obtain ⟨l', f, hf⟩ := create_differs hc hv hk
    obtain ⟨y', hy', -⟩ := hsame l'
    cases hf.symm.trans hy'
  · rename_i d n p t hc
    simp only [Input.Unread, hc]
    intro hk
    by_contra hret
    refine htells fun l' => ?_
    rw [get_same hc]
    exact get_unset hc hk hret l'
  · trivial

theorem map_seen_iff {m : Res (Ret × World)} {y : Ret × World} :
    m.map seen = .ok (seen y) ↔ ∃ y', m = .ok y' ∧ seen y' = seen y := by
  cases m with
  | error f => exact ⟨fun h => (by cases h), fun ⟨y', h, _⟩ => (by cases h)⟩
  | ok y' => exact ⟨fun h => ⟨y', rfl, Except.ok.inj h⟩, fun ⟨_, h, hseen⟩ => (by cases h; exact congrArg _ hseen)⟩

/-- A call returns in both builds, and looks the same, whatever the locals hold, exactly if
    it returns with assertions and needs none. -/
theorem call_same_iff (l : Locals) (db : Database) (i : Input) :
    Hidden.Matches (Input.runIn .std) (Input.runIn .ndebug) seen l db i ↔ i.Plain db := by
  constructor
  · intro h
    obtain ⟨y, hy, hsame⟩ := h
    have hret : i.Returns db := (returns_iff l).mp ⟨y, hy⟩
    refine ⟨hret, settled_of_same hy hsame, fun hd => ?_⟩
    obtain ⟨name, x, hname, hby⟩ := hd.byName hret
    refine (hby.same_iff hname l).mp fun l' => ?_
    rw [map_seen_iff.mpr (hsame l'), hy]
    rfl
  · intro h
    obtain ⟨y, hy⟩ := (returns_iff l).mpr h.returns
    refine ⟨y, hy, fun l' => map_seen_iff.mp ?_⟩
    have hsame : (i.runIn .ndebug l' db).map seen = (i.runIn .std l db).map seen := by
      by_cases hdec : i.Decodes db
      · obtain ⟨name, x, hname, hby⟩ := hdec.byName h.returns
        exact (hby.same_iff hname l).mpr (h.unnamed hdec) l'
      · rw [h.settled.same hdec l l']
    have hrun : i.runIn .std l db = .ok y := hy
    rw [hsame, hrun]
    rfl

end

/-! ## Runs -/

/-- In any run, from any database and with any driver, every call returns in both builds,
    with the same commands, results and databases whatever the locals of the one without
    assertions hold, exactly if every call of the run returns with assertions and needs
    none. -/
theorem ndebug_same_iff (db : Database) (is : List Input) (locals : Nat → Locals) :
    (∀ locals', Hidden.Alike seen (outcomesIn .ndebug db is locals') (outcomesIn .std db is locals)) ↔
      PlainRun db is locals :=
  Hidden.outputs_alike_iff (fun _ _ h => congrArg Seen.db h) call_same_iff

/-- A non-blocking send before there is any endpoint, and a blocking one. -/
def sendTwice : List Input :=
  [⟨.msgSendI (endpointHandle 0 5) (endpointHandle 1 6) 4096 8 0 (some 0), willing.drv, 0, 2⟩,
    ⟨.msgSend (endpointHandle 0 5) (endpointHandle 1 6) 4096 8 0, willing.drv, 0, 2⟩]

/-- Both are refused, in both builds. -/
theorem refused_sends_same : ∀ locals', Hidden.Alike seen (outcomesIn .ndebug (initialised 0 0 none) sendTwice locals')
    (outcomesIn .std (initialised 0 0 none) sendTwice fun _ => {}) := by
  have hempty : NoName (initialised 0 0 none) := noName_of_empty (by decide) (by decide)
  refine (ndebug_same_iff _ _ _).mpr ⟨⟨?_, trivial, fun _ => hempty⟩, fun o ho => ?_⟩
  · intro h
    rcases h with h | ⟨-, hq | h⟩
    · exact hempty.not_checkOverruns _ h
    · cases hq
    · exact hempty.not_overruns _ h
  · cases ho
    exact ⟨⟨hempty.not_checkOverruns _, trivial, fun hd => (by cases hd)⟩, fun _ _ => trivial⟩

def sendOnce : List Input :=
  [⟨.msgSend (endpointHandle 0 5) (endpointHandle 1 6) 4096 8 0, willing.drv, 0, 2⟩]

/-- With an endpoint on port 5, a send without assertions is refused, or goes to whatever
    endpoint its locals name. -/
theorem send_needs_assertion : ¬ ∀ db, Live db → ∀ is locals, .error .assertion ∉ outcomesIn .std db is locals →
    ∀ locals', (outcomesIn .ndebug db is locals').map (Except.map seen) =
      (outcomesIn .std db is locals).map (Except.map seen) := by
  intro h
  have hno : .error .assertion ∉ outcomesIn .std onePort sendOnce fun _ => {} := by
    have hrun : outcomesIn .std onePort sendOnce (fun _ => {}) = [.ok _] := rfl
    rw [hrun]
    simp
  have hsame := congrArg List.head? (h onePort onePort_live sendOnce (fun _ => {}) hno fun _ => {})
  cases congrArg Seen.ret (Except.ok.inj (Option.some.inj hsame))

end Mcapi
