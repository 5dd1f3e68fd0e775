/-
  Mcapi.RequestChecks — which handles `mcapi_test` and `mcapi_wait` accept.

  The check cuts a handle to 16 bits and looks at the record that these name; what
  follows indexes the request array with all 32. For a handle below 2^16 the two are the
  same: a valid one names one record, and the call neither reads nor writes any other
  (`Ignores`); every other one is refused. A larger handle that passes the check leads
  past the end of the array (`handle_checked_iff`, `handle_65536_unchecked`).
-/

import Mcapi.Processes

namespace Mcapi

variable {E : Env} {w w' : World} {db : Database}

/-! ## Ignoring a record -/

/-- The same world, but for request record `q`. -/
def World.setRequest (w : World) (q : Req) (d : RequestData) : World := { w with db := w.db.setRequest q d }

/-- The operation neither reads nor writes record `q`: it makes no difference to it what
    is there, nor to the record. -/
def Ignores {α : Type} (f : World → Res (α × World)) (q : Req) (w : World) : Prop :=
  ∀ d, f (w.setRequest q d) = (f w).map fun x => (x.1, x.2.setRequest q d)

section
variable {r q : Req} {d d' : RequestData}

theorem setRequest_comm (db : Database) (h : q ≠ r) :
    (db.setRequest q d).setRequest r d' = (db.setRequest r d').setRequest q d := by
  simp only [Database.setRequest, Function.update_comm h]

theorem World.setRequest_comm (h : q ≠ r) (w : World) :
    (w.setRequest q d).setRequest r d' = (w.setRequest r d').setRequest q d := by
  simp only [World.setRequest, Mcapi.setRequest_comm _ h]

theorem release_setRequest (db : Database) (h : q ≠ r) :
    (db.setRequest q d).release r = (db.release r).setRequest q d := by
  simp only [Database.release, Database.setRequest, Function.update_of_ne h.symm, Function.update_comm h]

theorem dropped_setRequest (db : Database) (h : q ≠ r) :
    dropped (db.setRequest q d) r = (dropped db r).setRequest q d := by
  unfold dropped
  rw [setRequest_header, release_setRequest db h]
  split <;> rfl

theorem setBlocking_setRequest (w : World) (b : Bool) :
    setBlocking (w.setRequest q d) b = (setBlocking w b).setRequest q d := by
  unfold setBlocking World.setRequest
  dsimp only
  split <;> rfl

theorem smWaitNonblocking_setRequest (w : World) (k e c p : U32) (n : Option U32) (t : RequestType) (y s : U32)
    (b : Bool) : smWaitNonblocking E (w.setRequest q d) k e c p n t y s b =
      ((smWaitNonblocking E w k e c p n t y s b).1, (smWaitNonblocking E w k e c p n t y s b).2.1,
        (smWaitNonblocking E w k e c p n t y s b).2.2.setRequest q d) := by
  unfold smWaitNonblocking
  dsimp only
  rw [setBlocking_setRequest]
  rfl

end

/-- A store through a caller's pointer goes the same way. -/
theorem storeAt_setRequest {q : Req} {d : RequestData} (w : World) (a v : U32) :
    storeAt (w.setRequest q d) a v = (storeAt w a v).map fun w => w.setRequest q d := by
  unfold storeAt
  split <;> rfl

/-- The end of a wait: the request is removed, and the result returned. -/
theorem drop_ignores {r q : Req} (h : q ≠ r) {w : World} (hr : (w.db.requests r).valid = true) (x : Done) :
    Ignores (fun w => do let w ← dropRequest .std w (handleOf r); .ok (x, w)) q w := by
  intro d
  have hr' : ((w.setRequest q d).db.requests r).valid = true := by
    rw [World.setRequest, setRequest_ne _ _ h.symm]
    exact hr
  dsimp only
  rw [dropRequest_valid hr, dropRequest_valid hr']
  simp only [World.setRequest, dropped_setRequest _ h]
  rfl

theorem transTestI_ignores {r q : Req} (h : q ≠ r) (size : Option U32) (w : World)
    (hr : (w.db.requests r).valid = true) : Ignores (fun w => transTestI .std E w (handleOf r) size) q w := by
  intro d
  have hd : (w.setRequest q d).db.requests r = w.db.requests r := setRequest_ne _ _ h.symm
  have ht : completionTarget .std E (w.setRequest q d).db = completionTarget .std E w.db := rfl
  simp only [transTestI, validRequestHandle_handleOf, hd, hr, ht, requestSlot_handleOf, ok_bind, Bool.not_true,
    Bool.and_false, Bool.false_eq_true, if_false]
  by_cases h1 : (w.db.requests r).cancelled = true
  · simp only [h1, if_true]; rfl
  by_cases h2 : (w.db.requests r).completed = true
  · simp only [h1, h2, if_true]; rfl
  simp only [h1, h2, Bool.false_eq_true, if_false]
  rcases completionTarget .std E w.db (w.db.requests r) with f | t
  · rfl
  cases t with
  | none => rfl
  | some t =>
    simp only [ok_bind, smWaitNonblocking_setRequest]
    generalize smWaitNonblocking E w t.index t.re t.rn _ _ _ _ _ _ = x
    obtain ⟨ret, n, w1⟩ := x
    by_cases h3 : truncated ret ≠ 0
    · rw [if_pos h3, if_pos h3]
      simp only [World.setRequest, setRequest_comm _ h]
      rfl
    rw [if_neg h3, if_neg h3]
    by_cases h4 : (w.db.requests r).type = .getEndpt
    · rw [if_pos h4, if_pos h4, storeAt_setRequest]
      rcases storeAt w1 _ _ with f | w2
      · rfl
      · show Except.ok _ = Except.ok _
        simp only [World.setRequest, setRequest_comm _ h]
    · rw [if_neg h4, if_neg h4]
      simp only [World.setRequest, setRequest_comm _ h]
      rfl

theorem transWait_ignores {r q : Req} (h : q ≠ r) (size : Option U32) (t : U32) (w : World)
    (hr : (w.db.requests r).valid = true) : Ignores (fun w => transWait .std E w (handleOf r) size t) q w := by
  intro d
  have hd : (w.setRequest q d).db.requests r = w.db.requests r := setRequest_ne _ _ h.symm
  have ht : completionTarget .std E (w.setRequest q d).db = completionTarget .std E w.db := rfl
  simp only [transWait, validRequestHandle_handleOf, hd, hr, ht, requestSlot_handleOf, ok_bind, Bool.not_true,
    Bool.and_false, Bool.false_eq_true, if_false]
  rcases completionTarget .std E w.db (w.db.requests r) with f | tgt
  · rfl
  cases tgt with
  | none => rfl
  | some tgt =>
    simp only [ok_bind, smWaitNonblocking_setRequest]
    by_cases h2 : (w.db.requests r).completed = true
    · rw [if_pos h2, if_pos h2]
      exact drop_ignores h hr _ d
    rw [if_neg h2, if_neg h2]
    have hdb : (smWaitNonblocking E w tgt.index tgt.re tgt.rn (w.db.requests r).buffer
        (size.map fun _ => (w.db.requests r).size) (w.db.requests r).type (w.db.requests r).payload t true).2.2.db =
        w.db := by
      simp [smWaitNonblocking]
    generalize smWaitNonblocking E w tgt.index tgt.re tgt.rn _ _ _ _ _ _ = x at hdb ⊢
    obtain ⟨ret, n, w1⟩ := x
    have hr1 : (w1.db.requests r).valid = true := by
      have hdb : w1.db = w.db := hdb
      rw [hdb]
      exact hr
    by_cases h3 : truncated ret ≠ 0
    · rw [if_pos h3, if_pos h3]
      exact drop_ignores h hr1 _ d
    rw [if_neg h3, if_neg h3]
    by_cases h4 : (w.db.requests r).type = .getEndpt
    · rw [if_pos h4, if_pos h4, storeAt_setRequest]
      cases hst : storeAt w1 (w.db.requests r).buffer (endpointHandle (w.db.requests r).epNodeNum
        (w.db.requests r).epPortNum) with
      | error f => rfl
      | ok w2 =>
        have hr2 : (w2.db.requests r).valid = true := by
          rw [storeAt_eq_ok hst]
          exact hr1
        exact drop_ignores h hr2 _ d
    · rw [if_neg h4, if_neg h4]
      have hdrop (x : RequestData) (hx : x.valid = true) := drop_ignores h (w := w1.setRequest r x)
        (by simp [World.setRequest, hx]) ⟨true, n, .success⟩ d
      simp only [← World.setRequest_comm h w1] at hdrop
      exact hdrop _ rfl

/-- On the handle of a valid request, test and wait ignore every other record. -/
theorem test_ignores {r q : Req} (h : q ≠ r) (size : U32) {w : World} (hr : (w.db.requests r).valid = true) :
    Ignores (fun w => test .std E w (handleOf r) (some size)) q w := by
  intro d
  have hv (w : World) (hr : (w.db.requests r).valid = true) :
      test .std E w (handleOf r) (some size) = transTestI .std E w (handleOf r) (some size) := by
    simp [test, transValidSizeParam, hr]
  have hr' : ((w.setRequest q d).db.requests r).valid = true := by
    rw [World.setRequest, setRequest_ne _ _ h.symm]
    exact hr
  dsimp only
  rw [hv _ hr, hv _ hr']
  exact transTestI_ignores h (some size) w hr d

theorem wait_ignores {r q : Req} (h : q ≠ r) (size t : U32) {w : World} (hr : (w.db.requests r).valid = true) :
    Ignores (fun w => wait .std E w (handleOf r) (some size) t) q w := by
  intro d
  have hv (w : World) (hr : (w.db.requests r).valid = true) :
      wait .std E w (handleOf r) (some size) t = transWait .std E w (handleOf r) (some size) t := by
    simp [wait, transValidSizeParam, hr]
  have hr' : ((w.setRequest q d).db.requests r).valid = true := by
    rw [World.setRequest, setRequest_ne _ _ h.symm]
    exact hr
  dsimp only
  rw [hv _ hr, hv _ hr']
  exact transWait_ignores h (some size) t w hr d

/-! ## The check -/

/-- Test and wait refuse `v`, and leave everything as it is. -/
def Refuses (db : Database) (v : U32) : Prop :=
  ∀ E w size t, w.db = db →
    (∃ d, test .std E w v (some size) = .ok (d, w) ∧ d.status = .errRequestInvalid) ∧
    ∃ d, wait .std E w v (some size) t = .ok (d, w) ∧ d.status = .errRequestInvalid

/-- Either `v` is the handle of a valid request, and test and wait ignore every other
    record; or it is not, and they refuse it. -/
def HandleChecked (db : Database) (v : U32) : Prop :=
  (∃ r, v = handleOf r ∧ (db.requests r).valid = true ∧ ∀ q, q ≠ r → ∀ E w size t, w.db = db →
    Ignores (fun w => test .std E w v (some size)) q w ∧ Ignores (fun w => wait .std E w v (some size) t) q w) ∨
  ((∀ r, v = handleOf r → (db.requests r).valid = false) ∧ Refuses db v)

theorem refuses_of_invalid {v : U32} (h : transValidRequestHandle db v = false) : Refuses db v := by
  intro E w size t hw
  subst hw
  refine ⟨⟨⟨true, some size, .errRequestInvalid⟩, ?_, rfl⟩, ⟨⟨false, some size, .errRequestInvalid⟩, ?_, rfl⟩⟩
  · unfold test
    rw [h]
    rfl
  · unfold wait
    rw [h]
    rfl

/-- A handle that passes the check and is below 2^16 is that of a valid request. -/
theorem valid_handle_of_lt {v : U32} (hlt : v.toNat < 65536) (h : transValidRequestHandle db v = true) :
    ∃ r, v = handleOf r ∧ (db.requests r).valid = true := by
  have hv : (v.setWidth 16).toNat = v.toNat := by
    rw [BitVec.toNat_setWidth]
    exact Nat.mod_eq_of_lt hlt
  simp only [transValidRequestHandle, transDecodeRequestHandle, hv] at h
  split at h
  · rename_i hr
    exact ⟨⟨v.toNat, hr⟩, BitVec.eq_of_toNat_eq (by rw [handleOf_toNat]), h⟩
  · cases h

/-- A larger one that passes the check leads past the end of the request array. -/
theorem test_overruns {v : U32} (hlt : ¬ v.toNat < 65536) (h : transValidRequestHandle w.db v = true) (size : U32) :
    test .std E w v (some size) = .error .outOfBounds := by
  have hmax : maxRequests = 64 := rfl
  have hs : requestSlot v = .error .outOfBounds := dif_neg (by omega)
  simp [test, transTestI, transValidSizeParam, h, hs]
  rfl

/-- Test and wait act on a valid request, on it alone, or refuse the handle, exactly for
    the handles below 2^16 and those that the check refuses. -/
theorem handle_checked_iff (db : Database) (v : U32) :
    HandleChecked db v ↔ v.toNat < 65536 ∨ transValidRequestHandle db v = false := by
  constructor
  · intro h
    by_cases hlt : v.toNat < 65536
    · exact .inl hlt
    refine .inr ?_
    rw [← Bool.not_eq_true]
    intro hv
    have hno : ∀ r, v ≠ handleOf r := by
      intro r hr
      rw [hr, handleOf_toNat] at hlt
      exact hlt (Nat.lt_trans r.isLt (by decide))
    rcases h with ⟨r, hr, -⟩ | ⟨-, h⟩
    · exact hno r hr
    · obtain ⟨⟨d, hd, -⟩, -⟩ := h ⟨fun _ p => ⟨0, 0, p, {}⟩, {}⟩ { db := db } 0 0 rfl
      rw [test_overruns hlt hv] at hd
      cases hd
  · intro h
    by_cases hv : transValidRequestHandle db v = true
    · have hlt : v.toNat < 65536 := by
        rcases h with h | h
        · exact h
        · rw [h] at hv; cases hv
      obtain ⟨r, hr, hval⟩ := valid_handle_of_lt hlt hv
      subst hr
      refine .inl ⟨r, rfl, hval, fun q hq E w size t hw => ?_⟩
      subst hw
      exact ⟨test_ignores hq size hval, wait_ignores hq size t hval⟩
    · have hv : transValidRequestHandle db v = false := by simpa using hv
      refine .inr ⟨fun r hr => ?_, refuses_of_invalid hv⟩
      rw [hr, validRequestHandle_handleOf] at hv
      exact hv

/-- With request 0 reserved, the handle 65536 passes the check. -/
theorem handle_65536_unchecked : ¬ ∀ db, Reached db → ∀ v, HandleChecked db v := by
  intro h
  rcases (handle_checked_iff _ _).mp (h (asked 1) (asked_live 1).reached 65536) with hlt | hv
  · exact absurd hlt (by decide)
  · exact absurd hv (by decide)

end Mcapi
