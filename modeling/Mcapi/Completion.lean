/-
  Mcapi.Completion — what `mcapi_test` and `mcapi_wait` do.

  On a valid request both give the driver at most one command, a WAIT, and only if the
  record is not completed. `Tested` and `Waited` list the ways they end; `test_cases`
  and `wait_cases` prove that there are no others. Test leaves the slot reserved; wait
  removes the request however it ends (`dropped`), unless its endpoint is gone.
-/

import Mcapi.Issue

namespace Mcapi

variable {E : Env} {w w' : World}

/-- The packet of a WAIT. -/
def waitPkt (t : Target) (d : RequestData) (timeout : U32) : SmPacket :=
  { sessionIdx := t.index
    remoteEp := t.re
    dstCpu := t.rn
    buf := d.buffer
    type := .request d.type
    timeout := timeout
    payload := d.payload
    bufLen := d.size }

/-- What `mcapi_trans_remove_request` leaves, for a valid request. -/
def dropped (db : Database) (r : Req) : Database :=
  if db.requestReservesHeader.currCount < db.requestReservesHeader.maxCount then db.release r else db

theorem dropRequest_valid {r : Req} (h : (w.db.requests r).valid = true) :
    dropRequest .std w (handleOf r) = .ok { w with db := dropped w.db r } := by
  unfold dropRequest dropped
  rw [remove_valid .std h]
  split <;> rfl

/-- The record of a completed request. -/
def completedRecord (d : RequestData) (size : U32) : RequestData :=
  { d with completed := true, size := if d.type = .getEndpt then d.size else size }

/-- The same record, but for `completed` and `size`: all that a test or wait writes. -/
def SameOperation (d d' : RequestData) : Prop := ∃ completed size, d' = { d with completed := completed, size := size }

theorem SameOperation.refl (d : RequestData) : SameOperation d d := ⟨d.completed, d.size, rfl⟩

theorem SameOperation.trans {a b c : RequestData} (h : SameOperation a b) (h' : SameOperation b c) :
    SameOperation a c := by
  obtain ⟨x, y, rfl⟩ := h
  obtain ⟨x', y', rfl⟩ := h'
  exact ⟨x', y', rfl⟩

theorem SameOperation.valid {d d' : RequestData} (h : SameOperation d d') : d'.valid = d.valid := by
  obtain ⟨x, y, rfl⟩ := h
  rfl

theorem completedRecord_same (d : RequestData) (size : U32) : SameOperation d (completedRecord d size) := ⟨_, _, rfl⟩

/-- The handle a completed get stores through its endpoint pointer. -/
def RequestData.answer (d : RequestData) : List (U32 × U32) :=
  if d.type = .getEndpt then [(d.buffer, endpointHandle d.epNodeNum d.epPortNum)] else []

/-- A handle that passes the check and names a slot is the handle of a valid request. -/
theorem valid_handle {db : Database} {v : U32} (h : transValidRequestHandle db v = true) {r : Req}
    (hr : requestSlot v = .ok r) : v = handleOf r ∧ (db.requests r).valid = true := by
  have hv := requestSlot_eq_ok hr
  subst hv
  exact ⟨rfl, by simpa using h⟩

/-- A handle is refused, leads past the request table, or is that of a valid request. -/
theorem handle_cases (db : Database) (v : U32) : transValidRequestHandle db v = false ∨
    (transValidRequestHandle db v = true ∧ ∃ f, requestSlot v = .error f) ∨
    ∃ r, v = handleOf r ∧ (db.requests r).valid = true := by
  cases hv : transValidRequestHandle db v with
  | false => exact .inl rfl
  | true =>
    cases hr : requestSlot v with
    | error f => exact .inr (.inl ⟨rfl, f, rfl⟩)
    | ok r => exact .inr (.inr ⟨r, valid_handle hv hr⟩)

/-- The WAIT of a request, with the driver's answer. -/
def waitCommand (E : Env) (t : Target) (d : RequestData) (timeout : U32) : Command :=
  ⟨.wait, waitPkt t d timeout, E.drv .wait (waitPkt t d timeout)⟩

theorem smWaitNonblocking_eq (w : World) (t : Target) (d : RequestData) (timeout : U32) (b : Bool) :
    smWaitNonblocking E w t.index t.re t.rn d.buffer (some d.size) d.type d.payload timeout b =
      ((waitCommand E t d timeout).reply.ret, some (waitCommand E t d timeout).reply.pkt.bufLen,
        (ioctl E (setBlocking w b) .wait (waitPkt t d timeout)).2) := rfl

/-- Clearing the flag of a record that is not completed changes nothing. -/
theorem setRequest_uncompleted {db : Database} {r : Req} (h : (db.requests r).completed = false) :
    db.setRequest r { db.requests r with completed := false } = db := by
  have hd : { db.requests r with completed := false } = db.requests r := by rw [← h]
  rw [Database.setRequest, hd, Function.update_eq_self]

/-! ## Test -/

/-- How `mcapi_test` ends: with no command given (`refused`, `ended`), with the WAIT
    refused (`pending`), or with the record completed (`done`). -/
inductive Tested (E : Env) (w : World) (v : U32) : Done → World → Prop
  | refused (d : Done) : d.status = .errParameter ∨ d.status = .errRequestInvalid → Tested E w v d w
  | ended (r : Req) (d : Done) : v = handleOf r → (w.db.requests r).valid = true →
      (d.status = .success → d.rc = true ∧ (w.db.requests r).completed = true) → Tested E w v d w
  | pending (r : Req) (t : Target) (d : Done) (w' : World) : v = handleOf r → (w.db.requests r).valid = true →
      (w.db.requests r).completed = false → completionTarget .std E w.db (w.db.requests r) = .ok (some t) →
      truncated (waitCommand E t (w.db.requests r) 0).reply.ret ≠ 0 → d.rc = false → d.status ≠ .success →
      w'.db = w.db → commands w'.trace = commands w.trace ++ [waitCommand E t (w.db.requests r) 0] →
      stores w'.trace = stores w.trace → Tested E w v d w'
  | done (r : Req) (t : Target) (d : Done) (w' : World) (size : U32) : v = handleOf r →
      (w.db.requests r).valid = true → (w.db.requests r).completed = false →
      completionTarget .std E w.db (w.db.requests r) = .ok (some t) → d.rc = true → d.status = .success →
      w'.db = w.db.setRequest r (completedRecord (w.db.requests r) size) →
      commands w'.trace = commands w.trace ++ [waitCommand E t (w.db.requests r) 0] →
      stores w'.trace = stores w.trace ++ (w.db.requests r).answer → Tested E w v d w'

theorem transTestI_cases {r : Req} (hr : (w.db.requests r).valid = true) {sz : U32} {d : Done}
    (h : transTestI .std E w (handleOf r) (some sz) = .ok (d, w')) : Tested E w (handleOf r) d w' := by
  have hv : ¬ (Build.std.asserts && !transValidRequestHandle w.db (handleOf r)) = true := by simp [hr]
  rw [transTestI, if_neg hv, requestSlot_handleOf, ok_bind] at h
  dsimp only at h
  split at h
  · rename_i hn; rw [hr] at hn; cases hn
  split at h
  · cases h; exact .ended r _ rfl hr nofun
  split at h
  · rename_i hc
    cases h; exact .ended r _ rfl hr fun _ => ⟨rfl, hc⟩
  rename_i hc
  have hc : (w.db.requests r).completed = false := by simpa using hc
  obtain ⟨t, ht, h⟩ := bind_eq_ok.mp h
  cases t with
  | none => cases h; exact .ended r _ rfl hr nofun
  | some t =>
    dsimp only at h
    rw [Option.map_some, smWaitNonblocking_eq] at h
    dsimp only at h
    by_cases hret : truncated (waitCommand E t (w.db.requests r) 0).reply.ret ≠ 0
    · rw [if_pos hret] at h
      cases h
      refine .pending r t _ _ rfl hr hc ht hret rfl ?_ ?_ (by simp [waitCommand]) (by simp)
      · dsimp only
        split <;> exact nofun
      · simp only [ioctl_db, setBlocking_db]
        exact setRequest_uncompleted hc
    · rw [if_neg hret] at h
      by_cases hg : (w.db.requests r).type = .getEndpt
      · rw [if_pos hg] at h
        obtain ⟨w1, hw1, h⟩ := bind_eq_ok.mp h
        cases h
        rw [storeAt_eq_ok hw1]
        refine .done r t _ _ 0 rfl hr hc ht rfl rfl ?_ (by simp [waitCommand]) (by simp [RequestData.answer, hg])
        simp [completedRecord, hg]
      · rw [if_neg hg] at h
        cases h
        refine .done r t _ _ (waitCommand E t (w.db.requests r) 0).reply.pkt.bufLen rfl hr hc ht rfl rfl ?_
          (by simp [waitCommand]) (by simp [RequestData.answer, hg])
        simp [completedRecord, hg]

theorem test_cases {v : U32} {size : Option U32} {d : Done} (h : test .std E w v size = .ok (d, w')) :
    Tested E w v d w' := by
  cases size with
  | none =>
    cases h
    exact .refused _ (.inl rfl)
  | some sz =>
    rcases handle_cases w.db v with hv | ⟨hv, f, hf⟩ | ⟨r, rfl, hr⟩
    · simp only [test, hv] at h
      cases h
      exact .refused _ (.inr rfl)
    · simp only [test, transTestI, hv, hf] at h
      cases h
    · exact transTestI_cases hr (by simpa [test, transValidSizeParam, hr] using h)

/-! ## Wait -/

/-- How `mcapi_wait` ends: with the request left alone (`refused`, `gone`), or with the
    request removed: at once where it is completed (`already`), after a refused WAIT
    (`failed`), or after a successful one (`done`). -/
inductive Waited (E : Env) (w : World) (v timeout : U32) : Done → World → Prop
  | refused (d : Done) : d.status = .errParameter ∨ d.status = .errRequestInvalid → Waited E w v timeout d w
  | gone (r : Req) (d : Done) : v = handleOf r → (w.db.requests r).valid = true →
      completionTarget .std E w.db (w.db.requests r) = .ok none → d.rc = false → d.status = .errNodeNotinit →
      Waited E w v timeout d w
  | already (r : Req) (d : Done) (w' : World) : v = handleOf r → (w.db.requests r).valid = true →
      (w.db.requests r).completed = true → d.rc = true → d.status = .success → w'.db = dropped w.db r →
      commands w'.trace = commands w.trace → stores w'.trace = stores w.trace → Waited E w v timeout d w'
  | failed (r : Req) (t : Target) (d : Done) (w' : World) : v = handleOf r → (w.db.requests r).valid = true →
      (w.db.requests r).completed = false → completionTarget .std E w.db (w.db.requests r) = .ok (some t) →
      truncated (waitCommand E t (w.db.requests r) timeout).reply.ret ≠ 0 → d.rc = false →
      (d.status = .timeout ∨ d.status = .errGeneral) → w'.db = dropped w.db r →
      commands w'.trace = commands w.trace ++ [waitCommand E t (w.db.requests r) timeout] →
      stores w'.trace = stores w.trace → Waited E w v timeout d w'
  | done (r : Req) (t : Target) (d : Done) (w' : World) (rec : RequestData) : v = handleOf r →
      (w.db.requests r).valid = true → (w.db.requests r).completed = false →
      completionTarget .std E w.db (w.db.requests r) = .ok (some t) → d.rc = true → d.status = .success →
      SameOperation (w.db.requests r) rec → w'.db = dropped (w.db.setRequest r rec) r →
      commands w'.trace = commands w.trace ++ [waitCommand E t (w.db.requests r) timeout] →
      stores w'.trace = stores w.trace ++ (w.db.requests r).answer → Waited E w v timeout d w'

theorem transWait_cases {r : Req} (hr : (w.db.requests r).valid = true) {sz timeout : U32} {d : Done}
    (h : transWait .std E w (handleOf r) (some sz) timeout = .ok (d, w')) : Waited E w (handleOf r) timeout d w' := by
  have hv : ¬ (Build.std.asserts && !transValidRequestHandle w.db (handleOf r)) = true := by simp [hr]
  rw [transWait, if_neg hv, requestSlot_handleOf, ok_bind] at h
  dsimp only at h
  obtain ⟨t, ht, h⟩ := bind_eq_ok.mp h
  cases t with
  | none => cases h; exact .gone r _ rfl hr ht rfl rfl
  | some t =>
    dsimp only at h
    split at h
    · rename_i hc
      rw [dropRequest_valid hr] at h
      cases h
      exact .already r _ _ rfl hr hc rfl rfl rfl rfl rfl
    rename_i hc
    have hc : (w.db.requests r).completed = false := by simpa using hc
    rw [Option.map_some, smWaitNonblocking_eq] at h
    dsimp only at h
    by_cases hret : truncated (waitCommand E t (w.db.requests r) timeout).reply.ret ≠ 0
    · rw [if_pos hret, dropRequest_valid (by simpa using hr)] at h
      cases h
      refine .failed r t _ _ rfl hr hc ht hret rfl ?_ (by simp) (by simp [waitCommand]) (by simp)
      dsimp only
      split
      · exact .inl rfl
      · exact .inr rfl
    · rw [if_neg hret] at h
      by_cases hg : (w.db.requests r).type = .getEndpt
      · rw [if_pos hg] at h
        obtain ⟨w1, hw1, h⟩ := bind_eq_ok.mp h
        rw [storeAt_eq_ok hw1, dropRequest_valid (by simpa using hr)] at h
        cases h
        refine .done r t _ _ (w.db.requests r) rfl hr hc ht rfl rfl (.refl _) ?_ (by simp [waitCommand])
          (by simp [RequestData.answer, hg])
        simp [Database.setRequest]
      · rw [if_neg hg, dropRequest_valid (by simpa using hr)] at h
        cases h
        exact .done r t _ _
          { w.db.requests r with size := (waitCommand E t (w.db.requests r) timeout).reply.pkt.bufLen }
          rfl hr hc ht rfl rfl ⟨_, _, rfl⟩ (by simp) (by simp [waitCommand]) (by simp [RequestData.answer, hg])

theorem wait_cases {v timeout : U32} {size : Option U32} {d : Done} (h : wait .std E w v size timeout = .ok (d, w')) :
    Waited E w v timeout d w' := by
  cases size with
  | none =>
    cases h
    exact .refused _ (.inl rfl)
  | some sz =>
    rcases handle_cases w.db v with hv | ⟨hv, f, hf⟩ | ⟨r, rfl, hr⟩
    · simp only [wait, hv] at h
      cases h
      exact .refused _ (.inr rfl)
    · simp only [wait, transWait, hv, hf] at h
      cases h
    · exact transWait_cases hr (by simpa [wait, transValidSizeParam, hr] using h)

/-! ## The calls as steps -/

theorem test_exec {v : U32} {size : Option U32} {x : Ret} (h : (Call.test v size).exec .std E w = .ok (x, w')) :
    ∃ d, x = .done d ∧ test .std E w v size = .ok (d, w') := by
  obtain ⟨⟨d, w1⟩, hd, h⟩ := bind_eq_ok.mp h
  cases h
  exact ⟨d, rfl, hd⟩

theorem wait_exec {v timeout : U32} {size : Option U32} {x : Ret}
    (h : (Call.wait v size timeout).exec .std E w = .ok (x, w')) :
    ∃ d, x = .done d ∧ wait .std E w v size timeout = .ok (d, w') := by
  obtain ⟨⟨d, w1⟩, hd, h⟩ := bind_eq_ok.mp h
  cases h
  exact ⟨d, rfl, hd⟩

end Mcapi
