/-
  Mcapi.Signals — the two signals of `mcapi_test` and `mcapi_wait`: the Boolean they
  return, and `*mcapi_status`.

  In the transport the two are set together on every exit (`transTestI_signals`,
  `transWait_agrees`). The checks in front of it return TRUE with an error: both calls
  for a null `size`, and test also for a request that is not valid, where wait returns
  FALSE. So the signals of a call agree exactly when the call passes those checks
  (`signals_agree_iff`).
-/

import Mcapi.Completion

namespace Mcapi

variable {E : Env} {w w' : World}

/-- TRUE comes with `MCAPI_SUCCESS`, and with nothing else. -/
def Done.Agrees (d : Done) : Prop := d.rc = true ↔ d.status = .success

instance (d : Done) : Decidable d.Agrees := inferInstanceAs (Decidable (_ ↔ _))

theorem agrees_success (size : Option U32) : (⟨true, size, .success⟩ : Done).Agrees := ⟨fun _ => rfl, fun _ => rfl⟩

theorem agrees_failed {status : Status} (size : Option U32) (h : status ≠ .success) :
    (⟨false, size, status⟩ : Done).Agrees := by
  constructor
  · intro hrc
    cases hrc
  · intro hs
    exact absurd hs h

/-- TRUE with an error. -/
theorem not_agrees {status : Status} (size : Option U32) (h : status ≠ .success) :
    ¬ (⟨true, size, status⟩ : Done).Agrees :=
  fun ha => h (ha.mp rfl)

/-! ## In the transport -/

/-- What a test is for: it may answer `MCAPI_PENDING` for request `r` only if `r` is
    reserved before and after and not completed. -/
def StillPending (db db' : Database) (r : Req) : Prop :=
  (db.requests r).valid = true ∧ (db.requests r).completed = false ∧
    (db'.requests r).valid = true ∧ (db'.requests r).completed = false

theorem transTestI_signals {r : Req} (hr : (w.db.requests r).valid = true) {sz : U32} {d : Done}
    (h : transTestI .std E w (handleOf r) (some sz) = .ok (d, w')) :
    d.Agrees ∧ (d.status = .pending → StillPending w.db w'.db r) := by
  have hv : ¬ (Build.std.asserts && !transValidRequestHandle w.db (handleOf r)) = true := by simp [hr]
  rw [transTestI, if_neg hv, requestSlot_handleOf, ok_bind] at h
  dsimp only at h
  split at h
  · rename_i hn
    rw [hr] at hn
    cases hn
  split at h
  · cases h
    exact ⟨agrees_failed _ (by decide), fun hp => by cases hp⟩
  split at h
  · cases h
    exact ⟨agrees_success _, fun hp => by cases hp⟩
  rename_i hc
  have hc : (w.db.requests r).completed = false := by simpa using hc
  obtain ⟨t, -, h⟩ := bind_eq_ok.mp h
  cases t with
  | none =>
    cases h
    exact ⟨agrees_failed _ (by decide), fun hp => by cases hp⟩
  | some t =>
    dsimp only at h
    rw [Option.map_some, smWaitNonblocking_eq] at h
    dsimp only at h
    split at h
    · cases h
      refine ⟨agrees_failed _ ?_, fun _ => ⟨hr, hc, ?_⟩⟩
      · split
        · decide
        · decide
      · simp [hr]
    · split at h
      · obtain ⟨w1, -, h⟩ := bind_eq_ok.mp h
        cases h
        exact ⟨agrees_success _, fun hp => by cases hp⟩
      · cases h
        exact ⟨agrees_success _, fun hp => by cases hp⟩

theorem transWait_agrees {r : Req} (hr : (w.db.requests r).valid = true) {sz timeout : U32} {d : Done}
    (h : transWait .std E w (handleOf r) (some sz) timeout = .ok (d, w')) : d.Agrees := by
  have hv : ¬ (Build.std.asserts && !transValidRequestHandle w.db (handleOf r)) = true := by simp [hr]
  rw [transWait, if_neg hv, requestSlot_handleOf, ok_bind] at h
  dsimp only at h
  obtain ⟨t, -, h⟩ := bind_eq_ok.mp h
  cases t with
  | none =>
    cases h
    exact agrees_failed _ (by decide)
  | some t =>
    dsimp only at h
    split at h
    · obtain ⟨w1, -, h⟩ := bind_eq_ok.mp h
      cases h
      exact agrees_success _
    rw [Option.map_some, smWaitNonblocking_eq] at h
    dsimp only at h
    split at h
    · obtain ⟨w1, -, h⟩ := bind_eq_ok.mp h
      cases h
      refine agrees_failed _ ?_
      split
      · decide
      · decide
    · split at h
      · obtain ⟨w1, -, h⟩ := bind_eq_ok.mp h
        obtain ⟨w2, -, h⟩ := bind_eq_ok.mp h
        cases h
        exact agrees_success _
      · obtain ⟨w1, -, h⟩ := bind_eq_ok.mp h
        cases h
        exact agrees_success _

/-! ## At the interface -/

/-- However a test ends, its signals agree. -/
def TestAgrees (E : Env) (w : World) (v : U32) (size : Option U32) : Prop :=
  ∀ d w', test .std E w v size = .ok (d, w') → d.Agrees

def WaitAgrees (E : Env) (w : World) (v : U32) (size : Option U32) (timeout : U32) : Prop :=
  ∀ d w', wait .std E w v size timeout = .ok (d, w') → d.Agrees

section
variable {v timeout : U32} {size : Option U32} {d : Done}

theorem test_unsized (hs : ¬ size.isSome = true) : test .std E w v size = .ok (⟨true, size, .errParameter⟩, w) := by
  simp [test, transValidSizeParam, hs]

theorem test_invalid (hs : size.isSome = true) (hv : ¬ transValidRequestHandle w.db v = true) :
    test .std E w v size = .ok (⟨true, size, .errRequestInvalid⟩, w) := by
  simp [test, transValidSizeParam, hs, hv]

/-- With both checks passed, a test is the transport's, on the request `v` names. -/
theorem test_checked (hs : size.isSome = true) (hv : transValidRequestHandle w.db v = true)
    (h : test .std E w v size = .ok (d, w')) :
    ∃ r sz, v = handleOf r ∧ (w.db.requests r).valid = true ∧
      transTestI .std E w (handleOf r) (some sz) = .ok (d, w') := by
  obtain ⟨sz, rfl⟩ := Option.isSome_iff_exists.mp hs
  have h : transTestI .std E w v (some sz) = .ok (d, w') := by simpa [test, transValidSizeParam, hv] using h
  have hr := h
  simp only [transTestI, hv, Bool.not_true, Bool.and_false, Bool.false_eq_true, if_false] at hr
  obtain ⟨r, hr, -⟩ := bind_eq_ok.mp hr
  obtain ⟨rfl, hval⟩ := valid_handle hv hr
  exact ⟨r, sz, rfl, hval, h⟩

theorem wait_unsized (hs : ¬ size.isSome = true) :
    wait .std E w v size timeout = .ok (⟨true, size, .errParameter⟩, w) := by
  simp [wait, transValidSizeParam, hs]

theorem wait_invalid (hs : size.isSome = true) (hv : ¬ transValidRequestHandle w.db v = true) :
    wait .std E w v size timeout = .ok (⟨false, size, .errRequestInvalid⟩, w) := by
  simp [wait, transValidSizeParam, hs, hv]

theorem wait_checked (hs : size.isSome = true) (hv : transValidRequestHandle w.db v = true)
    (h : wait .std E w v size timeout = .ok (d, w')) :
    ∃ r sz, v = handleOf r ∧ (w.db.requests r).valid = true ∧
      transWait .std E w (handleOf r) (some sz) timeout = .ok (d, w') := by
  obtain ⟨sz, rfl⟩ := Option.isSome_iff_exists.mp hs
  have h : transWait .std E w v (some sz) timeout = .ok (d, w') := by simpa [wait, transValidSizeParam, hv] using h
  have hr := h
  simp only [transWait, hv, Bool.not_true, Bool.and_false, Bool.false_eq_true, if_false] at hr
  obtain ⟨r, hr, -⟩ := bind_eq_ok.mp hr
  obtain ⟨rfl, hval⟩ := valid_handle hv hr
  exact ⟨r, sz, rfl, hval, h⟩

theorem testAgrees_iff : TestAgrees E w v size ↔ size.isSome = true ∧ transValidRequestHandle w.db v = true := by
  constructor
  · intro h
    have hs : size.isSome = true := by
      by_contra hs
      exact not_agrees size (by decide) (h _ w (test_unsized hs))
    refine ⟨hs, ?_⟩
    by_contra hv
    exact not_agrees size (by decide) (h _ w (test_invalid hs hv))
  · intro ⟨hs, hv⟩ d w' h
    obtain ⟨r, sz, -, hval, h⟩ := test_checked hs hv h
    exact (transTestI_signals hval h).1

theorem waitAgrees_iff : WaitAgrees E w v size timeout ↔ size.isSome = true := by
  constructor
  · intro h
    by_contra hs
    exact not_agrees size (by decide) (h _ w (wait_unsized hs))
  · intro hs d w' h
    by_cases hv : transValidRequestHandle w.db v = true
    · obtain ⟨r, sz, -, hval, h⟩ := wait_checked hs hv h
      exact transWait_agrees hval h
    · rw [wait_invalid hs hv] at h
      cases h
      exact agrees_failed _ (by decide)

/-- A test answers `MCAPI_PENDING` only for a request still reserved and not completed. -/
theorem test_pending (h : test .std E w v size = .ok (d, w')) (hd : d.status = .pending) :
    ∃ r, v = handleOf r ∧ StillPending w.db w'.db r := by
  by_cases hs : size.isSome = true
  · by_cases hv : transValidRequestHandle w.db v = true
    · obtain ⟨r, sz, rfl, hval, h⟩ := test_checked hs hv h
      exact ⟨r, rfl, (transTestI_signals hval h).2 hd⟩
    · rw [test_invalid hs hv] at h
      cases h
      cases hd
  · rw [test_unsized hs] at h
    cases h
    cases hd

/-- A wait never does. -/
theorem wait_not_pending (h : wait .std E w v size timeout = .ok (d, w')) : d.status ≠ .pending := by
  cases wait_cases h with
  | refused d hd => rcases hd with hd | hd <;> rw [hd] <;> decide
  | gone r d _ _ _ _ hst => rw [hst]; decide
  | already r d w' _ _ _ _ hst => rw [hst]; decide
  | failed r t d w' _ _ _ _ _ _ hst => rcases hst with hst | hst <;> rw [hst] <;> decide
  | done r t d w' rec _ _ _ _ _ hst => rw [hst]; decide

end

/-- A test's signals agree exactly with a size pointer and a valid request, a wait's
    exactly with a size pointer; and `MCAPI_PENDING` comes from a test alone, for a
    request that is still reserved and not completed. -/
theorem signals_agree_iff (E : Env) (w : World) (v : U32) (size : Option U32) (timeout : U32) :
    (TestAgrees E w v size ↔ size.isSome = true ∧ transValidRequestHandle w.db v = true) ∧
    (WaitAgrees E w v size timeout ↔ size.isSome = true) ∧
    (∀ d w', test .std E w v size = .ok (d, w') → d.status = .pending →
      ∃ r, v = handleOf r ∧ StillPending w.db w'.db r) ∧
    ∀ d w', wait .std E w v size timeout = .ok (d, w') → d.status ≠ .pending :=
  ⟨testAgrees_iff, waitAgrees_iff, fun _ _ => test_pending, fun _ _ => wait_not_pending⟩

/-- A test of a request that is not valid returns TRUE, and so does a test or a wait
    without a size pointer. -/
theorem errors_signalled_as_done :
    ¬ ∀ db, Live db → ∀ E w v size timeout, w.db = db → TestAgrees E w v size ∧ WaitAgrees E w v size timeout := by
  intro h
  have ht := (h noEndpoints.db ⟨0, 0, none, .refl _⟩ willing noEndpoints 0 (some 0) 0 rfl).1
  have ha : (⟨true, some 0, .errRequestInvalid⟩ : Done).Agrees := ht _ noEndpoints rfl
  exact not_agrees (some 0) (by decide) ha

end Mcapi
