/-
  Mcapi.Requests — the request pool (`mcapi_trans_reserve_request`,
  `mcapi_trans_remove_request`, `mcapi_trans_init_request_indexed_array`,
  `setup_request_internal`, `mcapi_trans_decode_request_handle`).

  A request is reserved while its `valid` flag is set. The slots that are not are kept
  on a list threaded through `next_index`, and a counter says how many are reserved.
  `PoolInv` ties the three together: the list visits exactly the slots that are not
  valid, and the counter is the number of those that are. Reserving, removing and
  rewriting the record of a reserved request keep it.

  `PoolReach` are the states that reserves and removes lead to from a freshly
  initialised array:
  - `free_list_invariant`: each of them satisfies the invariant, and a reserve fails
    only with every slot reserved.
  - `remove_releases_iff`: a remove gives the slot back exactly when fewer than
    `maxRequests` are reserved. The guard compares `curr_count` with `max_count` the
    wrong way round for a release, so with every slot reserved nothing can be given
    back any more.
-/

import Mcapi.Types
import Mcapi.Lib.FreeChain
import Mathlib.Data.Fintype.Card

namespace Mcapi

variable (B : Build)

/-! ## The code -/

/-- `mcapi_trans_decode_request_handle`: the handle is cut to 16 bits. -/
def transDecodeRequestHandle (db : Database) (request : U32) : Bool × U16 :=
  let r : U16 := request.setWidth 16
  (if h : r.toNat < maxRequests then (db.requests ⟨r.toNat, h⟩).valid else false, r)

def transValidRequestHandle (db : Database) (request : U32) : Bool := (transDecodeRequestHandle db request).1

/-- Put slot `r` at the head of the free list and clear its flag. -/
def Database.release (db : Database) (r : Req) : Database :=
  let header := db.requestReservesHeader
  { db with
    requests := Function.update db.requests r { db.requests r with valid := false }
    requestReservesHeader := { header with
      array := Function.update header.array r { header.array r with nextIndex := header.emptyHeadIndex }
      emptyHeadIndex := some r
      currCount := header.currCount - 1 } }

/-- Take the head `r` off the free list and set its flag. -/
def Database.take (db : Database) (r : Req) : Database :=
  let header := db.requestReservesHeader
  { db with
    requests := Function.update db.requests r { db.requests r with valid := true }
    requestReservesHeader := { header with
      emptyHeadIndex := (header.array r).nextIndex
      currCount := header.currCount + 1 } }

def transRemoveRequest (r : U32) (db : Database) : Res (Bool × Database) :=
  if B.asserts && !transValidRequestHandle db r then .error .assertion
  else if db.requestReservesHeader.currCount < db.requestReservesHeader.maxCount then do
    let i ← requestSlot r
    .ok (true, db.release i)
  else .ok (false, db)

/-- FALSE is `none`; TRUE comes with the index stored through the pointer. -/
def transReserveRequest (db : Database) : Option Req × Database :=
  match db.requestReservesHeader.emptyHeadIndex with
  | none => (none, db)
  | some r => (some r, db.take r)

def transInitRequestIndexedArray (db : Database) : Database :=
  { db with
    requestReservesHeader :=
      { currCount := 0
        maxCount := maxRequests
        emptyHeadIndex := some 0
        fullHeadIndex := none
        array := fun i =>
          { nextIndex := FreeChain.ascending maxRequests i
            prevIndex := if h : i.val = 0 then none else some ⟨i.val - 1, by omega⟩ } } }

/-- `setup_request_internal`, for a request pointer that is not null. -/
def setupRequestInternal (localEp remoteEp : U32) (id : Req) (buffer size payload : U32) (type : RequestType)
    (db : Database) : Database :=
  db.setRequest id { db.requests id with
    epEndpoint := remoteEp
    handle := localEp
    valid := true
    size := size
    cancelled := false
    type := type
    buffer := buffer
    payload := payload }

/-! ## The invariant -/

def IsFree (db : Database) (r : Req) : Prop := (db.requests r).valid = false

instance (db : Database) (r : Req) : Decidable (IsFree db r) := inferInstanceAs (Decidable (_ = _))

/-- The requests that are reserved. -/
def reserved (db : Database) : Finset Req := Finset.univ.filter fun r => (db.requests r).valid = true

def nextOf (db : Database) (r : Req) : Option Req := (db.requestReservesHeader.array r).nextIndex

/-- Slot `r` is on the free list: the walk from its head ends, and visits `r`. -/
def OnFreeList (db : Database) (r : Req) : Prop :=
  ∃ l, FreeChain.Chain (nextOf db) db.requestReservesHeader.emptyHeadIndex l ∧ r ∈ l

structure PoolInv (db : Database) : Prop where
  free : FreeChain.FreeList (IsFree db) (nextOf db) db.requestReservesHeader.emptyHeadIndex
  count : db.requestReservesHeader.currCount = (reserved db).card
  max : db.requestReservesHeader.maxCount = maxRequests

@[simp] theorem mem_reserved {db : Database} {r : Req} : r ∈ reserved db ↔ (db.requests r).valid = true := by
  simp [reserved]

theorem reserved_le (db : Database) : (reserved db).card ≤ maxRequests :=
  (Finset.card_le_univ _).trans_eq (Fintype.card_fin _)

/-- The pool part of the state: the flags and the header. -/
theorem PoolInv.congr {db db' : Database} (h : PoolInv db)
    (hv : ∀ r, (db'.requests r).valid = (db.requests r).valid)
    (hh : db'.requestReservesHeader = db.requestReservesHeader) : PoolInv db' := by
  have hr : reserved db' = reserved db := by ext r; simp [hv r]
  refine ⟨?_, ?_, ?_⟩
  · have hn : nextOf db' = nextOf db := by funext r; simp only [nextOf, hh]
    rw [hn, hh]
    exact h.free.congr fun r => by simp only [IsFree, hv r]
  · rw [hh, hr]; exact h.count
  · rw [hh]; exact h.max

theorem PoolInv.setRequest {db : Database} (h : PoolInv db) {r : Req} {d : RequestData}
    (hd : d.valid = (db.requests r).valid) : PoolInv (db.setRequest r d) := by
  refine h.congr (fun q => ?_) rfl
  by_cases e : q = r
  · subst e; rw [setRequest_same]; exact hd
  · rw [setRequest_ne _ _ e]

/-! ### Reserving -/

@[simp] theorem take_valid (db : Database) (r q : Req) :
    ((db.take r).requests q).valid = true ↔ q = r ∨ (db.requests q).valid = true := by
  by_cases e : q = r
  · subst e; simp [Database.take]
  · simp [Database.take, e]

theorem take_requests_ne (db : Database) {r q : Req} (h : q ≠ r) : (db.take r).requests q = db.requests q := by
  simp [Database.take, h]

theorem reserved_take (db : Database) (r : Req) : reserved (db.take r) = insert r (reserved db) := by
  ext q; simp

theorem PoolInv.head_free {db : Database} (h : PoolInv db) {r : Req}
    (hr : db.requestReservesHeader.emptyHeadIndex = some r) : IsFree db r := by
  have hf := h.free
  rw [hr] at hf
  exact hf.head_free

theorem PoolInv.take {db : Database} (h : PoolInv db) {r : Req}
    (hr : db.requestReservesHeader.emptyHeadIndex = some r) : PoolInv (db.take r) := by
  have hf := h.free
  rw [hr] at hf
  have hfree : ¬ r ∈ reserved db := by simpa [IsFree] using hf.head_free
  refine ⟨hf.pop.congr fun q => ?_, ?_, h.max⟩
  · have := take_valid db r q
    rw [IsFree, IsFree, ← Bool.not_eq_true, ← Bool.not_eq_true, this]
    tauto
  · have hcount := h.count
    rw [reserved_take, Finset.card_insert_of_notMem hfree]
    simp only [Database.take]
    omega

theorem PoolInv.head_none_iff {db : Database} (h : PoolInv db) :
    db.requestReservesHeader.emptyHeadIndex = none ↔ (reserved db).card = maxRequests := by
  rw [h.free.none_iff]
  constructor
  · intro hn
    have : reserved db = Finset.univ := by
      ext r
      simpa [IsFree] using hn r
    rw [this, Finset.card_univ, Fintype.card_fin]
  · intro hc r hr
    have : reserved db = Finset.univ := by
      rw [← Finset.card_eq_iff_eq_univ, hc, Fintype.card_fin]
    have hmem : r ∈ reserved db := this ▸ Finset.mem_univ r
    rw [mem_reserved, hr] at hmem
    cases hmem

/-- A request can be reserved. -/
def Spare (db : Database) : Prop := (transReserveRequest db).1 ≠ none

theorem spare_iff {db : Database} : Spare db ↔ ∃ id, db.requestReservesHeader.emptyHeadIndex = some id := by
  unfold Spare transReserveRequest
  cases db.requestReservesHeader.emptyHeadIndex with
  | none => simp
  | some id => simp

theorem PoolInv.spare_iff_free {db : Database} (h : PoolInv db) : Spare db ↔ ∃ r, IsFree db r := by
  rw [spare_iff]
  constructor
  · intro hid
    obtain ⟨id, hid⟩ := hid
    exact ⟨id, h.head_free hid⟩
  · intro hf
    obtain ⟨r, hr⟩ := hf
    exact Option.ne_none_iff_exists'.mp fun hn => h.free.none_iff.mp hn r hr

/-! ### Removing -/

@[simp] theorem release_valid (db : Database) (r q : Req) :
    ((db.release r).requests q).valid = true ↔ q ≠ r ∧ (db.requests q).valid = true := by
  by_cases e : q = r
  · subst e; simp [Database.release]
  · simp [Database.release, e]

theorem release_requests_ne (db : Database) {r q : Req} (h : q ≠ r) :
    (db.release r).requests q = db.requests q := by
  simp [Database.release, h]

@[simp] theorem release_requests_same (db : Database) (r : Req) :
    (db.release r).requests r = { db.requests r with valid := false } := by
  simp [Database.release]

theorem reserved_release (db : Database) (r : Req) : reserved (db.release r) = (reserved db).erase r := by
  ext q; simp

theorem PoolInv.release {db : Database} (h : PoolInv db) {r : Req} (hr : (db.requests r).valid = true) :
    PoolInv (db.release r) := by
  have hnf : ¬ IsFree db r := by simp [IsFree, hr]
  have hmem : r ∈ reserved db := mem_reserved.mpr hr
  refine ⟨?_, ?_, h.max⟩
  · have hn : nextOf (db.release r) = Function.update (nextOf db) r db.requestReservesHeader.emptyHeadIndex := by
      funext q
      by_cases e : q = r
      · subst e; simp [nextOf, Database.release]
      · simp [nextOf, Database.release, e]
    rw [hn]
    refine (h.free.push hnf).congr ?_
    intro q
    rw [IsFree, IsFree, ← Bool.not_eq_true, ← Bool.not_eq_true, release_valid]
    tauto
  · have hpos := Finset.card_pos.mpr ⟨r, hmem⟩
    have hcount := h.count
    rw [reserved_release, Finset.card_erase_of_mem hmem]
    simp only [Database.release]
    omega

theorem decode_handleOf (db : Database) (r : Req) :
    transDecodeRequestHandle db (handleOf r) = ((db.requests r).valid, (handleOf r).setWidth 16) := by
  have hr : ((handleOf r).setWidth 16).toNat = r.val := by
    rw [BitVec.toNat_setWidth, handleOf_toNat]
    exact Nat.mod_eq_of_lt (Nat.lt_trans r.isLt (by decide))
  simp only [transDecodeRequestHandle, hr, r.isLt, dif_pos]

@[simp] theorem validRequestHandle_handleOf (db : Database) (r : Req) :
    transValidRequestHandle db (handleOf r) = (db.requests r).valid := by
  rw [transValidRequestHandle, decode_handleOf]

/-- What removing a reserved request does: it goes through below `max_count` only. -/
theorem remove_valid {db : Database} {r : Req} (hr : (db.requests r).valid = true) :
    transRemoveRequest B (handleOf r) db =
      if db.requestReservesHeader.currCount < db.requestReservesHeader.maxCount then .ok (true, db.release r)
      else .ok (false, db) := by
  simp [transRemoveRequest, hr]

/-! ## Sequences of reserves and removes -/

/-- A fresh array: the zeroed database after `mcapi_trans_init_request_indexed_array`. -/
def freshPool : Database := transInitRequestIndexedArray zeroed

inductive PoolReach : Database → Prop
  | init : PoolReach freshPool
  | reserve {db : Database} : PoolReach db → PoolReach (transReserveRequest db).2
  | remove {db db' : Database} {r : Req} {rc : Bool} : PoolReach db → (db.requests r).valid = true →
      transRemoveRequest .std (handleOf r) db = .ok (rc, db') → PoolReach db'

theorem init_inv {db : Database} (h : ∀ r, IsFree db r) : PoolInv (transInitRequestIndexedArray db) := by
  have hr : reserved (transInitRequestIndexedArray db) = ∅ := by
    ext r
    simpa [IsFree, transInitRequestIndexedArray] using h r
  refine ⟨FreeChain.ascending_freeList h, ?_, rfl⟩
  rw [hr]; rfl

theorem reserve_inv {db : Database} (h : PoolInv db) : PoolInv (transReserveRequest db).2 := by
  unfold transReserveRequest
  split
  · exact h
  · exact h.take ‹_›

theorem remove_inv {db db' : Database} {r : Req} {rc : Bool} (h : PoolInv db) (hr : (db.requests r).valid = true)
    (he : transRemoveRequest B (handleOf r) db = .ok (rc, db')) : PoolInv db' := by
  rw [remove_valid B hr] at he
  split at he
  · cases he; exact h.release hr
  · cases he; exact h

theorem PoolReach.inv {db : Database} (h : PoolReach db) : PoolInv db := by
  induction h with
  | init => exact init_inv fun _ => rfl
  | reserve _ ih => exact reserve_inv ih
  | remove _ hr he ih => exact remove_inv .std ih hr he

/-! ### The representation invariant -/

/-- What a reserve returns: FALSE only with no slot free, else a slot that was not
    valid, and no other slot's flag changes. -/
def ReserveSound (db : Database) : Prop :=
  match transReserveRequest db with
  | (none, db') => (∀ r, ¬ IsFree db r) ∧ db' = db
  | (some r, db') => IsFree db r ∧ (db'.requests r).valid = true ∧
      ∀ q, q ≠ r → (db'.requests q).valid = (db.requests q).valid

theorem reserve_sound {db : Database} (h : PoolInv db) : ReserveSound db := by
  unfold ReserveSound transReserveRequest
  cases hh : db.requestReservesHeader.emptyHeadIndex with
  | none => exact ⟨(h.free.none_iff).mp hh, rfl⟩
  | some r =>
    refine ⟨h.head_free hh, by simp, fun q hq => ?_⟩
    simp only [take_requests_ne db hq]

/-- In every state that reserves and removes lead to, the free list is acyclic, ends,
    and visits exactly the slots that are not valid, each once; the counter is the
    number of reserved slots; and a reserve hands out a free slot if there is one. -/
theorem free_list_invariant {db : Database} (h : PoolReach db) :
    (∃ l, FreeChain.Chain (nextOf db) db.requestReservesHeader.emptyHeadIndex l ∧ l.Nodup ∧
      ∀ r, r ∈ l ↔ (db.requests r).valid = false) ∧
    db.requestReservesHeader.currCount = (reserved db).card ∧
    0 ≤ db.requestReservesHeader.currCount ∧
    db.requestReservesHeader.currCount ≤ db.requestReservesHeader.maxCount ∧
    ReserveSound db := by
  have hi := h.inv
  obtain ⟨l, hl, hm⟩ := hi.free
  have hc := hi.count
  have hmax := hi.max
  have hle := reserved_le db
  exact ⟨⟨l, hl, hl.nodup, hm⟩, hc, by omega, by omega, reserve_sound hi⟩

/-- The invariant after one reserve. -/
theorem first_reserve_sound : ReserveSound (transReserveRequest freshPool).2 :=
  (free_list_invariant (.reserve .init)).2.2.2.2

/-! ### Releasing -/

/-- Removing `r` returns TRUE, makes it invalid and puts it back on the free list, and
    the next reserve succeeds. -/
def Releases (db : Database) (r : Req) : Prop :=
  ∃ db', transRemoveRequest .std (handleOf r) db = .ok (true, db') ∧ (db'.requests r).valid = false ∧
    OnFreeList db' r ∧ (transReserveRequest db').1.isSome = true

theorem release_releases {db : Database} (h : PoolInv db) {r : Req} (hr : (db.requests r).valid = true)
    (hlt : (reserved db).card < maxRequests) : Releases db r := by
  have hgo : db.requestReservesHeader.currCount < db.requestReservesHeader.maxCount := by
    rw [h.count, h.max]; exact_mod_cast hlt
  have hfree : IsFree (db.release r) r := by simp [IsFree]
  obtain ⟨l, hl, hm⟩ := (h.release hr).free
  refine ⟨db.release r, ?_, hfree, ⟨l, hl, (hm r).mpr hfree⟩, rfl⟩
  rw [remove_valid .std hr, if_pos hgo]

theorem lt_of_releases {db : Database} (h : PoolInv db) {r : Req} (hr : (db.requests r).valid = true)
    (hrel : Releases db r) : (reserved db).card < maxRequests := by
  obtain ⟨db', he, _⟩ := hrel
  rw [remove_valid .std hr, h.count, h.max] at he
  split at he
  · rename_i hlt; exact_mod_cast hlt
  · cases he

/-- A remove of a reserved request gives it back exactly when fewer than `maxRequests`
    requests are reserved. -/
theorem remove_releases_iff {db : Database} (h : PoolReach db) {r : Req} (hr : (db.requests r).valid = true) :
    Releases db r ↔ (reserved db).card < maxRequests :=
  ⟨lt_of_releases h.inv hr, release_releases h.inv hr⟩

/-- One request reserved and given back. -/
theorem first_request_released : Releases (transReserveRequest freshPool).2 0 :=
  (remove_releases_iff (.reserve .init) rfl).mpr (by decide)

/-- Reserving again and again from a fresh array reserves one more slot each time, up to
    all of them. -/
theorem reserve_n (n : Nat) (hn : n ≤ maxRequests) : ∃ db, PoolReach db ∧ (reserved db).card = n := by
  induction n with
  | zero =>
    refine ⟨freshPool, .init, ?_⟩
    rw [Finset.card_eq_zero]
    ext r; simp [freshPool, transInitRequestIndexedArray, zeroed]
  | succ n ih =>
    obtain ⟨db, hdb, hc⟩ := ih (by omega)
    cases hh : db.requestReservesHeader.emptyHeadIndex with
    | none =>
      have := hdb.inv.head_none_iff.mp hh
      omega
    | some r =>
      have hnr : r ∉ reserved db := by
        have : (db.requests r).valid = false := hdb.inv.head_free hh
        simp [this]
      refine ⟨(transReserveRequest db).2, hdb.reserve, ?_⟩
      simp only [transReserveRequest, hh]
      rw [reserved_take, Finset.card_insert_of_notMem hnr, hc]

/-- With every slot reserved, a remove gives nothing back. -/
theorem remove_refused_when_full :
    ¬ ∀ db, PoolReach db → ∀ r, (db.requests r).valid = true → Releases db r := by
  intro hall
  obtain ⟨db, hdb, hc⟩ := reserve_n maxRequests (Nat.le_refl _)
  have huniv : reserved db = Finset.univ := by
    rw [← Finset.card_eq_iff_eq_univ, hc, Fintype.card_fin]
  have hr : (db.requests 0).valid = true := mem_reserved.mp (huniv ▸ Finset.mem_univ 0)
  have hlt := lt_of_releases hdb.inv hr (hall db hdb 0 hr)
  omega

end Mcapi
