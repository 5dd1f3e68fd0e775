/-
  Mcapi.Packets — the packet buffers, taken by `mcapi_trans_pktchan_recv` and given back
  by `mcapi_trans_pktchan_free`.

  Buffer `i` belongs to request `i`. A free finds `i` again by masking the address down to
  a multiple of 1024 before it subtracts the address of the array: masked and shifted
  starts agree only if the array itself lies at a multiple of 1024, which nothing provides
  (`free_exact_iff`). Elsewhere it gives back the request before, or aborts.

  A receive has five exits. It is in order where the endpoint is not there; elsewhere it
  owns its buffer or nothing only if a slot is free, the driver delivers, and two values
  that nothing has set are right: the capacity given to the driver, and
  `*received_size` (`recv_owns_iff`).
-/

import Mcapi.Channels
import Mcapi.Pool

namespace Mcapi

variable {E : Env} {w w' : World} {db db' : Database}

/-! ## Where the buffers are -/

/-- The array of the packet buffers: mapped, and with its end in the address space. -/
structure BufferArray where
  base : U32
  mapped : base ≠ 0
  fits : base.toNat + maxBuffers * 1024 < 2 ^ 32

/-- The segment is mapped at `page`, and the array lies 111928 bytes into it. -/
def BufferArray.inSegment (page : U32) (h : page.toNat + 111928 + maxBuffers * 1024 < 2 ^ 32) : BufferArray where
  base := page + 111928
  mapped := by
    intro h0
    have hz := congrArg BitVec.toNat h0
    have ho : (111928 : U32).toNat = 111928 := rfl
    rw [BitVec.toNat_add, ho] at hz
    have hmax : maxBuffers = 64 := rfl
    have h0 : (0 : U32).toNat = 0 := rfl
    omega
  fits := by
    have ho : (111928 : U32).toNat = 111928 := rfl
    rw [BitVec.toNat_add, ho]
    omega

theorem bufferAt_toNat (a : BufferArray) (i : Req) : (bufferAt a.base i).toNat = a.base.toNat + 1024 * i.val := by
  have hi := i.isLt
  have hmax : maxRequests = 64 := rfl
  have hfits := a.fits
  have hmaxb : maxBuffers = 64 := rfl
  have hs : bufferSize.toNat = 1024 := rfl
  rw [bufferAt, BitVec.toNat_add, BitVec.toNat_mul, hs, BitVec.toNat_ofNat]
  omega

theorem bufferAt_inj (a : BufferArray) {i j : Req} (h : bufferAt a.base i = bufferAt a.base j) : i = j := by
  have he := congrArg BitVec.toNat h
  rw [bufferAt_toNat, bufferAt_toNat] at he
  exact Fin.ext (by omega)

theorem bufferAt_ne_zero (a : BufferArray) (i : Req) : bufferAt a.base i ≠ 0 := by
  intro h
  have he := congrArg BitVec.toNat h
  rw [bufferAt_toNat] at he
  have hz : (0 : U32).toNat = 0 := rfl
  have hb : a.base.toNat ≠ 0 := fun h0 => a.mapped (BitVec.eq_of_toNat_eq h0)
  omega

/-- The end of the array. -/
theorem bufferEnd_toNat (a : BufferArray) :
    (a.base + bufferSize * BitVec.ofNat 32 maxBuffers).toNat = a.base.toNat + maxBuffers * 1024 := by
  have hfits := a.fits
  have he : (bufferSize * BitVec.ofNat 32 maxBuffers).toNat = maxBuffers * 1024 := rfl
  rw [BitVec.toNat_add, he]
  exact Nat.mod_eq_of_lt hfits

/-! ## Giving a buffer back -/

/-- Masking rounds down to a multiple of 1024. -/
theorem masked_toNat (x : U32) : (x &&& ~~~(maxMsgSize - 1)).toNat = x.toNat / 1024 * 1024 := by
  have hshift : x &&& ~~~(maxMsgSize - 1) = (x >>> 10) <<< 10 := by
    apply BitVec.eq_of_getLsbD_eq
    intro i hi
    interval_cases i <;> simp [maxMsgSize]
  rw [hshift, BitVec.toNat_shiftLeft, BitVec.toNat_ushiftRight, Nat.shiftLeft_eq, Nat.shiftRight_eq_div_pow]
  have hx := x.isLt
  have hp : (2 : Nat) ^ 10 = 1024 := rfl
  rw [hp]
  omega

/-- The index a free computes from an address. -/
def freeIndex (base buffer : U32) : U32 := ((buffer &&& ~~~(maxMsgSize - 1)) - base) / maxMsgSize

/-- It is the buffer's own exactly when the array lies at a multiple of 1024. -/
theorem freeIndex_eq_iff (a : BufferArray) (i : Req) :
    freeIndex a.base (bufferAt a.base i) = handleOf i ↔ a.base.toNat % 1024 = 0 := by
  have hm : maxMsgSize.toNat = 1024 := rfl
  have hi := i.isLt
  have hmax : maxRequests = 64 := rfl
  have hmaxb : maxBuffers = 64 := rfl
  have hfits := a.fits
  have hindex : (freeIndex a.base (bufferAt a.base i)).toNat =
      ((2 ^ 32 - a.base.toNat + (a.base.toNat + 1024 * i.val) / 1024 * 1024) % 2 ^ 32) / 1024 := by
    rw [freeIndex, BitVec.toNat_udiv, BitVec.toNat_sub, masked_toNat, bufferAt_toNat, hm]
  constructor
  · intro h
    have hn := congrArg BitVec.toNat h
    rw [hindex, handleOf_toNat] at hn
    omega
  · intro h
    apply BitVec.eq_of_toNat_eq
    rw [hindex, handleOf_toNat]
    omega

/-- A remove leaves every other request alone. -/
theorem remove_other {id : U32} {rc : Bool} {i : Req} (h : transRemoveRequest .std id db = .ok (rc, db'))
    (hi : id ≠ handleOf i) : db'.requests i = db.requests i := by
  unfold transRemoveRequest at h
  split at h
  · cases h
  split at h
  · obtain ⟨j, hj, h⟩ := bind_eq_ok.mp h
    cases h
    have hij : i ≠ j := by
      intro he
      exact hi ((requestSlot_eq_ok hj).trans (by rw [he]))
    exact release_requests_ne db hij
  · cases h
    rfl

/-- A free of an address in the array, or just past it. -/
theorem free_within (db : Database) (a : BufferArray) {x : U32} (hlo : a.base.toNat ≤ x.toNat)
    (hhi : x.toNat ≤ a.base.toNat + maxBuffers * 1024) : transPktchanFree .std a.base db x = (do
      let (_, db) ← transRemoveRequest .std (freeIndex a.base x) db
      .ok (true, db)) := by
  have hcond : a.base ≤ x ∧ x ≤ a.base + bufferSize * BitVec.ofNat 32 maxBuffers := by
    rw [BitVec.le_def, BitVec.le_def, bufferEnd_toNat]
    exact ⟨hlo, hhi⟩
  unfold transPktchanFree
  rw [if_pos hcond]
  rfl

/-- A free of any other. -/
theorem free_outside (a : BufferArray) {x : U32}
    (h : ¬ (a.base.toNat ≤ x.toNat ∧ x.toNat ≤ a.base.toNat + maxBuffers * 1024)) :
    transPktchanFree .std a.base db x = .ok (false, db) := by
  have hcond : ¬ (a.base ≤ x ∧ x ≤ a.base + bufferSize * BitVec.ofNat 32 maxBuffers) := by
    rw [BitVec.le_def, BitVec.le_def, bufferEnd_toNat]
    exact h
  unfold transPktchanFree
  rw [if_neg hcond]

/-- A free of the start of buffer `i` returns TRUE, makes request `i` invalid and changes
    no other request. -/
def FreesOwn (a : BufferArray) (db : Database) (i : Req) : Prop :=
  ∃ db', transPktchanFree .std a.base db (bufferAt a.base i) = .ok (true, db') ∧ (db'.requests i).valid = false ∧
    ∀ q, q ≠ i → db'.requests q = db.requests q

/-- Not in one of the buffers. -/
def Outside (a : BufferArray) (x : U32) : Prop :=
  ¬ (a.base.toNat ≤ x.toNat ∧ x.toNat < a.base.toNat + maxBuffers * 1024)

def RefusesFree (a : BufferArray) (db : Database) (x : U32) : Prop :=
  transPktchanFree .std a.base db x = .ok (false, db)

theorem freesOwn_iff (a : BufferArray) {i : Req} (hv : (db.requests i).valid = true)
    (hpool : db.requestReservesHeader.currCount < db.requestReservesHeader.maxCount) :
    FreesOwn a db i ↔ a.base.toNat % 1024 = 0 := by
  have hi := i.isLt
  have hmax : maxRequests = 64 := rfl
  have hmaxb : maxBuffers = 64 := rfl
  have hstart := bufferAt_toNat a i
  have hfree := free_within db a (x := bufferAt a.base i) (by omega) (by omega)
  rw [← freeIndex_eq_iff a i, FreesOwn, hfree]
  constructor
  · rintro ⟨db', h, hinv, -⟩
    by_contra hne
    obtain ⟨⟨rc, db1⟩, hrem, h⟩ := bind_eq_ok.mp h
    cases h
    rw [remove_other hrem hne, hv] at hinv
    cases hinv
  · intro he
    rw [he, remove_valid .std hv, if_pos hpool]
    refine ⟨db.release i, rfl, by simp, ?_⟩
    intro q hq
    exact release_requests_ne db hq

/-- Where it does not, the free of one buffer gives back the request of the one before. -/
theorem free_releases_previous (a : BufferArray) (ha : a.base.toNat % 1024 ≠ 0) {i j : Req} (hij : i.val = j.val + 1)
    (hv : (db.requests j).valid = true)
    (hpool : db.requestReservesHeader.currCount < db.requestReservesHeader.maxCount) :
    transPktchanFree .std a.base db (bufferAt a.base i) = .ok (true, db.release j) := by
  have hi := i.isLt
  have hmax : maxRequests = 64 := rfl
  have hmaxb : maxBuffers = 64 := rfl
  have hstart := bufferAt_toNat a i
  have hm : maxMsgSize.toNat = 1024 := rfl
  have hindex : freeIndex a.base (bufferAt a.base i) = handleOf j := by
    have hfits := a.fits
    apply BitVec.eq_of_toNat_eq
    rw [freeIndex, BitVec.toNat_udiv, BitVec.toNat_sub, masked_toNat, hstart, hm, handleOf_toNat]
    omega
  rw [free_within db a (by omega) (by omega), hindex, remove_valid .std hv, if_pos hpool]
  rfl

theorem refusesFree_iff (a : BufferArray) {x : U32} (hx : Outside a x) :
    RefusesFree a db x ↔ x.toNat ≠ a.base.toNat + maxBuffers * 1024 := by
  unfold Outside at hx
  constructor
  · intro h hend
    have hfree := free_within db a (x := x) (by omega) (by omega)
    obtain ⟨⟨rc, db1⟩, -, hres⟩ := bind_eq_ok.mp (hfree.symm.trans h)
    cases hres
  · intro hend
    exact free_outside a (by omega)

/-- Wherever the array lies, and in any pool that has a slot left, a free of the start of a
    reserved request's buffer frees that request and nothing else exactly when the
    array lies at a multiple of 1024; and an address outside the buffers is refused
    exactly when it is not the one just past the last. -/
theorem free_exact_iff (a : BufferArray) (db : Database) :
    (db.requestReservesHeader.currCount < db.requestReservesHeader.maxCount → ∀ i, (db.requests i).valid = true →
      (FreesOwn a db i ↔ a.base.toNat % 1024 = 0)) ∧
    ∀ x, Outside a x → (RefusesFree a db x ↔ x.toNat ≠ a.base.toNat + maxBuffers * 1024) :=
  ⟨fun hpool _ hv => freesOwn_iff a hv hpool, fun _ hx => refusesFree_iff a hx⟩

/-- The pool with request 0 reserved. -/
def oneReserved : Database := (transReserveRequest freshPool).2

/-- An array at a multiple of 1024. -/
def alignedArray : BufferArray := ⟨0x40000000, by decide, by decide⟩

/-- There buffer 0 frees its own request, and the address before it is refused. -/
theorem aligned_frees_own : FreesOwn alignedArray oneReserved 0 ∧ RefusesFree alignedArray oneReserved 0x3FFFFFFF :=
  have hiff := free_exact_iff alignedArray oneReserved
  ⟨(hiff.1 (by decide) 0 rfl).mpr (by decide), (hiff.2 _ (by unfold Outside; decide)).mpr (by decide)⟩

/-- In a page-aligned segment the array does not lie there, and no buffer can be freed. -/
theorem segment_frees_nothing :
    ¬ ∀ (a : BufferArray) (db : Database),
      db.requestReservesHeader.currCount < db.requestReservesHeader.maxCount → ∀ i, (db.requests i).valid = true →
        FreesOwn a db i := by
  intro h
  have hown := h (.inSegment 0x40000000 (by decide)) oneReserved (by decide) 0 rfl
  have hmod := (freesOwn_iff (.inSegment 0x40000000 (by decide)) (i := 0) rfl (by decide)).mp hown
  exact absurd hmod (by decide)

/-! ## Taking a buffer -/

/-- The driver has delivered a packet. -/
def Delivers (cs : List Command) : Prop := ∃ c ∈ cs, c.cmd = .recv ∧ c.reply.ret = 0

/-- The buffer is that of a request reserved by the call, the size is the length the driver
    reported, and the driver was told of no more room than a buffer has. -/
structure OwnsPacket (a : BufferArray) (before after : Database) (cs : List Command) (buffer size : U32) : Prop where
  slot : ∃ i, IsFree before i ∧ (after.requests i).valid = true ∧ buffer = bufferAt a.base i
  length : ∀ c ∈ cs, c.cmd = .recv → size = c.reply.pkt.bufLen ∧ c.pkt.bufLen ≤ bufferSize

/-- The call returns TRUE if and only if the driver delivered a packet, and owns it then;
    otherwise its caller's variables and the set of reserved requests are untouched. -/
def OwnsOrNothing (E : Env) (a : BufferArray) (w : World) (receiveHandle buffer receivedSize : U32) : Prop :=
  ∃ rc buffer' size' w' cs,
    transPktchanRecv .std E a.base w receiveHandle buffer receivedSize = .ok ((rc, buffer', size'), w') ∧
      commands w'.trace = commands w.trace ++ cs ∧ (rc ≠ 0 ↔ Delivers cs) ∧
      (rc ≠ 0 → OwnsPacket a w.db w'.db cs buffer' size') ∧
      (rc = 0 → buffer' = buffer ∧ size' = receivedSize ∧ reserved w'.db = reserved w.db)

/-- The driver's answer to the RECV of a packet receive that finds `k` and takes slot `i`. -/
def pktchanReply (E : Env) (a : BufferArray) (k : Slot) (i : Req) : Reply :=
  E.drv .recv (recvPkt k (bufferAt a.base i) E.locals.len)

/-- The endpoint is not there; or a slot is at the head of the free list and the driver
    delivers, with a capacity that fits and the length that `*received_size` already
    holds. (In a pool whose free list offers a reserved slot, a refusal changes nothing.) -/
def PacketInOrder (E : Env) (a : BufferArray) (w : World) (receiveHandle receivedSize : U32) : Prop :=
  match lookup w.db receiveHandle with
  | .error _ => False
  | .ok none => True
  | .ok (some k) =>
    match w.db.requestReservesHeader.emptyHeadIndex with
    | none => False
    | some i =>
      if IsFree w.db i then
        (pktchanReply E a k i).ret = 0 ∧ receivedSize = (pktchanReply E a k i).pkt.bufLen ∧ E.locals.len ≤ bufferSize
      else (pktchanReply E a k i).ret < 0

/-- How a receive ends, by its exits. -/
theorem pktchanRecv_missing (a : BufferArray) {h : U32} (hl : lookup w.db h = .ok none) (buffer size : U32) :
    transPktchanRecv .std E a.base w h buffer size = .ok ((0, buffer, size), w) := by
  unfold lookup at hl
  simp only [transPktchanRecv, assertDecode_std, hl, ok_bind]

theorem pktchanRecv_full (a : BufferArray) {h : U32} {k : Slot} (hl : lookup w.db h = .ok (some k))
    (hhead : w.db.requestReservesHeader.emptyHeadIndex = none) (buffer size : U32) :
    transPktchanRecv .std E a.base w h buffer size = .ok ((requestLimit, buffer, size), w) := by
  unfold lookup at hl
  simp only [transPktchanRecv, assertDecode_std, hl, ok_bind, transReserveRequest, hhead]

theorem pktchanRecv_command (a : BufferArray) {h : U32} {k : Slot} (hl : lookup w.db h = .ok (some k)) {i : Req}
    (hhead : w.db.requestReservesHeader.emptyHeadIndex = some i) (buffer size : U32) :
    ∃ w', transPktchanRecv .std E a.base w h buffer size =
        .ok ((if (pktchanReply E a k i).ret < 0 then (0, buffer, size) else (1, bufferAt a.base i, size)), w') ∧
      commands w'.trace =
        commands w.trace ++ [⟨.recv, recvPkt k (bufferAt a.base i) E.locals.len, pktchanReply E a k i⟩] ∧
      w'.db = w.db.take i := by
  unfold lookup at hl
  refine ⟨(ioctl E (setBlocking { w with db := w.db.take i } true) .recv
    (recvPkt k (bufferAt a.base i) E.locals.len)).2, ?_, by simp [pktchanReply], by simp⟩
  simp only [transPktchanRecv, assertDecode_std, hl, ok_bind, transReserveRequest, hhead,
    smRecvPacket_eq (bufferAt_ne_zero a i), received_ret]
  change (if (pktchanReply E a k i).ret < 0 then _ else _) = _
  split
  · rfl
  · rfl

/-- A receive without a command delivers nothing. -/
theorem not_delivers_nil : ¬ Delivers [] := by
  rintro ⟨c, hc, -⟩
  cases hc

theorem delivers_single {p : SmPacket} {r : Reply} : Delivers [⟨.recv, p, r⟩] ↔ r.ret = 0 := by
  simp [Delivers]

/-- With a slot and the driver's answer, the receive is in order under these conditions. -/
theorem recv_command_owns_iff (a : BufferArray) {h : U32} {k : Slot} (hl : lookup w.db h = .ok (some k)) {i : Req}
    (hhead : w.db.requestReservesHeader.emptyHeadIndex = some i) (buffer size : U32) :
    OwnsOrNothing E a w h buffer size ↔
      if IsFree w.db i then
        (pktchanReply E a k i).ret = 0 ∧ size = (pktchanReply E a k i).pkt.bufLen ∧ E.locals.len ≤ bufferSize
      else (pktchanReply E a k i).ret < 0 := by
  obtain ⟨w1, hrun, htrace, hdb⟩ := pktchanRecv_command (E := E) a hl hhead buffer size
  have hreserved : reserved w1.db = insert i (reserved w.db) := by rw [hdb, reserved_take]
  constructor
  · rintro ⟨rc, buffer', size', w', cs, hres, hcs, hrc, hown, hnothing⟩
    have heq := hrun.symm.trans hres
    simp only [Except.ok.injEq, Prod.mk.injEq] at heq
    obtain ⟨hvals, rfl⟩ := heq
    obtain rfl := List.append_cancel_left (htrace.symm.trans hcs)
    rw [delivers_single] at hrc
    by_cases hneg : (pktchanReply E a k i).ret < 0
    · rw [if_pos hneg] at hvals
      cases hvals
      have hsame := (hnothing rfl).2.2
      rw [hreserved, Finset.insert_eq_self, mem_reserved] at hsame
      rw [if_neg (by simp [IsFree, hsame])]
      exact hneg
    · rw [if_neg hneg] at hvals
      cases hvals
      have hret : (pktchanReply E a k i).ret = 0 := hrc.mp (by decide)
      have hown := hown (by decide)
      obtain ⟨j, hfree, -, hbuf⟩ := hown.slot
      obtain rfl := bufferAt_inj a hbuf
      rw [if_pos hfree]
      obtain ⟨hsize, hlen⟩ := hown.length _ (List.mem_singleton_self _) rfl
      exact ⟨hret, hsize, hlen⟩
  · intro hcond
    by_cases hfree : IsFree w.db i
    · rw [if_pos hfree] at hcond
      obtain ⟨hret, hsize, hlen⟩ := hcond
      have hneg : ¬ (pktchanReply E a k i).ret < 0 := by omega
      rw [if_neg hneg] at hrun
      refine ⟨_, _, _, _, _, hrun, htrace, ?_, ?_, ?_⟩
      · exact iff_of_true (by decide) (delivers_single.mpr hret)
      · intro _
        refine ⟨⟨i, hfree, ?_, rfl⟩, ?_⟩
        · rw [hdb]
          simp
        · intro c hc _
          obtain rfl := List.mem_singleton.mp hc
          exact ⟨hsize, hlen⟩
      · intro h0
        cases h0
    · rw [if_neg hfree] at hcond
      rw [if_pos hcond] at hrun
      have hv : (w.db.requests i).valid = true := by simpa [IsFree] using hfree
      refine ⟨_, _, _, _, _, hrun, htrace, ?_, ?_, ?_⟩
      · refine iff_of_false (by decide) ?_
        rw [delivers_single]
        omega
      · intro h0
        exact absurd rfl h0
      · intro _
        refine ⟨rfl, rfl, ?_⟩
        rw [hreserved, Finset.insert_eq_self]
        exact mem_reserved.mpr hv

/-- In any state and with any driver, a packet receive owns its buffer or nothing exactly
    when it is in order. -/
theorem recv_owns_iff (E : Env) (a : BufferArray) (w : World) (h buffer size : U32) :
    OwnsOrNothing E a w h buffer size ↔ PacketInOrder E a w h size := by
  unfold PacketInOrder
  cases hl : lookup w.db h with
  | error f =>
    refine iff_of_false ?_ (fun hno => hno)
    rintro ⟨rc, buffer', size', w', cs, hres, -⟩
    unfold lookup at hl
    simp only [transPktchanRecv, assertDecode_std, hl] at hres
    cases hres
  | ok k =>
    cases k with
    | none =>
      refine iff_of_true ⟨_, _, _, _, [], pktchanRecv_missing a hl buffer size, (List.append_nil _).symm, ?_, ?_, ?_⟩
        trivial
      · exact iff_of_false (by decide) not_delivers_nil
      · intro h0
        exact absurd rfl h0
      · intro _
        exact ⟨rfl, rfl, rfl⟩
    | some k =>
      dsimp only
      cases hhead : w.db.requestReservesHeader.emptyHeadIndex with
      | none =>
        refine iff_of_false ?_ (fun hno => hno)
        rintro ⟨rc, buffer', size', w', cs, hres, hcs, hrc, -⟩
        cases (pktchanRecv_full a hl hhead buffer size).symm.trans hres
        obtain ⟨c, hc, -⟩ := hrc.mp (by decide)
        rw [List.self_eq_append_right.mp hcs] at hc
        cases hc
      | some i => exact recv_command_owns_iff a hl hhead buffer size

/-- A receive the driver refuses keeps the slot it took. -/
theorem refused_packet_keeps_slot :
    ¬ ∀ w, Live w.db → ∀ E a h buffer size, OwnsOrNothing E a w h buffer size := by
  intro h
  have hown := h { db := onePort } onePort_live notYet alignedArray (endpointHandle 0 5) 0 0
  have hl : lookup onePort (endpointHandle 0 5) = .ok (some 1) := rfl
  have hcond := (recv_command_owns_iff (w := { db := onePort }) alignedArray hl rfl 0 0).mp hown
  have hfree : IsFree onePort 0 := rfl
  rw [if_pos hfree] at hcond
  exact absurd hcond.1 (by decide)

end Mcapi
