/-
  Mcapi.Loans — the packet buffers over whole runs of the transport, by any processes.

  Buffer `i` goes with request `i`: a receive on a packet channel takes both, and a free
  (`mcapi_trans_pktchan_free`) or an `mcapi_wait` on the request gives both back. The
  nonblocking packet operations write a record as well, the one that `*request` names
  (`setup_request_internal`). They never set `*request`, so it names whatever its caller
  left there; where that request is free, its record is marked reserved while it stays on the
  free list.

  - `pool_iff`: the free list stays exact throughout a run exactly if no step of it marks a
    free record or rebuilds the array with requests reserved.
  - `lent_once`: in such a run no buffer that is on loan is lent again. Where a free record
    is marked, the same buffer can be lent twice in a row (`marked_lends_twice`).
-/

import Mcapi.Connections
import Mcapi.Packets

namespace Mcapi

variable {E : Env} {w w' : World} {db db' : Database} {l : TransRec} {i : Req}

/-! ## What an operation does to the pool -/

/-- The calls that give buffer `i` and its request back. -/
def TransOp.GivesBack (i : Req) : TransOp → Prop
  | .wait v _ _ => v = handleOf i
  | .pktchanFree a x => freeIndex a x = handleOf i
  | _ => False

/-- An operation leaves the pool as it is, takes the head of the free list, gives a request
    back, or rebuilds the array with none reserved. -/
inductive PoolEffect (o : TransOp) (db db' : Database) : Prop
  | same : SamePool db db' → PoolEffect o db db'
  | takes (i : Req) : db.requestReservesHeader.emptyHeadIndex = some i → SamePool (db.take i) db' → PoolEffect o db db'
  | frees (i : Req) : o.GivesBack i → (db.requests i).valid = true → SamePool (db.release i) db' → PoolEffect o db db'
  | rebuilt : (∀ r, IsFree db r) → PoolInv db' → PoolEffect o db db'

/-- The answer of the driver to a packet receive that finds `k` and takes slot `i`. -/
def packetReceived (E : Env) (a : U32) (w : World) (k : Slot) (i : Req) : Received :=
  (smRecvPacket E { w with db := w.db.take i } (sessionOf k) E.locals.send.portId E.locals.send.nodeId
    (bufferAt a i) E.locals.len false).1

/-- The operation marks a free record as reserved, or rebuilds the array with requests
    reserved. -/
inductive Spoils (l : TransRec) : Prop
  | sends {h b n q : U32} {k : Slot} {r : Req} : l.op = .pktchanSendI h b n (some q) →
      lookup l.before.db h = .ok (some k) → requestSlot q = .ok r → IsFree l.before.db r → Spoils l
  | receives {a h b q : U32} {k : Slot} {i r : Req} : l.op = .pktchanRecvI a h b (some q) →
      lookup l.before.db h = .ok (some k) → l.before.db.requestReservesHeader.emptyHeadIndex = some i →
      0 ≤ (packetReceived l.env a l.before k i).ret → requestSlot q = .ok r → IsFree (l.before.db.take i) r → Spoils l
  | registers {d n : U32} {a : Option NodeAttributes} : l.op = .addNode d n a → reserved l.before.db ≠ ∅ → Spoils l

theorem PoolEffect.inv {o : TransOp} (he : PoolEffect o db db') (h : PoolInv db) : PoolInv db' := by
  cases he with
  | same hs => exact h.congr hs.1 hs.2
  | takes i hi hs => exact (h.take hi).congr hs.1 hs.2
  | frees i _ hv hs => exact (h.release hv).congr hs.1 hs.2
  | rebuilt _ hinv => exact hinv

/-- What is reserved stays so, unless it is given back. -/
theorem PoolEffect.keeps {o : TransOp} (he : PoolEffect o db db') (hi : (db.requests i).valid = true)
    (hno : ¬ o.GivesBack i) : (db'.requests i).valid = true := by
  cases he with
  | same hs => rw [hs.1, hi]
  | takes j _ hs =>
    rw [hs.1]
    exact (take_valid db j i).mpr (.inr hi)
  | frees j hj _ hs =>
    have hne : i ≠ j := by
      rintro rfl
      exact hno hj
    rw [hs.1]
    exact (release_valid db j i).mpr ⟨hne, hi⟩
  | rebuilt hfree _ => cases hi.symm.trans (hfree i)

theorem samePool_of_requests (hr : db'.requests = db.requests)
    (hh : db'.requestReservesHeader = db.requestReservesHeader) : SamePool db db' :=
  ⟨fun r => by rw [hr], hh⟩

theorem SamePool.of_eq (h : db' = db) : SamePool db db' := h ▸ .refl db

/-- A record rewritten. -/
theorem samePool_setRequest {r : Req} {d : RequestData} (hd : d.valid = (db.requests r).valid) :
    SamePool db (db.setRequest r d) := by
  refine ⟨fun q => ?_, rfl⟩
  by_cases hq : q = r
  · subst hq
    rw [setRequest_same, hd]
  · rw [setRequest_ne _ _ hq]

/-- A free record marked as reserved is counted as free. -/
theorem not_inv_of_marked (h : PoolInv db) {r : Req} (hr : IsFree db r) {d : RequestData} (hd : d.valid = true) :
    ¬ PoolInv (db.setRequest r d) := by
  intro h'
  have hset : reserved (db.setRequest r d) = insert r (reserved db) := by
    ext q
    by_cases hq : q = r
    · subst hq
      simp [hd]
    · simp [hq]
  have hnot : r ∉ reserved db := by
    rw [mem_reserved, hr]
    exact Bool.false_ne_true
  have hcount := h'.count
  rw [hset, Finset.card_insert_of_notMem hnot, setRequest_header, h.count] at hcount
  omega

/-! ## Operations that leave the pool alone -/

/-- However it ends, the flags and the free list are as they were. -/
abbrev PoolStays {A : Type} (w : World) (m : Res (A × World)) : Prop :=
  Outcome.Ends (fun _ w' => SamePool w.db w'.db) m

theorem setBlocking_stays (w : World) (b : Bool) : SamePool w.db (setBlocking w b).db := .of_eq (setBlocking_db w b)

section
variable (E w)

theorem transEndpointCreate_stays (e p : U32) (a : Bool) : PoolStays w (transEndpointCreate .std E w e p a) := by
  refine .ite (.ite .error (.ok (.refl _))) (.found .error fun i => .bind fun k _ => .ite .error (.ok ?_))
  exact samePool_of_requests rfl rfl

theorem transEndpointGet_stays (e n p t : U32) : PoolStays w (transEndpointGet .std E w e n p t) := by
  refine .found ?_ fun k => .ok (.refl _)
  exact .ite (.ok (setBlocking_stays w true)) (.ok (setBlocking_stays w true))

theorem transMsgSend_stays (s r b n : U32) : PoolStays w (transMsgSend .std E w s r b n) := by
  refine .found (.ok (.refl _)) fun k => ?_
  exact .ite (.ok (setBlocking_stays w true)) (.ok (setBlocking_stays w true))

theorem transMsgRecv_stays (r b n : U32) : PoolStays w (transMsgRecv .std E w r b n) := by
  refine .found (.ok (.refl _)) fun k => ?_
  have hw := smRecvPacket_db (E := E) w (sessionOf k) E.locals.send.portId E.locals.send.nodeId b n true
  dsimp only
  generalize smRecvPacket E _ _ _ _ _ _ _ = x at hw ⊢
  exact .ite (.ok (.of_eq hw)) (.ok (.of_eq hw))

theorem transMsgAvailable_stays (r : U32) : PoolStays w (transMsgAvailable .std E w r) := by
  refine .ite .error (.found (.ok (.refl _)) fun k => ?_)
  exact .ite (.ok (.refl _)) (.ok (.refl _))

theorem transConnected_stays (e : U32) : PoolStays w (transConnected .std E w e) := by
  refine .found (.ok (.refl _)) fun k => ?_
  exact .ite (.ok (.refl _)) (.ok (.refl _))

theorem transPktchanSend_stays (h b n : U32) : PoolStays w (transPktchanSend .std E w h b n) := by
  refine .andThen (P := fun _ w1 => SamePool w.db w1.db) ?_ fun x w1 h1 => ?_
  · exact .found (.ok (.refl _)) fun k => .ok (setBlocking_stays w true)
  · cases x with
    | none => exact .ok h1
    | some x => exact .ok h1

theorem transSclchanSend_stays (h : U32) (x : BitVec 64) (n : U32) :
    PoolStays w (transSclchanSend .std E w h x n) := by
  refine .found (.ok (.refl _)) fun k => ?_
  refine .bind fun i _ => .found (.ok (.refl _)) fun k => ?_
  exact .ok (setBlocking_stays w true)

theorem transSclchanRecv_stays (icc : PacketType → U32) (h : U32) (x : BitVec 64) (n : U32) :
    PoolStays w (transSclchanRecv .std E icc w h x n) := by
  refine .found (.ok (.refl _)) fun k => ?_
  have hw : (smRecvScalar E icc w (sessionOf k) 0 0 E.locals.type true).2.db = w.db := by
    unfold smRecvScalar
    dsimp only
    split
    · exact setBlocking_db w true
    · exact setBlocking_db w true
  dsimp only
  generalize smRecvScalar E icc w _ _ _ _ _ = y at hw ⊢
  refine .ite (.ok (.of_eq hw)) ?_
  split
  · exact .ok (.of_eq hw)
  · exact .ok (.of_eq hw)

end

theorem setEndpoint_stays (db : Database) (k : Slot) (e : EndpointEntry) : SamePool db (db.setEndpoint k e) :=
  samePool_of_requests rfl rfl

theorem transEndpointDelete_stays {e : U32} (hx : transEndpointDelete .std E w e = .ok w') : SamePool w.db w'.db := by
  obtain ⟨i, -, hx⟩ := bind_eq_ok.mp hx
  cases i with
  | none =>
    cases hx
    exact .refl _
  | some i =>
    obtain ⟨k, -, hx⟩ := bind_eq_ok.mp hx
    cases k <;> cases hx
    · exact .refl _
    · exact samePool_of_requests rfl rfl

theorem connect_stays {e r : U32} {t : ChannelType} (hx : transConnectChannelInternal .std E w e r t = .ok w') :
    SamePool w.db w'.db := by
  rcases connect_spec hx with hdb | ⟨j, -, -, hdb⟩
  · exact .of_eq hdb
  · rw [hdb]
    exact setEndpoint_stays ..

theorem channelConnected_stays {e : U32} {x : Bool} (hx : transChannelConnected .std E w e = .ok (x, w')) :
    SamePool w.db w'.db := by
  rcases channelConnected_spec hx with hdb | ⟨j, r, t, -, hdb⟩
  · exact .of_eq hdb
  · rw [hdb]
    exact setEndpoint_stays ..

theorem openChannel_stays {h e : U32} {st : Status} {x : U32 × Status}
    (hx : openChannel .std E w h e st = .ok (x, w')) : SamePool w.db w'.db := by
  rcases openChannel_spec hx with hdb | ⟨j, hdb⟩
  · exact .of_eq hdb
  · rw [hdb]
    exact setEndpoint_stays ..

theorem closeChannel_stays {h : U32} {st x : Status} (hx : closeChannel .std E w h st = .ok (x, w')) :
    SamePool w.db w'.db := by
  rcases closeChannel_spec hx with hdb | ⟨j, hdb⟩
  · exact .of_eq hdb
  · rw [hdb]
    exact setEndpoint_stays ..

/-! ## Operations that take or give back a request -/

theorem setup_stays {a b c n p : U32} {t : RequestType} (hi : (db.requests i).valid = true) :
    SamePool db (setupRequestInternal a b i c n p t db) := samePool_setRequest hi.symm

theorem recordSend_stays {a b n p : U32} {c : Bool} (hi : (db.requests i).valid = true) :
    SamePool db (recordSend i a b n p c db) :=
  have hset := samePool_setRequest (r := i) (d := { db.requests i with completed := c }) rfl
  hset.trans (setup_stays ((hset.1 i).trans hi))

theorem recordRecv_stays {a b p n : U32} {c : Bool} (hi : (db.requests i).valid = true) :
    SamePool db (recordRecv i a b p n c db) :=
  have hset := samePool_setRequest (r := i) (d := { db.requests i with completed := c, size := n }) rfl
  hset.trans (setup_stays ((hset.1 i).trans hi))

theorem taken_valid (db : Database) (i : Req) : ((db.take i).requests i).valid = true :=
  (take_valid db i i).mpr (.inl rfl)

section
variable (E w)

theorem transMsgSendI_effect (o : TransOp) (s r b n : U32) (q : Option U32) :
    Outcome.Ends (fun _ w' => PoolEffect o w.db w'.db) (transMsgSendI .std E w s r b n q) := by
  unfold transMsgSendI transReserveRequest
  cases hi : w.db.requestReservesHeader.emptyHeadIndex with
  | none => exact .ok (.same (.refl _))
  | some i =>
    refine .bind fun q _ => .found (.ok (.takes i hi (.refl _))) fun k => .ok (.takes i hi ?_)
    have hdb := setBlocking_db { w with db := w.db.take i } false
    exact (SamePool.of_eq hdb).trans (recordSend_stays (by rw [hdb]; exact taken_valid ..))

theorem transMsgRecvI_effect (o : TransOp) (r b n : U32) (q : Option U32) :
    Outcome.Ends (fun _ w' => PoolEffect o w.db w'.db) (transMsgRecvI .std E w r b n q) := by
  unfold transMsgRecvI transReserveRequest
  cases hi : w.db.requestReservesHeader.emptyHeadIndex with
  | none => exact .ok (.same (.refl _))
  | some i =>
    refine .bind fun q _ => .found (.ok (.takes i hi (.refl _))) fun k => ?_
    have hw := smRecvPacket_db (E := E) { w with db := w.db.take i } (sessionOf k) E.locals.send.portId
      E.locals.send.nodeId b n false
    dsimp only
    generalize smRecvPacket E _ _ _ _ _ _ _ = x at hw ⊢
    exact .ok (.takes i hi ((SamePool.of_eq hw).trans (recordRecv_stays (by rw [hw]; exact taken_valid ..))))

theorem transPktchanRecv_effect (o : TransOp) (a h b n : U32) :
    Outcome.Ends (fun _ w' => PoolEffect o w.db w'.db) (transPktchanRecv .std E a w h b n) := by
  refine .found (.ok (.same (.refl _))) fun k => ?_
  unfold transReserveRequest
  cases hi : w.db.requestReservesHeader.emptyHeadIndex with
  | none => exact .ok (.same (.refl _))
  | some i =>
    have hw := smRecvPacket_db (E := E) { w with db := w.db.take i } (sessionOf k) E.locals.send.portId
      E.locals.send.nodeId (bufferAt a i) E.locals.len true
    dsimp only
    generalize smRecvPacket E _ _ _ _ _ _ _ = x at hw ⊢
    exact .ite (.ok (.takes i hi (.of_eq hw))) (.ok (.takes i hi (.of_eq hw)))

end

theorem endpointGetI_effect {o : TransOp} {e d n p : U32} {q : Option U32} {x : Issue}
    (hx : transEndpointGetI .std E w e d n p q = .ok (x, w')) : PoolEffect o w.db w'.db := by
  have he := issue_effect (i := .endpointGetI d n p e) hx
  generalize w'.db = db' at he ⊢
  cases he with
  | quiet _ hq => exact .same (samePool_of_requests hq.1 hq.2)
  | reserve _ _ id d _ hid hd => exact .takes id hid (samePool_setRequest (hd.trans (taken_valid ..).symm))
  | rewrite r d hh => cases hh
  | drop r d hh => cases hh

/-- A remove that succeeds gives back a valid request. -/
theorem remove_effect {o : TransOp} {v : U32} {rc : Bool} (ho : ∀ i, v = handleOf i → o.GivesBack i)
    (h : transRemoveRequest .std v db = .ok (rc, db')) : PoolEffect o db db' := by
  unfold transRemoveRequest at h
  split at h
  · cases h
  rename_i hv
  have hv : transValidRequestHandle db v = true := by simpa using hv
  split at h
  · obtain ⟨i, hi, h⟩ := bind_eq_ok.mp h
    cases h
    obtain ⟨rfl, hvalid⟩ := valid_handle hv hi
    exact .frees i (ho i rfl) hvalid (.refl _)
  · cases h
    exact .same (.refl _)

theorem SamePool.take (h : SamePool db db') (i : Req) : SamePool (db.take i) (db'.take i) := by
  refine ⟨fun r => Bool.eq_iff_iff.mpr ?_, ?_⟩
  · rw [take_valid, take_valid, h.1]
  · simp only [Database.take, h.2]

theorem SamePool.release (h : SamePool db db') (i : Req) : SamePool (db.release i) (db'.release i) := by
  refine ⟨fun r => Bool.eq_iff_iff.mpr ?_, ?_⟩
  · rw [release_valid, release_valid, h.1]
  · simp only [Database.release, h.2]

/-- After what leaves the pool alone. -/
theorem PoolEffect.after {o : TransOp} {db1 : Database} (h : SamePool db db1) (he : PoolEffect o db1 db') :
    PoolEffect o db db' := by
  cases he with
  | same hs => exact .same (h.trans hs)
  | takes i hi hs => exact .takes i (h.2 ▸ hi) ((h.take i).trans hs)
  | frees i ho hi hs => exact .frees i ho ((h.1 i).symm.trans hi) ((h.release i).trans hs)
  | rebuilt hfree hinv => exact .rebuilt (fun r => (h.1 r).symm.trans (hfree r)) hinv

theorem dropRequest_effect {v : U32} {size : Option U32} {t : U32} (h : dropRequest .std w v = .ok w')
    (hw : SamePool db w.db) : PoolEffect (.wait v size t) db w'.db := by
  obtain ⟨⟨rc, db1⟩, hr, h⟩ := bind_eq_ok.mp h
  cases h
  exact .after hw (remove_effect (fun _ hv => hv) hr)

section
variable (E w)

theorem transTestI_stays (v : U32) (size : Option U32) : PoolStays w (transTestI .std E w v size) := by
  have hwait := setBlocking_db w false
  refine .ite .error (.bind fun id _ => .ite (.ok (.refl _)) (.ite (.ok (.refl _)) (.ite (.ok (.refl _))
    (.found (.ok (.refl _)) fun t => ?_))))
  refine .ite (.ok ?_) (.ite (.bind fun w1 h1 => .ok ?_) (.ok ?_))
  · exact (SamePool.of_eq hwait).trans (samePool_setRequest (by rw [hwait]))
  · have hdb : w1.db = w.db := (storeAt_db h1).trans hwait
    exact (SamePool.of_eq hdb).trans (samePool_setRequest (by rw [hdb]))
  · exact (SamePool.of_eq hwait).trans (samePool_setRequest (by rw [hwait]))

theorem transWait_effect (v : U32) (size : Option U32) (t : U32) :
    Outcome.Ends (fun _ w' => PoolEffect (.wait v size t) w.db w'.db) (transWait .std E w v size t) := by
  refine .ite .error (.bind fun id _ => .bind fun g _ => ?_)
  cases g with
  | none => exact .ok (.same (.refl _))
  | some g =>
    have hwait := setBlocking_db w true
    refine .ite (.bind fun w1 h1 => .ok (dropRequest_effect h1 (.refl _))) (.ite ?_ (.ite ?_ ?_))
    · exact .bind fun w1 h1 => .ok (dropRequest_effect h1 (.of_eq hwait))
    · exact .bind fun w1 h1 => .bind fun w2 h2 => .ok (dropRequest_effect h2 (.of_eq ((storeAt_db h1).trans hwait)))
    · refine .bind fun w1 h1 => .ok (dropRequest_effect h1 ?_)
      exact (SamePool.of_eq hwait).trans (samePool_setRequest (by rw [hwait]))

end

theorem pktchanFree_effect {a x : U32} {rc : Bool} (h : transPktchanFree .std a db x = .ok (rc, db')) :
    PoolEffect (.pktchanFree a x) db db' := by
  unfold transPktchanFree at h
  split at h
  · obtain ⟨⟨rc1, db1⟩, hr, h⟩ := bind_eq_ok.mp h
    cases h
    exact remove_effect (fun _ hv => hv) hr
  · cases h
    exact .same (.refl _)

/-! ## Operations that write the record `*request` names -/

theorem pktchanSendI_db {h b n : U32} {q : Option U32} {st : Status}
    (hx : transPktchanSendI .std E w h b n q = .ok (st, w')) :
    (w'.db = w.db ∧ (q = none ∨ lookup w.db h = .ok none)) ∨
    ∃ v k r d, q = some v ∧ lookup w.db h = .ok (some k) ∧ requestSlot v = .ok r ∧ d.valid = true ∧
      w'.db = w.db.setRequest r d := by
  obtain ⟨⟨y, w1⟩, hc, hx⟩ := bind_eq_ok.mp hx
  obtain ⟨k, hl, hc⟩ := bind_eq_ok.mp hc
  have hl : lookup w.db h = .ok k := hl
  cases k with
  | none =>
    cases hc
    cases hx
    exact .inl ⟨rfl, .inr hl⟩
  | some k =>
    have hw : w1.db = w.db := by
      cases hc
      exact setBlocking_db w false
    cases hc
    cases q with
    | none =>
      cases hx
      exact .inl ⟨hw, .inl rfl⟩
    | some v =>
      obtain ⟨r, hr, hx⟩ := bind_eq_ok.mp hx
      cases hx
      refine .inr ⟨v, k, r, _, rfl, hl, hr, ?_, congrArg (setupRequestInternal _ _ r 0 n 0 .send) hw⟩
      rfl

/-- A receive that takes no slot, that takes one, or that takes one and writes the record of
    another. -/
theorem pktchanRecvI_db {a h b : U32} {q : Option U32} {x : Status × U32}
    (hx : transPktchanRecvI .std E a w h b q = .ok (x, w')) :
    (w'.db = w.db ∧ x.1 ≠ .success ∧
      (lookup w.db h = .ok none ∨ w.db.requestReservesHeader.emptyHeadIndex = none)) ∨
    ∃ k i, lookup w.db h = .ok (some k) ∧ w.db.requestReservesHeader.emptyHeadIndex = some i ∧
      (x.1 = .success → x.2 = bufferAt a i) ∧
      ((w'.db = w.db.take i ∧ (q = none ∨ (packetReceived E a w k i).ret < 0)) ∨
      ∃ v r d, q = some v ∧ 0 ≤ (packetReceived E a w k i).ret ∧ requestSlot v = .ok r ∧ d.valid = true ∧
        w'.db = (w.db.take i).setRequest r d) := by
  obtain ⟨k, hl, hx⟩ := bind_eq_ok.mp hx
  have hl : lookup w.db h = .ok k := hl
  cases k with
  | none =>
    cases hx
    exact .inl ⟨rfl, nofun, .inl hl⟩
  | some k =>
    unfold transReserveRequest at hx
    cases hi : w.db.requestReservesHeader.emptyHeadIndex with
    | none =>
      rw [hi] at hx
      cases hx
      exact .inl ⟨rfl, nofun, .inr rfl⟩
    | some i =>
      rw [hi] at hx
      have hw := smRecvPacket_db (E := E) { w with db := w.db.take i } (sessionOf k) E.locals.send.portId
        E.locals.send.nodeId (bufferAt a i) E.locals.len false
      refine .inr ⟨k, i, hl, rfl, ?_⟩
      dsimp only at hx
      unfold packetReceived
      generalize smRecvPacket E _ _ _ _ _ _ _ = y at hx hw ⊢
      split at hx
      · rename_i hret
        cases hx
        exact ⟨nofun, .inl ⟨hw, .inr hret⟩⟩
      · rename_i hret
        cases q with
        | none =>
          cases hx
          exact ⟨fun _ => rfl, .inl ⟨hw, .inl rfl⟩⟩
        | some v =>
          obtain ⟨r, hr, hx⟩ := bind_eq_ok.mp hx
          cases hx
          refine ⟨fun _ => rfl, .inr ⟨v, r, _, rfl, not_lt.mp hret, hr, ?_,
            congrArg (setupRequestInternal _ _ r _ _ 0 .recv) hw⟩⟩
          rfl

/-! ## A step -/

variable {icc : PacketType → U32}

theorem addNode_effect {o : TransOp} (d n : U32) (a : Option NodeAttributes) (h : reserved db = ∅) :
    PoolEffect o db (transAddNode (transInitRequestIndexedArray db) d n a).2 := by
  have hfree (r : Req) : IsFree db r := by
    have hno : r ∉ reserved db := h ▸ Finset.notMem_empty r
    rwa [mem_reserved, Bool.not_eq_true] at hno
  refine .rebuilt hfree ((init_inv hfree).congr (fun r => ?_) (addNode_header ..))
  rw [addNode_requests]

/-- The value with which a computation ended, beside what it left. -/
theorem ends_world {A : Type} {Q : World → Prop} {m : Res (A × World)} (hm : Outcome.Ends (fun _ w' => Q w') m)
    (h : (do .ok (← m).2 : Res World) = .ok w') : Q w' := by
  obtain ⟨⟨x, w1⟩, hx, h⟩ := bind_eq_ok.mp h
  cases h
  exact hm x w1 hx

theorem step_pool (hs : TransStep icc db l db') (hno : ¬ Spoils l) : PoolEffect l.op db db' := by
  obtain ⟨rfl, rfl, hx⟩ := hs
  cases hop : l.op with
  | endpointCreate p a => exact .same (ends_world (transEndpointCreate_stays _ _ _ p a) (hop ▸ hx))
  | endpointDelete e => exact .same (transEndpointDelete_stays (show transEndpointDelete .std _ _ e = _ from hop ▸ hx))
  | endpointGet n p t => exact .same (ends_world (transEndpointGet_stays _ _ _ n p t) (hop ▸ hx))
  | endpointGetI e d n p q =>
    exact ends_world (Q := fun w' => PoolEffect _ l.before.db w'.db) (fun _ _ => endpointGetI_effect) (hop ▸ hx)
  | msgSendI s r b n q => exact ends_world (transMsgSendI_effect _ _ _ s r b n q) (hop ▸ hx)
  | msgSend s r b n => exact .same (ends_world (transMsgSend_stays _ _ s r b n) (hop ▸ hx))
  | msgRecvI r b n q => exact ends_world (transMsgRecvI_effect _ _ _ r b n q) (hop ▸ hx)
  | msgRecv r b n => exact .same (ends_world (transMsgRecv_stays _ _ r b n) (hop ▸ hx))
  | msgAvailable r => exact .same (ends_world (transMsgAvailable_stays _ _ r) (hop ▸ hx))
  | testI v s => exact .same (ends_world (transTestI_stays _ _ v s) (hop ▸ hx))
  | wait v s t => exact ends_world (transWait_effect _ _ v s t) (hop ▸ hx)
  | connect e r t =>
    exact .same (connect_stays (show transConnectChannelInternal .std _ _ e r t = _ from hop ▸ hx))
  | channelConnected e =>
    exact .same (ends_world (Q := fun w' => SamePool l.before.db w'.db) (fun _ _ => channelConnected_stays) (hop ▸ hx))
  | connected e => exact .same (ends_world (transConnected_stays _ _ e) (hop ▸ hx))
  | openChannel h e st =>
    exact .same (ends_world (Q := fun w' => SamePool l.before.db w'.db) (fun _ _ => openChannel_stays) (hop ▸ hx))
  | closeChannel h st =>
    exact .same (ends_world (Q := fun w' => SamePool l.before.db w'.db) (fun _ _ => closeChannel_stays) (hop ▸ hx))
  | pktchanSendI h b n q =>
    rw [hop] at hx
    obtain ⟨⟨x, w1⟩, hx, he⟩ := bind_eq_ok.mp hx
    cases he
    rcases pktchanSendI_db hx with ⟨hdb, -⟩ | ⟨v, k, r, d, rfl, hl, hr, hd, hdb⟩
    · exact .same (.of_eq hdb)
    · have hvalid : (l.before.db.requests r).valid = true := by
        by_contra hv
        exact hno (.sends hop hl hr (Bool.eq_false_of_not_eq_true hv))
      rw [hdb]
      exact .same (samePool_setRequest (hd.trans hvalid.symm))
  | pktchanSend h b n => exact .same (ends_world (transPktchanSend_stays _ _ h b n) (hop ▸ hx))
  | pktchanRecvI a h b q =>
    rw [hop] at hx
    obtain ⟨⟨x, w1⟩, hx, he⟩ := bind_eq_ok.mp hx
    cases he
    rcases pktchanRecvI_db hx with ⟨hdb, -⟩ | ⟨k, i, hl, hi, -, ⟨hdb, -⟩ | ⟨v, r, d, rfl, hret, hr, hd, hdb⟩⟩
    · exact .same (.of_eq hdb)
    · exact .takes i hi (.of_eq hdb)
    · have hvalid : ((l.before.db.take i).requests r).valid = true := by
        by_contra hv
        exact hno (.receives hop hl hi hret hr (Bool.eq_false_of_not_eq_true hv))
      rw [hdb]
      exact .takes i hi (samePool_setRequest (hd.trans hvalid.symm))
  | pktchanRecv a h b n => exact ends_world (transPktchanRecv_effect _ _ _ a h b n) (hop ▸ hx)
  | pktchanFree a x =>
    rw [hop] at hx
    obtain ⟨⟨rc, db1⟩, hx, he⟩ := bind_eq_ok.mp hx
    rw [← Except.ok.inj he]
    exact pktchanFree_effect hx
  | sclchanSend h x n => exact .same (ends_world (transSclchanSend_stays _ _ h x n) (hop ▸ hx))
  | sclchanRecv h x n => exact .same (ends_world (transSclchanRecv_stays _ _ _ h x n) (hop ▸ hx))
  | addNode d n a =>
    rw [hop] at hx
    rw [← Except.ok.inj hx]
    refine addNode_effect d n a ?_
    by_contra hne
    exact hno (.registers hop hne)

theorem spoiled (h : PoolInv db) (hs : TransStep icc db l db') (hsp : Spoils l) : ¬ PoolInv db' := by
  obtain ⟨rfl, rfl, hx⟩ := hs
  cases hsp with
  | @sends e b n v k r hop hl hr hfree =>
    rw [hop] at hx
    obtain ⟨⟨x, w1⟩, hx, he⟩ := bind_eq_ok.mp hx
    cases he
    rcases pktchanSendI_db hx with ⟨-, hno | hno⟩ | ⟨v', k', r', d, hv, -, hr', hd, hdb⟩
    · cases hno
    · cases hl.symm.trans hno
    · cases hv
      cases hr.symm.trans hr'
      rw [hdb]
      exact not_inv_of_marked h hfree hd
  | @receives a e b v k i r hop hl hi hret hr hfree =>
    rw [hop] at hx
    obtain ⟨⟨x, w1⟩, hx, he⟩ := bind_eq_ok.mp hx
    cases he
    rcases pktchanRecvI_db hx with ⟨-, -, hno | hno⟩ | ⟨k', i', hl', hi', -, hends⟩
    · cases hl.symm.trans hno
    · cases hi.symm.trans hno
    · cases hl.symm.trans hl'
      cases hi.symm.trans hi'
      rcases hends with ⟨-, hno | hno⟩ | ⟨v', r', d, hv, -, hr', hd, hdb⟩
      · cases hno
      · exact absurd hret (not_le.mpr hno)
      · cases hv
        cases hr.symm.trans hr'
        rw [hdb]
        exact not_inv_of_marked (h.take hi) hfree hd
  | registers hop hne =>
    rename_i d n a
    rw [hop] at hx
    rw [← Except.ok.inj hx]
    intro h'
    -- the counter starts again from zero, and the records are as they were
    have hcount := h'.count
    have hset : reserved (transAddNode (transInitRequestIndexedArray l.before.db) d n a).2 = reserved l.before.db := by
      ext q
      rw [mem_reserved, mem_reserved, addNode_requests]
      exact Iff.rfl
    dsimp only at hcount
    rw [hset, addNode_header] at hcount
    have hcount : (0 : Int) = (reserved l.before.db).card := hcount
    have hzero : (reserved l.before.db).card = 0 := by exact_mod_cast hcount.symm
    exact hne (Finset.card_eq_zero.mp hzero)

theorem step_pool_iff (h : PoolInv db) (hs : TransStep icc db l db') : PoolInv db' ↔ ¬ Spoils l :=
  ⟨fun h' hsp => spoiled h hs hsp h', fun hno => (step_pool hs hno).inv h⟩

theorem transStep_unique {u : Database} (h : TransStep icc db l db') (h' : TransStep icc db l u) : db' = u :=
  h.2.1.symm.trans h'.2.1

/-- In any run from a sound pool, by any processes and with any driver: the free list holds
    exactly the free requests, and the counter counts the others, in every state of the run,
    exactly if no step of it marks a free record or rebuilds the array with requests
    reserved. -/
theorem pool_iff {ls : List TransRec} (h : PoolInv db) (hrun : Lts.Run (TransStep icc) db ls db') :
    (∀ u, Lts.Visits (TransStep icc) db ls u → PoolInv u) ↔ ∀ l ∈ ls, ¬ Spoils l := by
  have hiff : (∀ u, Lts.Visits (TransStep icc) db ls u → PoolInv u) ↔
      ∀ l u, Lts.Turn (TransStep icc) db ls l u → ¬ Spoils l :=
    hrun.visits_iff (I := fun _ => True) transStep_unique (fun _ _ => trivial) (fun _ hp hs => step_pool_iff hp hs)
      trivial h
  refine hiff.trans ⟨fun hall l hl => ?_, fun hall l u hu => ?_⟩
  · obtain ⟨u, hu⟩ := hrun.turn hl
    exact hall l u hu
  · obtain ⟨pre, post, rfl, -⟩ := hu
    exact hall l (by simp)

/-- The operation with `errno` clear and a driver that takes every command. -/
def TransOp.willingly (o : TransOp) (db : Database) : TransRec := ⟨willing, o, { db := db }, o.after willing db⟩

/-- A nonblocking send from port 5, with a request pointer to a 0. -/
def sends5 : TransOp := .pktchanSendI (endpointHandle 0 5) 4096 4 (some 0)

def marks0 : TransRec := sends5.willingly onePort

theorem marks0_step : TransStep (fun _ => 0) onePort marks0 marks0.after.db := after_step rfl

/-- It marks request 0, which is free. -/
theorem marks0_spoils : ¬ ∀ u, Lts.Visits (TransStep fun _ => 0) onePort [marks0] u → PoolInv u := by
  have hspoils : Spoils marks0 := .sends (k := 1) rfl rfl rfl rfl
  rw [pool_iff onePort_live.inv (.single marks0_step)]
  exact fun hall => hall marks0 (List.mem_singleton_self _) hspoils

/-! ## Buffers on loan -/

/-- A packet receive that returned the start of buffer `i`. -/
inductive Lends (l : TransRec) (i : Req) : Prop
  | receives {a h b n size : U32} : l.op = .pktchanRecv a h b n →
      transPktchanRecv .std l.env a l.before h b n = .ok ((1, bufferAt a i, size), l.after) → Lends l i
  | receivesI {a h b : U32} {q : Option U32} : l.op = .pktchanRecvI a h b q →
      transPktchanRecvI .std l.env a l.before h b q = .ok ((.success, bufferAt a i), l.after) → Lends l i

/-- Lent by a step, and not given back by any after it. -/
def OnLoan (ls : List TransRec) (i : Req) : Prop :=
  ∃ pre l post, ls = pre ++ l :: post ∧ Lends l i ∧ ∀ l' ∈ post, ¬ l'.op.GivesBack i

/-- The starts of the buffers differ, wherever the array lies. -/
theorem bufferAt_ne {a : U32} {j : Req} (h : bufferAt a i = bufferAt a j) : i = j := by
  have hi := i.isLt
  have hj := j.isLt
  have hmax : maxRequests = 64 := rfl
  have hs : bufferSize.toNat = 1024 := rfl
  have hnat := congrArg BitVec.toNat ((BitVec.add_right_inj a).mp h)
  rw [BitVec.toNat_mul, BitVec.toNat_mul, hs, BitVec.toNat_ofNat, BitVec.toNat_ofNat] at hnat
  exact Fin.ext (by omega)

/-- A blocking receive that returns TRUE took the slot of its buffer. -/
theorem pktchanRecv_taken {a h b n size : U32} {E : Env}
    (hx : transPktchanRecv .std E a w h b n = .ok ((1, bufferAt a i, size), w')) :
    w.db.requestReservesHeader.emptyHeadIndex = some i ∧ w'.db = w.db.take i := by
  have hfalse : (0 : Boolean) ≠ 1 := by decide
  have hlimit : requestLimit ≠ 1 := by decide
  have hrc {x y : Boolean × U32 × U32} {v v' : World} (hne : x.1 ≠ y.1) : (Except.ok (x, v) : Res _) ≠ .ok (y, v') := by
    intro he
    cases he
    exact hne rfl
  obtain ⟨k, -, hx⟩ := bind_eq_ok.mp hx
  cases k with
  | none => exact absurd hx (hrc hfalse)
  | some k =>
    unfold transReserveRequest at hx
    cases hj : w.db.requestReservesHeader.emptyHeadIndex with
    | none =>
      rw [hj] at hx
      exact absurd hx (hrc hlimit)
    | some j =>
      rw [hj] at hx
      have hw := smRecvPacket_db (E := E) { w with db := w.db.take j } (sessionOf k) E.locals.send.portId
        E.locals.send.nodeId (bufferAt a j) E.locals.len true
      dsimp only at hx
      generalize smRecvPacket E _ _ _ _ _ _ _ = y at hx hw
      split at hx
      · exact absurd hx (hrc hfalse)
      · have hbuf : bufferAt a j = bufferAt a i := congrArg (fun x => x.1.2.1) (Except.ok.inj hx)
        have hdb : y.2 = w' := congrArg Prod.snd (Except.ok.inj hx)
        obtain rfl := bufferAt_ne hbuf
        exact ⟨rfl, hdb ▸ hw⟩

theorem Lends.taken (h : Lends l i) :
    l.before.db.requestReservesHeader.emptyHeadIndex = some i ∧ (l.after.db.requests i).valid = true := by
  cases h with
  | receives _ hx =>
    obtain ⟨hi, hdb⟩ := pktchanRecv_taken hx
    exact ⟨hi, by rw [hdb]; exact taken_valid ..⟩
  | receivesI _ hx =>
    rcases pktchanRecvI_db hx with ⟨-, hno, -⟩ | ⟨k, j, -, hj, hbuf, hends⟩
    · exact absurd rfl hno
    obtain rfl := bufferAt_ne (hbuf rfl)
    refine ⟨hj, ?_⟩
    rcases hends with ⟨hdb, -⟩ | ⟨v, r, d, -, -, -, hd, hdb⟩
    · rw [hdb]
      exact taken_valid ..
    · rw [hdb]
      by_cases hr : i = r
      · subst hr
        rw [setRequest_same, hd]
      · rw [setRequest_ne _ _ hr]
        exact taken_valid ..

theorem pool_run {ls : List TransRec} (h : PoolInv db) (hrun : Lts.Run (TransStep icc) db ls db')
    (hno : ∀ l ∈ ls, ¬ Spoils l) : PoolInv db' :=
  hrun.keeps (fun hl hp hs => (step_pool hs (hno _ hl)).inv hp) h

/-- A buffer on loan has its request reserved. -/
theorem onLoan_reserved {ls : List TransRec} (hrun : Lts.Run (TransStep icc) db ls db') (hno : ∀ l ∈ ls, ¬ Spoils l)
    (hl : OnLoan ls i) : (db'.requests i).valid = true := by
  obtain ⟨pre, l, post, rfl, hlends, hback⟩ := hl
  obtain ⟨u, -, hrun⟩ := hrun.of_append
  cases hrun with
  | cons hs hpost =>
    refine hpost.keeps (I := fun db => (db.requests i).valid = true) (fun {_ l' _} hl' hi hs' => ?_) ?_
    · exact (step_pool hs' (hno l' (by simp [hl']))).keeps hi (hback l' hl')
    · rw [← hs.2.1]
      exact hlends.taken.2

/-- In such a run, no packet receive returns a buffer that an earlier one has returned and that
    has since been given back neither by a free of an address that leads to it nor by a wait on
    its request. -/
theorem lent_once {ls pre post : List TransRec} (h : PoolInv db) (hrun : Lts.Run (TransStep icc) db ls db')
    (hno : ∀ l ∈ ls, ¬ Spoils l) (hls : ls = pre ++ l :: post) (hl : Lends l i) : ¬ OnLoan pre i := by
  intro hloan
  subst hls
  obtain ⟨u, hpre, hrest⟩ := hrun.of_append
  have hno (l' : TransRec) (hl' : l' ∈ pre) : ¬ Spoils l' := hno l' (List.mem_append_left _ hl')
  cases hrest with
  | cons hs _ =>
    have hhead : u.requestReservesHeader.emptyHeadIndex = some i := hs.1 ▸ hl.taken.1
    have hfree : (u.requests i).valid = false := (pool_run h hpre hno).head_free hhead
    cases hfree.symm.trans (onLoan_reserved hpre hno hloan)

/-- A receive on port 5. -/
def receives5 : TransOp := .pktchanRecv 0x40000000 (endpointHandle 0 5) 0 0

def loan0 : TransRec := receives5.willingly onePort
def loan1 : TransRec := receives5.willingly loan0.after.db

theorem loan0_step : TransStep (fun _ => 0) onePort loan0 loan0.after.db := after_step rfl

theorem loan1_step : TransStep (fun _ => 0) loan0.after.db loan1 loan1.after.db := after_step rfl

theorem receives5_sound (db : Database) : ¬ Spoils (receives5.willingly db) := by
  intro h
  cases h with
  | sends hop => cases hop
  | receives hop => cases hop
  | registers hop => cases hop

/-- Two receives, two buffers. -/
theorem second_loan_new : ¬ OnLoan [loan0] 1 := by
  have hlends : Lends loan1 1 := .receives rfl rfl
  refine lent_once onePort_live.inv (.cons loan0_step (.single loan1_step)) (fun l hl => ?_) rfl hlends
  rcases List.mem_pair.mp hl with rfl | rfl <;> exact receives5_sound _

def waits0 : TransRec := (TransOp.wait 0 (some 0) 5).willingly marks0.after.db
def loan0a : TransRec := receives5.willingly waits0.after.db
def loan0b : TransRec := receives5.willingly loan0a.after.db

/-- After `marks0`, a wait on request 0 puts it on the free list a second time, and two
    receives return the same buffer. -/
theorem marked_lends_twice :
    ∃ db, Lts.Run (TransStep fun _ => 0) onePort [marks0, waits0, loan0a, loan0b] db ∧
      OnLoan [marks0, waits0, loan0a] 0 ∧ Lends loan0b 0 := by
  have hwait : TransStep (fun _ => 0) marks0.after.db waits0 waits0.after.db := after_step rfl
  have ha : TransStep (fun _ => 0) waits0.after.db loan0a loan0a.after.db := after_step rfl
  have hb : TransStep (fun _ => 0) loan0a.after.db loan0b loan0b.after.db := after_step rfl
  have hlends : Lends loan0a 0 := .receives rfl rfl
  have hagain : Lends loan0b 0 := .receives rfl rfl
  have hloan : OnLoan [marks0, waits0, loan0a] 0 :=
    ⟨[marks0, waits0], loan0a, [], rfl, hlends, fun l hl => absurd hl List.not_mem_nil⟩
  exact ⟨_, .cons marks0_step (.cons hwait (.cons ha (.single hb))), hloan, hagain⟩

end Mcapi
