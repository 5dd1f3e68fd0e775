/-
  Mcapi.Connections — where the sends of a connected channel go
  (`mcapi_trans_connect_channel_internal`, `mcapi_trans_pktchan_send`,
  `mcapi_trans_pktchan_send_i`, `mcapi_trans_sclchan_send`).

  A connect leaves the peer in the entry of its send endpoint, in node entry 0
  (`PeerOf`). Whatever is done afterwards, it stays there as long as the endpoint is
  neither deleted nor connected again (`Untouched`) and no create comes before it on its
  port or wraps the count of endpoints round (`StaysFirst`); the transport itself checks
  neither. Then the packet sends, which read the peer back from node entry 0, go to it.

  The scalar send reads it from the entry whose index is the node number. On node 0 that
  is the same entry; on node 1 it is one without endpoints, and the scalar goes to port 0
  of node 0; on other nodes it is past the end of the array (`channel_sends_iff`).
-/

import Mcapi.Scalars
import Mcapi.TransportRuns

namespace Mcapi

variable {E : Env} {w w' : World} {db db' : Database} {s r h : U32} {j k : Slot} {icc : PacketType → U32}

/-! ## The table over a run -/

theorem addNode_others (h : ∀ i, i ≠ 0 → ∀ j, ((db.domains 0).nodes i).endpoints j = {}) (d n : U32)
    (a : Option NodeAttributes) :
    ∀ i, i ≠ 0 → ∀ j, (((transAddNode db d n a).2.domains 0).nodes i).endpoints j = {} := by
  intro i hi j
  have hcases := addNode_cases db d n a
  generalize transAddNode db d n a = x at hcases ⊢
  cases hcases with
  | refused => exact h i hi j
  | added m i' attributes =>
    by_cases hm : m = 0
    · subst hm
      by_cases hi' : i = i'
      · simp [Database.addNode, hi']
      · simpa [Database.addNode, hi'] using h i hi j
    · have hother : (db.addNode m i' d ⟨n, true, attributes, 1, fun _ => {}⟩).domains 0 = db.domains 0 :=
        Function.update_of_ne (Ne.symm hm) ..
      rw [hother]
      exact h i hi j

namespace OneTable

theorem congr (h : OneTable db) (hd : db'.domains = db.domains) : OneTable db' :=
  ⟨h.registered.congr (.of_eq hd), by rw [hd]; exact h.others⟩

theorem setNode (h : OneTable db) {x : NodeEntry} (hv : x.valid = db.node0.valid) (hn : x.nodeNum = db.node0.nodeNum) :
    OneTable (db.setNode 0 x) := by
  refine ⟨h.registered.congr (.setNode hv hn), ?_⟩
  intro i hi j
  rw [setNode_other db hi]
  exact h.others i hi j

theorem rebuilt (h : OneTable db) : OneTable (transInitRequestIndexedArray db) := h.congr rfl

theorem addNode (h : OneTable db) (d n : U32) (a : Option NodeAttributes) : OneTable (transAddNode db d n a).2 :=
  ⟨.addNode (.inr h.registered) d n a, addNode_others h.others d n a⟩

theorem initialised (d n : U32) (a : Option NodeAttributes) : OneTable (initialised d n a) := by
  have hfresh : freshPool.domains = zeroed.domains := rfl
  exact ⟨.addNode (.inl hfresh) d n a, addNode_others (fun _ _ _ => rfl) d n a⟩

theorem step (h : OneTable db) {l : TransRec} (hs : TransStep icc db l db') : OneTable db' := by
  cases step_effect h hs with
  | kept db' hd => exact h.congr hd
  | created => exact h.setNode rfl rfl
  | deleted => exact h.setNode rfl rfl
  | connected => exact h.setNode rfl rfl
  | noted => exact h.setNode rfl rfl
  | opened => exact h.setNode rfl rfl
  | added d n a => exact h.rebuilt.addNode d n a

end OneTable

/-! ## A peer stays -/

/-- The first on a port is the first when an entry is written that is on a port at most
    as it was, and still valid if it is the one. -/
theorem First.write {x : NodeEntry} {p : U32} {entry : EndpointEntry} (h : First x p k)
    (hold : entry.valid = true → (x.endpoints j).valid = true ∧ entry.portNum = (x.endpoints j).portNum)
    (hsame : j = k → entry.valid = true) :
    First { x with endpoints := Function.update x.endpoints j entry } p k := by
  obtain ⟨hmatch, hbefore⟩ := h
  refine ⟨?_, ?_⟩
  · rw [portMatches_iff] at hmatch ⊢
    by_cases hkj : k = j
    · subst hkj
      simp only [Function.update_self]
      obtain ⟨hbelow, -, hport⟩ := hmatch
      exact ⟨hbelow, hsame rfl, (hold (hsame rfl)).2.trans hport⟩
    · simpa only [Function.update_of_ne hkj] using hmatch
  · intro m hm
    rw [← Bool.not_eq_true]
    intro ht
    have hno := hbefore m hm
    rw [portMatches_iff] at ht
    by_cases hmj : m = j
    · subst hmj
      simp only [Function.update_self] at ht
      obtain ⟨hbelow, hvalid, hport⟩ := ht
      obtain ⟨hv, hp⟩ := hold hvalid
      rw [portMatches_iff.mpr ⟨hbelow, hv, hp.symm.trans hport⟩] at hno
      cases hno
    · simp only [Function.update_of_ne hmj] at ht
      rw [portMatches_iff.mpr ht] at hno
      cases hno

/-- And it is when a free entry is filled and counted that comes after it on the port, as
    long as the count still covers it. -/
theorem First.counted {x : NodeEntry} {p : U32} {entry : EndpointEntry} (h : First x p k)
    (hkj : k ≠ j) (hcount : k.val < (x.numEndpoints + 1).toNat) (hafter : entry.portNum = p → k < j) :
    First (x.counted j entry) p k := by
  obtain ⟨hmatch, hbefore⟩ := h
  obtain ⟨hbelow, hvalid, hport⟩ := portMatches_iff.mp hmatch
  have hother {m : Slot} (hm : m ≠ j) : (x.counted j entry).endpoints m = x.endpoints m := Function.update_of_ne hm ..
  refine ⟨portMatches_iff.mpr ?_, ?_⟩
  · rw [hother hkj]
    exact ⟨hcount, hvalid, hport⟩
  · intro m hm
    rw [← Bool.not_eq_true]
    intro ht
    obtain ⟨-, hv, hp⟩ := portMatches_iff.mp ht
    by_cases hmj : m = j
    · subst hmj
      have hself : (x.counted m entry).endpoints m = entry := Function.update_self ..
      rw [hself] at hp
      exact lt_asymm hm (hafter hp)
    · rw [hother hmj] at hv hp
      have hno := hbefore m hm
      rw [portMatches_iff.mpr ⟨lt_trans hm hbelow, hv, hp⟩] at hno
      cases hno

/-- In this node the handle `s` leads to entry `k`, which is connected to `r`. -/
structure PeerOf (s r : U32) (k : Slot) (x : NodeEntry) : Prop where
  number : x.nodeNum = (transDecodeHandleInternal s).nodeId.setWidth 32
  first : First x (portOf s) k
  connected : (x.endpoints k).connected = true
  peer : (x.endpoints k).recvQueue.recvEndpt = r

/-- The endpoint in entry `k` is not deleted, and not connected. -/
structure Untouched (k : Slot) (db : Database) (l : TransRec) : Prop where
  deletes : ∀ e, l.op = .endpointDelete e → lookup db e ≠ .ok (some k)
  connects : ∀ e r t, l.op = .connect e r t → lookup db e = .ok (some k) → ¬ Connects l.env k r t

/-- What is created leaves entry `k` below the count, and does not come before it on the
    port of `s`. -/
def StaysFirst (s : U32) (k : Slot) (db : Database) (l : TransRec) : Prop :=
  ∀ p a, l.op = .endpointCreate p a → k.val < (db.node0.numEndpoints + 1).toNat ∧
    (p = portOf s → ∀ j, slotOf (l.env.drv .create (createPkt p)).pkt.sessionIdx = .ok j → k < j)

namespace PeerOf

variable {x : NodeEntry} {entry : EndpointEntry}

/-- It survives the writing of an entry, if the one it is about keeps its peer. -/
theorem write (h : PeerOf s r k x)
    (hold : entry.valid = true → (x.endpoints j).valid = true ∧ entry.portNum = (x.endpoints j).portNum)
    (hsame : j = k → entry.valid = true ∧ entry.connected = true ∧ entry.recvQueue.recvEndpt = r) :
    PeerOf s r k { x with endpoints := Function.update x.endpoints j entry } := by
  have hfirst := h.first.write hold fun hjk => (hsame hjk).1
  by_cases hkj : k = j
  · subst hkj
    obtain ⟨-, hconn, hpeer⟩ := hsame rfl
    refine ⟨h.number, hfirst, ?_, ?_⟩
    · simpa only [Function.update_self] using hconn
    · simpa only [Function.update_self] using hpeer
  · refine ⟨h.number, hfirst, ?_, ?_⟩
    · simpa only [Function.update_of_ne hkj] using h.connected
    · simpa only [Function.update_of_ne hkj] using h.peer

/-- It survives a create in a free entry, if that comes after it on the port. -/
theorem counted (h : PeerOf s r k x) (hfree : (x.endpoints j).valid = false)
    (hcount : k.val < (x.numEndpoints + 1).toNat) (hafter : entry.portNum = portOf s → k < j) :
    PeerOf s r k (x.counted j entry) := by
  have hkj : k ≠ j := by
    rintro rfl
    cases hfree.symm.trans (portMatches_iff.mp h.first.1).2.1
  have hentry : (x.counted j entry).endpoints k = x.endpoints k := Function.update_of_ne hkj ..
  refine ⟨h.number, h.first.counted hkj hcount hafter, ?_, ?_⟩
  · rw [hentry]
    exact h.connected
  · rw [hentry]
    exact h.peer

theorem lookup (h : PeerOf s r k db.node0) (ht : OneTable db) : lookup db s = .ok (some k) :=
  ht.lookup_iff.mpr ⟨⟨ht.registered.first.listed, h.number⟩, h.first⟩

theorem step (h : PeerOf s r k db.node0) (ht : OneTable db) {l : TransRec} (hs : TransStep icc db l db')
    (hu : Untouched k db l) (hf : StaysFirst s k db l) : PeerOf s r k db'.node0 := by
  have hvalid : (db.node0.endpoints k).valid = true := (portMatches_iff.mp h.first.1).2.1
  cases step_effect ht hs with
  | kept db' hd =>
    have hnode : db'.node0 = db.node0 := by rw [Database.node0, hd]; rfl
    rw [hnode]
    exact h
  | created j p a entry hop hj hfree _ hport =>
    obtain ⟨hcount, hafter⟩ := hf p a hop
    rw [Database.node0, setNode_same]
    exact h.counted hfree hcount fun hp => hafter (hport.symm.trans hp) j hj
  | deleted j e hop hl =>
    rw [Database.node0, Database.setEndpoint, setNode_same]
    refine h.write (fun hv => by cases hv) ?_
    rintro rfl
    exact absurd hl (hu.deletes e hop)
  | connected j e r' t hop hl hc =>
    rw [Database.node0, Database.setEndpoint, setNode_same]
    refine h.write (fun hv => ⟨hv, rfl⟩) ?_
    rintro rfl
    exact absurd hc (hu.connects e r' t hop hl)
  | noted j r' t hnew =>
    rw [Database.node0, Database.setEndpoint, setNode_same]
    refine h.write (fun hv => ⟨hv, rfl⟩) ?_
    rintro rfl
    cases hnew.symm.trans h.connected
  | opened j isOpen =>
    rw [Database.node0, Database.setEndpoint, setNode_same]
    refine h.write (fun hv => ⟨hv, rfl⟩) ?_
    rintro rfl
    exact ⟨hvalid, h.connected, h.peer⟩
  | added d n a =>
    rw [(addNode_first ht.rebuilt.registered d n a).2]
    exact h

end PeerOf

/-! ## The handle of an open channel -/

/-- `h` is what an open of the send endpoint `s` hands out, whenever it is made. -/
def OpenedAs (s h : U32) : Prop :=
  ∃ (E : Env) (w w' : World) (v : U32) (st : Status),
    transPktchanSendOpenI .std E w v s st = .ok ((h, .success), w') ∨
      transSclchanSendOpenI .std E w v s st = .ok ((h, .success), w')

theorem openChannel_handle {v : U32} {st : Status} (hx : openChannel .std E w v s st = .ok ((h, .success), w')) :
    h = transEncodeHandleInternal 0 (transDecodeHandleInternal s).nodeId (transDecodeHandleInternal s).portId := by
  obtain ⟨k, -, hx⟩ := bind_eq_ok.mp hx
  cases k with
  | none => cases hx
  | some k =>
    dsimp only at hx
    split at hx
    · cases hx
      rfl
    · rename_i hst
      cases hx
      exact absurd rfl hst

/-- It names the endpoint, though it may be another number. -/
theorem OpenedAs.names (ho : OpenedAs s h) :
    (transDecodeHandleInternal h).nodeId = (transDecodeHandleInternal s).nodeId ∧
      (transDecodeHandleInternal h).portId = (transDecodeHandleInternal s).portId := by
  obtain ⟨E, w, w', v, st, hx⟩ := ho
  have hh : h = transEncodeHandleInternal 0 (transDecodeHandleInternal s).nodeId (transDecodeHandleInternal s).portId :=
    hx.elim openChannel_handle openChannel_handle
  have hs := decode_encode (transDecodeHandleInternal s).domainId (transDecodeHandleInternal s).nodeId
    (transDecodeHandleInternal s).portId
  rw [encode_decode] at hs
  rw [hh, decode_encode]
  exact ⟨(congrArg Decoded.nodeId hs).symm, rfl⟩

theorem OpenedAs.lookup (ho : OpenedAs s h) (db : Database) : lookup db h = lookup db s := by
  obtain ⟨hnode, hport⟩ := ho.names
  unfold Mcapi.lookup
  rw [hnode, hport]

/-! ## Where a send goes -/

/-- Between the two worlds one command was given: a SEND on the session of entry `k`, to
    the port and node of `r`. -/
def GoesTo (k : Slot) (r : U32) (w w' : World) : Prop :=
  ∃ c, commands w'.trace = commands w.trace ++ [c] ∧ c.cmd = .send ∧ c.pkt.sessionIdx = sessionOf k ∧
    c.pkt.remoteEp = portOf r ∧ c.pkt.dstCpu = (transDecodeHandleInternal r).nodeId.setWidth 32

/-- Both packet sends on `h` go to `r`, in any world with this database. The command is
    given before the request is filled in, and that takes a request of the array. -/
structure PacketsGoTo (db : Database) (h r : U32) (k : Slot) : Prop where
  command : ∀ E w buffer size blocking, w.db = db → ∃ ret w',
    pktchanSendCommand .std E w h buffer size blocking = .ok (some (ret, r), w') ∧ GoesTo k r w w'
  sendI : ∀ E w buffer size request, w.db = db → (∀ v, request = some v → v.toNat < maxRequests) → ∃ st w',
    transPktchanSendI .std E w h buffer size request = .ok (st, w') ∧ GoesTo k r w w'
  send : ∀ E w buffer size, w.db = db → ∃ rc w',
    transPktchanSend .std E w h buffer size = .ok (rc, w') ∧ GoesTo k r w w'

/-- A scalar send on `h` goes to `r`, and returns. -/
def ScalarsGoTo (db : Database) (h r : U32) (k : Slot) : Prop :=
  ∀ E w dataword size, w.db = db → ∃ w',
    transSclchanSend .std E w h dataword size = .ok (true, w') ∧ GoesTo k r w w'

/-- What the scalar send of `s` reads at the index of its node number is `r`, or nothing
    and `r` is port 0 of node 0. -/
def ReadsPeer (s r : U32) : Prop :=
  (transDecodeHandleInternal s).nodeId = 0 ∨
    (transDecodeHandleInternal s).nodeId.toNat < maxNodes ∧ (transDecodeHandleInternal r).nodeId = 0 ∧
      (transDecodeHandleInternal r).portId = 0

theorem GoesTo.of_ioctl {b : Bool} {p : SmPacket} (hk : p.sessionIdx = sessionOf k) (hp : p.remoteEp = portOf r)
    (hn : p.dstCpu = (transDecodeHandleInternal r).nodeId.setWidth 32) :
    GoesTo k r w (ioctl E (setBlocking w b) .send p).2 :=
  ⟨_, by rw [commands_ioctl_trace, commands_setBlocking], rfl, hk, hp, hn⟩

theorem GoesTo.db_irrel {x : Database} (hg : GoesTo k r w w') : GoesTo k r w { w' with db := x } := hg

theorem packets_go (hl : lookup db h = .ok (some k)) (hr : (db.node0.endpoints k).recvQueue.recvEndpt = r) :
    PacketsGoTo db h r k := by
  have hcommand : ∀ E w buffer size blocking, w.db = db → ∃ ret w',
      pktchanSendCommand .std E w h buffer size blocking = .ok (some (ret, r), w') ∧ GoesTo k r w w' := by
    intro E w buffer size blocking hw
    unfold lookup at hl
    simp only [pktchanSendCommand, assertDecode_std, hw, hl, hr, ok_bind]
    exact ⟨_, _, rfl, .of_ioctl rfl rfl rfl⟩
  refine ⟨hcommand, ?_, ?_⟩
  · intro E w buffer size request hw hq
    obtain ⟨ret, w1, hx, hg⟩ := hcommand E w buffer size false hw
    simp only [transPktchanSendI, hx, ok_bind]
    cases request with
    | none => exact ⟨_, w1, rfl, hg⟩
    | some v =>
      simp only [requestSlot, dif_pos (hq v rfl), ok_bind]
      exact ⟨_, _, rfl, hg.db_irrel⟩
  · intro E w buffer size hw
    obtain ⟨ret, w1, hx, hg⟩ := hcommand E w buffer size true hw
    simp only [transPktchanSend, hx, ok_bind]
    exact ⟨_, w1, rfl, hg⟩

theorem nodeSlot_iff {n : U16} {i : Fin maxNodes} : nodeSlot n = .ok i ↔ n.toNat = i.val := by
  unfold nodeSlot
  constructor
  · intro hi
    split at hi
    · cases hi
      rfl
    · cases hi
  · intro hn
    have hlt : n.toNat < maxNodes := hn ▸ i.isLt
    rw [dif_pos hlt]
    exact congrArg Except.ok (Fin.ext hn)

theorem nodeSlot_zero {n : U16} {i : Fin maxNodes} (hi : nodeSlot n = .ok i) : i = 0 ↔ n = 0 := by
  rw [nodeSlot_iff] at hi
  constructor
  · rintro rfl
    exact BitVec.eq_of_toNat_eq hi
  · rintro rfl
    exact Fin.ext hi.symm

theorem widen_zero {x : U16} (hx : x.setWidth 32 = (0 : U32)) : x = 0 := by
  simpa using congrArg (BitVec.setWidth 16) hx

theorem scalars_go_iff (ht : OneTable db) (hl : lookup db h = .ok (some k))
    (hr : (db.node0.endpoints k).recvQueue.recvEndpt = r) : ScalarsGoTo db h r k ↔ ReadsPeer h r := by
  -- past node entry 0 there is no endpoint, and the peer read is 0
  have hpast (i : Fin maxNodes) (hi : i ≠ 0) : (((db.domains 0).nodes i).endpoints k).recvQueue.recvEndpt = 0 := by
    rw [ht.others i hi k]
  constructor
  · intro hgo
    obtain ⟨w', hx, c, hcommands, -, -, hport, hnode⟩ := hgo notYet { db := db } 0 1 rfl
    rw [sclchanSend_eq hl] at hx
    obtain ⟨i, hi, hx⟩ := bind_eq_ok.mp hx
    by_cases h0 : i = 0
    · exact .inl ((nodeSlot_zero hi).mp h0)
    · rw [hpast i h0] at hx
      cases hx
      rw [commands_ioctl_trace, commands_setBlocking] at hcommands
      obtain rfl := List.singleton_inj.mp (List.append_cancel_left hcommands)
      exact .inr ⟨nodeSlot_iff.mp hi ▸ i.isLt, widen_zero hnode.symm, widen_zero hport.symm⟩
  · rintro hreads E w dataword size rfl
    rw [sclchanSend_eq hl]
    by_cases h0 : (transDecodeHandleInternal h).nodeId = 0
    · have hi : nodeSlot (transDecodeHandleInternal h).nodeId = .ok 0 := by rw [h0]; rfl
      rw [hi, ok_bind]
      refine ⟨_, rfl, ?_⟩
      rw [show (((w.db.domains 0).nodes 0).endpoints k).recvQueue.recvEndpt = r from hr]
      exact .of_ioctl rfl rfl rfl
    · obtain ⟨hlt, hn, hp⟩ := hreads.resolve_left h0
      obtain ⟨i, hi⟩ : ∃ i, nodeSlot (transDecodeHandleInternal h).nodeId = .ok i :=
        ⟨⟨_, hlt⟩, nodeSlot_iff.mpr rfl⟩
      rw [hi, ok_bind]
      refine ⟨_, rfl, ?_⟩
      rw [hpast i fun he => h0 ((nodeSlot_zero hi).mp he)]
      refine .of_ioctl rfl ?_ ?_
      · rw [portOf, hp]
        rfl
      · rw [hn]
        rfl

/-! ## Every run -/

/-- After a connect that succeeded, over any operations that keep the endpoint, the packet
    sends on a handle of the channel go to its peer; a scalar send does so exactly if it
    reads the peer, as it does on node 0. -/
theorem channel_sends_iff {d n : U32} {a : Option NodeAttributes} {t : ChannelType} {ls : List TransRec}
    (h0 : Lts.Reachable (TransStep icc) (initialised d n a) w.db) (hl : lookup w.db s = .ok (some k))
    (hc : Connects E k r t) (hx : transConnectChannelInternal .std E w s r t = .ok w')
    (hrun : Lts.Run (Lts.Guarded (TransStep icc) fun db l => Untouched k db l ∧ StaysFirst s k db l) w'.db ls db)
    (ho : OpenedAs s h) : PacketsGoTo db h r k ∧ (ScalarsGoTo db h r k ↔ ReadsPeer s r) := by
  have ht : OneTable w.db := h0.invariant (.initialised d n a) fun ht hs => ht.step hs
  obtain ⟨type, htype, hret⟩ := hc
  rw [connect_eq hl htype, if_neg (not_not.mpr hret)] at hx
  have hdb : w'.db = w.db.setEndpoint k ((w.db.node0.endpoints k).connect r t) :=
    (congrArg World.db (Except.ok.inj hx)).symm
  obtain ⟨hnode, hfirst⟩ := ht.lookup_iff.mp hl
  have ht' : OneTable w'.db := hdb ▸ ht.setNode rfl rfl
  have hpeer' : PeerOf s r k w'.db.node0 := by
    rw [hdb, Database.node0, Database.setEndpoint, setNode_same]
    refine ⟨hnode.number, hfirst.write (fun hv => ⟨hv, rfl⟩) fun _ => (portMatches_iff.mp hfirst.1).2.1, ?_, ?_⟩
    · simp only [Function.update_self, EndpointEntry.connect]
    · simp only [Function.update_self, EndpointEntry.connect]
  obtain ⟨ht, hpeer⟩ : OneTable db ∧ PeerOf s r k db.node0 := by
    refine hrun.keeps (I := fun db => OneTable db ∧ PeerOf s r k db.node0) ?_ ⟨ht', hpeer'⟩
    rintro db l db' - ⟨ht, hpeer⟩ ⟨⟨hu, hf⟩, hs⟩
    exact ⟨ht.step hs, hpeer.step ht hs hu hf⟩
  have hlh : lookup db h = .ok (some k) := (ho.lookup db).trans (hpeer.lookup ht)
  refine ⟨packets_go hlh hpeer.peer, (scalars_go_iff ht hlh hpeer.peer).trans ?_⟩
  rw [ReadsPeer, ReadsPeer, ho.names.1]

/-! ## On node 0, and on node 3 -/

/-- What an operation with `errno` clear leaves; one that faults leaves things as they are. -/
def TransOp.after (o : TransOp) (E : Env) (db : Database) : World :=
  match o.exec .std (fun _ => 0) E { db := db } with
  | .ok w => w
  | .error _ => { db := db }

theorem after_step {o : TransOp} (hx : (o.exec .std (fun _ => 0) E { db := db }).isOk = true) :
    TransStep (fun _ => 0) db ⟨E, o, { db := db }, o.after E db⟩ (o.after E db).db := by
  refine ⟨rfl, rfl, ?_⟩
  unfold TransOp.after
  split
  · assumption
  · rename_i he
    rw [he] at hx
    cases hx

/-- Node `n` with one endpoint, on port 5; and after a connect to port 6 of node 1. -/
def fiveOn (n : U32) : Database := ((TransOp.endpointCreate 5 false).after sessionOne (initialised 0 n none)).db
def fiveConnected (n : U32) : Database :=
  ((TransOp.connect (endpointHandle n 5) (endpointHandle 1 6) .sclChan).after willing (fiveOn n)).db

/-- On node 0 that channel opened, and closed. -/
def fiveOpen : Database := ((TransOp.openChannel 0 (endpointHandle 0 5) .success).after willing (fiveConnected 0)).db
def closedAgain : Database := ((TransOp.closeChannel (endpointHandle 0 5) .success).after willing fiveOpen).db

theorem fiveOn_reachable {n : U32} (hx : ((TransOp.endpointCreate 5 false).exec .std (fun _ => 0) sessionOne
    { db := initialised 0 n none }).isOk = true) :
    Lts.Reachable (TransStep fun _ => 0) (initialised 0 n none) (fiveOn n) :=
  (Lts.Reachable.refl _).tail (after_step hx)

/-- On node 0 the channel, opened and closed again, sends to its peer. -/
theorem node_zero_sends :
    PacketsGoTo closedAgain (endpointHandle 0 5) (endpointHandle 1 6) 1 ∧
      ScalarsGoTo closedAgain (endpointHandle 0 5) (endpointHandle 1 6) 1 := by
  have hrun : Lts.Run (Lts.Guarded (TransStep fun _ => 0) fun db l =>
      Untouched 1 db l ∧ StaysFirst (endpointHandle 0 5) 1 db l) (fiveConnected 0)
      [⟨willing, .openChannel 0 (endpointHandle 0 5) .success, { db := fiveConnected 0 },
          (TransOp.openChannel 0 (endpointHandle 0 5) .success).after willing (fiveConnected 0)⟩,
        ⟨willing, .closeChannel (endpointHandle 0 5) .success, { db := fiveOpen },
          (TransOp.closeChannel (endpointHandle 0 5) .success).after willing fiveOpen⟩] closedAgain := by
    have hquiet {o : TransOp} (hd : ∀ e, o ≠ .endpointDelete e) (hc : ∀ e r t, o ≠ .connect e r t)
        (hn : ∀ p a, o ≠ .endpointCreate p a) {db : Database} {w w' : World} :
        Untouched 1 db ⟨willing, o, w, w'⟩ ∧ StaysFirst (endpointHandle 0 5) 1 db ⟨willing, o, w, w'⟩ :=
      ⟨⟨fun e he => absurd he (hd e), fun e r t he => absurd he (hc e r t)⟩, fun p a he => absurd he (hn p a)⟩
    refine .cons ⟨hquiet ?_ ?_ ?_, after_step rfl⟩ (.single ⟨hquiet ?_ ?_ ?_, after_step rfl⟩)
    all_goals
      intros
      intro he
      cases he
  have ho : OpenedAs (endpointHandle 0 5) (endpointHandle 0 5) :=
    ⟨willing, { db := fiveOn 0 }, _, 0, .success, .inr rfl⟩
  have hsends := channel_sends_iff (E := willing) (w := { db := fiveOn 0 }) (r := endpointHandle 1 6) (t := .sclChan)
    (fiveOn_reachable rfl) rfl ⟨_, rfl, rfl⟩ rfl hrun ho
  exact ⟨hsends.1, hsends.2.mpr (.inl rfl)⟩

/-- On node 3 the scalar send reads past the node entries. -/
theorem node_three_send_faults :
    ¬ ∀ (icc : PacketType → U32) (d n : U32) (a : Option NodeAttributes) (E : Env) (w w' : World) (s r h : U32)
      (k : Slot) (t : ChannelType) (ls : List TransRec) (db : Database),
      Lts.Reachable (TransStep icc) (initialised d n a) w.db → lookup w.db s = .ok (some k) → Connects E k r t →
      transConnectChannelInternal .std E w s r t = .ok w' →
      Lts.Run (Lts.Guarded (TransStep icc) (Untouched k)) w'.db ls db → OpenedAs s h →
      (t = .pktChan → PacketsGoTo db h r k) ∧ (t = .sclChan → ScalarsGoTo db h r k) := by
  intro hclaim
  have ho : OpenedAs (endpointHandle 3 5) (endpointHandle 3 5) :=
    ⟨willing, { db := fiveOn 3 }, _, 0, .success, .inr rfl⟩
  have hgo := (hclaim (fun _ => 0) 0 3 none willing { db := fiveOn 3 } _ (endpointHandle 3 5) (endpointHandle 1 6)
    (endpointHandle 3 5) 1 .sclChan [] _ (fiveOn_reachable rfl) rfl ⟨_, rfl, rfl⟩ rfl (.nil _) ho).2 rfl
  obtain ⟨w', hx, -⟩ := hgo willing { db := _ } 0 1 rfl
  rw [sclchanSend_eq rfl] at hx
  obtain ⟨i, hi, -⟩ := bind_eq_ok.mp hx
  cases hi

end Mcapi
