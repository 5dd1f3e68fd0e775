/-
  Mcapi.TransportRuns — runs of the transport's operations, by any processes on one
  database: endpoints, messages, test and wait, channels, and the registration of a
  further node.

  Most of them leave the domains alone (`KeepsDomains`). The others are a create or a
  delete of an endpoint, a registration, and the channel operations that write one entry
  of node entry 0 (`EntryEffect`); `step_effect` proves that there is nothing else.
-/

import Mcapi.Channels
import Mcapi.Identity
import Mcapi.Lib.Ends
import Mcapi.Lookups

namespace Mcapi

variable {E : Env} {w w' : World} {db db' : Database}

/-! ## The operations -/

/-- An operation of the transport. The two connects are `connect`, the four opens
    `openChannel` and the four closes `closeChannel`; `addNode` is the registration of
    another process, which rebuilds the request array first. -/
inductive TransOp where
  | endpointCreate (portNum : U32) (anonymous : Bool)
  | endpointDelete (endpoint : U32)
  | endpointGet (nodeNum portNum timeout : U32)
  | endpointGetI (endpoint domainNum nodeNum portNum : U32) (request : Option U32)
  | msgSendI (sendEndpoint receiveEndpoint buffer bufferSize : U32) (request : Option U32)
  | msgSend (sendEndpoint receiveEndpoint buffer bufferSize : U32)
  | msgRecvI (receiveEndpoint buffer bufferSize : U32) (request : Option U32)
  | msgRecv (receiveEndpoint buffer bufferSize : U32)
  | msgAvailable (receiveEndpoint : U32)
  | testI (request : U32) (size : Option U32)
  | wait (request : U32) (size : Option U32) (timeout : U32)
  | connect (sendEndpoint receiveEndpoint : U32) (type : ChannelType)
  | channelConnected (endpoint : U32)
  | connected (endpoint : U32)
  | openChannel (handle endpoint : U32) (status : Status)
  | closeChannel (handle : U32) (status : Status)
  | pktchanSendI (sendHandle buffer size : U32) (request : Option U32)
  | pktchanSend (sendHandle buffer size : U32)
  | pktchanRecvI (buffers receiveHandle buffer : U32) (request : Option U32)
  | pktchanRecv (buffers receiveHandle buffer receivedSize : U32)
  | pktchanFree (buffers buffer : U32)
  | sclchanSend (sendHandle : U32) (dataword : BitVec 64) (size : U32)
  | sclchanRecv (receiveHandle : U32) (data : BitVec 64) (size : U32)
  | addNode (domainId nodeId : U32) (nodeAttrs : Option NodeAttributes)

/-- The world it leaves; `icc` are the values of the driver's constants. -/
def TransOp.exec (B : Build) (icc : PacketType → U32) (E : Env) (w : World) : TransOp → Res World
  | .endpointCreate p a => do .ok (← transEndpointCreate B E w E.locals.e p a).2
  | .endpointDelete e => transEndpointDelete B E w e
  | .endpointGet n p t => do .ok (← transEndpointGet B E w E.locals.e n p t).2
  | .endpointGetI e d n p q => do .ok (← transEndpointGetI B E w e d n p q).2
  | .msgSendI s r b n q => do .ok (← transMsgSendI B E w s r b n q).2
  | .msgSend s r b n => do .ok (← transMsgSend B E w s r b n).2
  | .msgRecvI r b n q => do .ok (← transMsgRecvI B E w r b n q).2
  | .msgRecv r b n => do .ok (← transMsgRecv B E w r b n).2
  | .msgAvailable r => do .ok (← transMsgAvailable B E w r).2
  | .testI v s => do .ok (← transTestI B E w v s).2
  | .wait v s t => do .ok (← transWait B E w v s t).2
  | .connect s r t => transConnectChannelInternal B E w s r t
  | .channelConnected e => do .ok (← transChannelConnected B E w e).2
  | .connected e => do .ok (← transConnected B E w e).2
  | .openChannel h e st => do .ok (← Mcapi.openChannel B E w h e st).2
  | .closeChannel h st => do .ok (← Mcapi.closeChannel B E w h st).2
  | .pktchanSendI h b n q => do .ok (← transPktchanSendI B E w h b n q).2
  | .pktchanSend h b n => do .ok (← transPktchanSend B E w h b n).2
  | .pktchanRecvI a h b q => do .ok (← transPktchanRecvI B E a w h b q).2
  | .pktchanRecv a h b n => do .ok (← transPktchanRecv B E a w h b n).2
  | .pktchanFree a b => do .ok { w with db := (← transPktchanFree B a w.db b).2 }
  | .sclchanSend h x n => do .ok (← transSclchanSend B E w h x n).2
  | .sclchanRecv h x n => do .ok (← transSclchanRecv B E icc w h x n).2
  | .addNode d n a => .ok { w with db := (transAddNode (transInitRequestIndexedArray w.db) d n a).2 }

/-- One operation of a run: by a process with any `errno`, flags and locals, and with any
    driver. -/
structure TransRec where
  env : Env
  op : TransOp
  before : World
  after : World

def TransStep (icc : PacketType → U32) (db : Database) (l : TransRec) (db' : Database) : Prop :=
  l.before.db = db ∧ l.after.db = db' ∧ l.op.exec .std icc l.env l.before = .ok l.after

/-! ## Operations that leave the domains alone -/

/-- However it ends, the domains are as they were. -/
def KeepsDomains {A : Type} (w : World) (m : Res (A × World)) : Prop :=
  ∀ x w', m = .ok (x, w') → w'.db.domains = w.db.domains

namespace KeepsDomains

variable {A C : Type}

theorem ok {x : A} (h : w'.db.domains = w.db.domains) : KeepsDomains w (.ok (x, w')) := Outcome.Ends.ok h

theorem error {f : Fault} : KeepsDomains w (.error f : Res (A × World)) := Outcome.Ends.error

theorem bind {m : Res C} {f : C → Res (A × World)} (h : ∀ c, m = .ok c → KeepsDomains w (f c)) :
    KeepsDomains w (m >>= f) := Outcome.Ends.bind h

theorem found {m : Res (Option C)} {f : Option C → Res (A × World)} (hnone : KeepsDomains w (f none))
    (hsome : ∀ c, KeepsDomains w (f (some c))) : KeepsDomains w (m >>= f) := Outcome.Ends.found hnone hsome

/-- After an operation that keeps them, another. -/
theorem andThen {m : Res (C × World)} {f : C × World → Res (A × World)} (hm : KeepsDomains w m)
    (h : ∀ c w1, w1.db.domains = w.db.domains → KeepsDomains w (f (c, w1))) : KeepsDomains w (m >>= f) :=
  Outcome.Ends.andThen hm h

theorem ite {P : Prop} [Decidable P] {m m' : Res (A × World)} (h : KeepsDomains w m) (h' : KeepsDomains w m') :
    KeepsDomains w (if P then m else m') := Outcome.Ends.ite h h'

end KeepsDomains

theorem storeAt_db {a v : U32} (h : storeAt w a v = .ok w') : w'.db = w.db := by
  rw [storeAt_eq_ok h]

theorem remove_domains {v : U32} {rc : Bool} (h : transRemoveRequest .std v db = .ok (rc, db')) :
    db'.domains = db.domains := by
  unfold transRemoveRequest at h
  split at h
  · cases h
  split at h
  · obtain ⟨i, -, h⟩ := bind_eq_ok.mp h
    cases h
    rfl
  · cases h
    rfl

theorem dropRequest_domains {v : U32} (h : dropRequest .std w v = .ok w') : w'.db.domains = w.db.domains := by
  obtain ⟨⟨rc, db⟩, hr, h⟩ := bind_eq_ok.mp h
  cases h
  exact remove_domains hr

theorem setBlocking_domains (w : World) (b : Bool) : (setBlocking w b).db.domains = w.db.domains :=
  congrArg Database.domains (setBlocking_db w b)

theorem smRecvPacket_domains (E : Env) (w : World) (k : U32) (e c : U16) (p n : U32) (b : Bool) :
    (smRecvPacket E w k e c p n b).2.db.domains = w.db.domains :=
  congrArg Database.domains (smRecvPacket_db w k e c p n b)

section
variable (E w)

theorem transEndpointGet_keeps (e n p t : U32) : KeepsDomains w (transEndpointGet .std E w e n p t) := by
  refine .bind fun k _ => ?_
  cases k with
  | some k => exact .ok rfl
  | none => exact .ite (.ok (setBlocking_domains w true)) (.ok (setBlocking_domains w true))

theorem transEndpointGetI_keeps (e d n p : U32) (q : Option U32) :
    KeepsDomains w (transEndpointGetI .std E w e d n p q) :=
  fun _ _ h => issue_domains (i := .endpointGetI d n p e) h

theorem transMsgSendI_keeps (s r b n : U32) (q : Option U32) :
    KeepsDomains w (transMsgSendI .std E w s r b n q) := by
  unfold transMsgSendI transReserveRequest
  cases w.db.requestReservesHeader.emptyHeadIndex with
  | none => exact .ok rfl
  | some id =>
    refine .bind fun q _ => .found (.ok rfl) fun k => ?_
    exact .ok (setBlocking_domains { w with db := w.db.take id } false)

theorem transMsgSend_keeps (s r b n : U32) : KeepsDomains w (transMsgSend .std E w s r b n) := by
  refine .found (.ok rfl) fun k => ?_
  exact .ite (.ok (setBlocking_domains w true)) (.ok (setBlocking_domains w true))

theorem transMsgRecvI_keeps (r b n : U32) (q : Option U32) : KeepsDomains w (transMsgRecvI .std E w r b n q) := by
  unfold transMsgRecvI transReserveRequest
  cases w.db.requestReservesHeader.emptyHeadIndex with
  | none => exact .ok rfl
  | some id =>
    refine .bind fun q _ => .found (.ok rfl) fun k => ?_
    have hw := smRecvPacket_domains E { w with db := w.db.take id } (sessionOf k) E.locals.send.portId
      E.locals.send.nodeId b n false
    dsimp only
    generalize smRecvPacket E _ _ _ _ _ _ _ = x at hw ⊢
    exact .ok hw

theorem transMsgRecv_keeps (r b n : U32) : KeepsDomains w (transMsgRecv .std E w r b n) := by
  refine .found (.ok rfl) fun k => ?_
  have hw := smRecvPacket_domains E w (sessionOf k) E.locals.send.portId E.locals.send.nodeId b n true
  dsimp only
  generalize smRecvPacket E _ _ _ _ _ _ _ = x at hw ⊢
  exact .ite (.ok hw) (.ok hw)

theorem transMsgAvailable_keeps (r : U32) : KeepsDomains w (transMsgAvailable .std E w r) := by
  refine .ite .error (.found (.ok rfl) fun k => ?_)
  exact .ite (.ok rfl) (.ok rfl)

theorem transTestI_keeps (v : U32) (size : Option U32) : KeepsDomains w (transTestI .std E w v size) := by
  refine .ite .error (.bind fun id _ => .ite (.ok rfl) (.ite (.ok rfl) (.ite (.ok rfl) (.found (.ok rfl) fun t => ?_))))
  have hwait := setBlocking_domains w false
  refine .ite (.ok hwait) (.ite (.bind fun w1 h1 => .ok ?_) (.ok hwait))
  exact (congrArg Database.domains (storeAt_db h1)).trans hwait

theorem transWait_keeps (v : U32) (size : Option U32) (t : U32) : KeepsDomains w (transWait .std E w v size t) := by
  refine .ite .error (.bind fun id _ => .bind fun g _ => ?_)
  cases g with
  | none => exact .ok rfl
  | some g =>
    have hwait := setBlocking_domains w true
    refine .ite (.bind fun w1 h1 => .ok (dropRequest_domains h1)) (.ite ?_ (.ite ?_ ?_))
    · exact .bind fun w1 h1 => .ok ((dropRequest_domains h1).trans hwait)
    · refine .bind fun w1 h1 => .bind fun w2 h2 => .ok ?_
      exact (dropRequest_domains h2).trans ((congrArg Database.domains (storeAt_db h1)).trans hwait)
    · exact .bind fun w1 h1 => .ok ((dropRequest_domains h1).trans hwait)

/-! ### Channels -/

theorem transConnected_keeps (e : U32) : KeepsDomains w (transConnected .std E w e) := by
  refine .found (.ok rfl) fun k => ?_
  exact .ite (.ok rfl) (.ok rfl)

theorem pktchanSendCommand_keeps (h b n : U32) (blocking : Bool) :
    KeepsDomains w (pktchanSendCommand .std E w h b n blocking) := by
  refine .found (.ok rfl) fun k => ?_
  exact .ok (setBlocking_domains w blocking)

theorem transPktchanSendI_keeps (h b n : U32) (q : Option U32) :
    KeepsDomains w (transPktchanSendI .std E w h b n q) := by
  refine .andThen (pktchanSendCommand_keeps E w h b n false) fun x w1 h1 => ?_
  cases x with
  | none => exact .ok h1
  | some x =>
    cases q with
    | none => exact .ok h1
    | some q => exact .bind fun id _ => .ok h1

theorem transPktchanSend_keeps (h b n : U32) : KeepsDomains w (transPktchanSend .std E w h b n) := by
  refine .andThen (pktchanSendCommand_keeps E w h b n true) fun x w1 h1 => ?_
  cases x with
  | none => exact .ok h1
  | some x => exact .ok h1

theorem transPktchanRecvI_keeps (a h b : U32) (q : Option U32) :
    KeepsDomains w (transPktchanRecvI .std E a w h b q) := by
  refine .found (.ok rfl) fun k => ?_
  unfold transReserveRequest
  cases w.db.requestReservesHeader.emptyHeadIndex with
  | none => exact .ok rfl
  | some i =>
    have hw := smRecvPacket_domains E { w with db := w.db.take i } (sessionOf k) E.locals.send.portId
      E.locals.send.nodeId (bufferAt a i) E.locals.len false
    dsimp only
    generalize smRecvPacket E _ _ _ _ _ _ _ = x at hw ⊢
    refine .ite (.ok hw) ?_
    cases q with
    | none => exact .ok hw
    | some q => exact .bind fun id _ => .ok hw

theorem transPktchanRecv_keeps (a h b n : U32) : KeepsDomains w (transPktchanRecv .std E a w h b n) := by
  refine .found (.ok rfl) fun k => ?_
  unfold transReserveRequest
  cases w.db.requestReservesHeader.emptyHeadIndex with
  | none => exact .ok rfl
  | some i =>
    have hw := smRecvPacket_domains E { w with db := w.db.take i } (sessionOf k) E.locals.send.portId
      E.locals.send.nodeId (bufferAt a i) E.locals.len true
    dsimp only
    generalize smRecvPacket E _ _ _ _ _ _ _ = x at hw ⊢
    exact .ite (.ok hw) (.ok hw)

theorem transSclchanSend_keeps (h : U32) (x : BitVec 64) (n : U32) :
    KeepsDomains w (transSclchanSend .std E w h x n) := by
  refine .found (.ok rfl) fun k => ?_
  refine .bind fun i _ => .found (.ok rfl) fun k => ?_
  exact .ok (setBlocking_domains w true)

theorem transSclchanRecv_keeps (icc : PacketType → U32) (h : U32) (x : BitVec 64) (n : U32) :
    KeepsDomains w (transSclchanRecv .std E icc w h x n) := by
  refine .found (.ok rfl) fun k => ?_
  have hw : (smRecvScalar E icc w (sessionOf k) 0 0 E.locals.type true).2.db.domains = w.db.domains := by
    unfold smRecvScalar
    dsimp only
    split
    · exact setBlocking_domains w true
    · exact setBlocking_domains w true
  dsimp only
  generalize smRecvScalar E icc w _ _ _ _ _ = y at hw ⊢
  refine .ite (.ok hw) ?_
  split
  · exact .ok hw
  · exact .ok hw

end

theorem pktchanFree_domains {a b : U32} {rc : Bool} (h : transPktchanFree .std a db b = .ok (rc, db')) :
    db'.domains = db.domains := by
  unfold transPktchanFree at h
  split at h
  · obtain ⟨⟨rc1, db1⟩, hr, h⟩ := bind_eq_ok.mp h
    cases h
    exact remove_domains hr
  · cases h
    rfl

/-! ## What an operation does to the endpoints -/

/-- Domain 0 is in order, and only its first node has endpoints. -/
structure OneTable (db : Database) : Prop where
  registered : Registered db
  others : ∀ i, i ≠ 0 → ∀ j, ((db.domains 0).nodes i).endpoints j = {}

/-- A node with entry `j` written, and one endpoint more. -/
def NodeEntry.counted (n : NodeEntry) (j : Slot) (entry : EndpointEntry) : NodeEntry :=
  { n with endpoints := Function.update n.endpoints j entry, numEndpoints := n.numEndpoints + 1 }

/-- The packet type a channel is connected with. -/
def ChannelType.packet : ChannelType → Option PacketType
  | .pktChan => some .spSessionPacket
  | .sclChan => some .spSessionScalar
  | .noChan => none

/-- The packet of a CONNECT. -/
def connectPkt (j : Slot) (receiveEndpoint : U32) (type : PacketType) : SmPacket :=
  { sessionIdx := sessionOf j
    remoteEp := (transDecodeHandleInternal receiveEndpoint).portId.setWidth 32
    dstCpu := (transDecodeHandleInternal receiveEndpoint).nodeId.setWidth 32
    type := type }

/-- The driver connects session `j`. -/
def Connects (E : Env) (j : Slot) (receiveEndpoint : U32) (type : ChannelType) : Prop :=
  ∃ t, type.packet = some t ∧ (E.drv .connect (connectPkt j receiveEndpoint t)).ret = 0

/-- An entry with its peer. -/
def EndpointEntry.connect (e : EndpointEntry) (receiveEndpoint : U32) (type : ChannelType) : EndpointEntry :=
  { e with connected := true, recvQueue := { e.recvQueue with recvEndpt := receiveEndpoint, channelType := type } }

/-- What an operation leaves: the domains as they were (`kept`), an entry filled and
    counted, zeroed, connected by a CONNECT or by what the driver knows of it (`noted`),
    or marked open or closed, or a node more. -/
inductive EntryEffect (l : TransRec) (db : Database) : Database → Prop
  | kept (db' : Database) : db'.domains = db.domains → EntryEffect l db db'
  | created (j : Slot) (p : U32) (a : Bool) (entry : EndpointEntry) : l.op = .endpointCreate p a →
      slotOf (l.env.drv .create (createPkt p)).pkt.sessionIdx = .ok j → (db.node0.endpoints j).valid = false →
      entry.valid = true → entry.portNum = p → EntryEffect l db (db.setNode 0 (db.node0.counted j entry))
  | deleted (j : Slot) (e : U32) : l.op = .endpointDelete e → lookup db e = .ok (some j) →
      EntryEffect l db (db.setEndpoint j {})
  | connected (j : Slot) (e r : U32) (t : ChannelType) : l.op = .connect e r t → lookup db e = .ok (some j) →
      Connects l.env j r t → EntryEffect l db (db.setEndpoint j ((db.node0.endpoints j).connect r t))
  | noted (j : Slot) (r : U32) (t : ChannelType) : (db.node0.endpoints j).connected = false →
      EntryEffect l db (db.setEndpoint j ((db.node0.endpoints j).connect r t))
  | opened (j : Slot) (isOpen : Bool) :
      EntryEffect l db (db.setEndpoint j { db.node0.endpoints j with isOpen := isOpen })
  | added (d n : U32) (a : Option NodeAttributes) :
      EntryEffect l db (transAddNode (transInitRequestIndexedArray db) d n a).2

variable {e : U32} {j k : Slot}

/-- A lookup that finds something finds it in the first node. -/
theorem OneTable.lookup_iff (h : OneTable db) :
    lookup db e = .ok (some k) ↔ NodeOf db e 0 ∧ First db.node0 (portOf e) k := by
  rw [Mcapi.lookup_iff h.registered.inv]
  constructor
  · rintro ⟨i, hi, hfirst⟩
    by_cases h0 : i = 0
    · subst h0
      exact ⟨hi, hfirst⟩
    · have hvalid := (portMatches_iff.mp hfirst.1).2.1
      rw [h.others i h0 k] at hvalid
      cases hvalid
  · rintro ⟨hi, hfirst⟩
    exact ⟨0, hi, hfirst⟩

/-- A create fills a free entry of the first node. -/
theorem transEndpointCreate_spec (h : Registered w.db) {v p : U32} {a : Bool} {x : Bool × U32}
    (hx : transEndpointCreate .std E w v p a = .ok (x, w')) :
    ∃ j entry, slotOf (E.drv .create (createPkt p)).pkt.sessionIdx = .ok j ∧
      (w.db.node0.endpoints j).valid = false ∧ entry.valid = true ∧ entry.portNum = p ∧
      w'.db = w.db.setNode 0 (w.db.node0.counted j entry) := by
  have hnode : transGetNodeIndex .std w.db (transGetNodeNum w.db) = .ok (some 0) := h.first.nodeIndex
  unfold transEndpointCreate smCreateSession at hx
  dsimp only [ioctl_reply] at hx
  split at hx
  · cases hx
  simp only [std_asserts, if_true, ioctl_db, hnode, ok_bind, Bool.true_and] at hx
  obtain ⟨j, hj, hx⟩ := bind_eq_ok.mp hx
  split at hx
  · cases hx
  rename_i hfree
  cases hx
  exact ⟨j, _, hj, (Bool.not_eq_true _).mp hfree, rfl, rfl, rfl⟩

/-- A delete zeroes the entry its handle leads to, if there is one. -/
theorem transEndpointDelete_spec (h : OneTable w.db) (hx : transEndpointDelete .std E w e = .ok w') :
    w'.db = w.db ∨ ∃ j, lookup w.db e = .ok (some j) ∧ w'.db = w.db.setEndpoint j {} := by
  obtain ⟨i, hi, hx⟩ := bind_eq_ok.mp hx
  cases i with
  | none =>
    cases hx
    exact .inl rfl
  | some i =>
    obtain ⟨j, hj, hx⟩ := bind_eq_ok.mp hx
    cases j with
    | none =>
      cases hx
      exact .inl rfl
    | some j =>
      cases hx
      have hl : lookup w.db e = .ok (some j) := hj
      obtain ⟨hlisted, hnum⟩ := nodeIndex_found hi
      have h0 := (h.lookup_iff.mp hl).1
      obtain rfl : i = 0 := h.registered.inv.same_number hlisted h0.listed (hnum.trans h0.number.symm)
      exact .inr ⟨j, hl, rfl⟩

/-- With its endpoint there, a connect gives one CONNECT, and notes the peer if that is
    taken. -/
theorem connect_eq {r : U32} {t : ChannelType} {type : PacketType} (hl : lookup w.db e = .ok (some j))
    (ht : t.packet = some type) :
    transConnectChannelInternal .std E w e r t =
      if (E.drv .connect (connectPkt j r type)).ret ≠ 0 then .ok (ioctl E w .connect (connectPkt j r type)).2
      else .ok { (ioctl E w .connect (connectPkt j r type)).2 with
        db := w.db.setEndpoint j ((w.db.node0.endpoints j).connect r t) } := by
  unfold lookup at hl
  simp only [transConnectChannelInternal, assertDecode_std, hl, ok_bind]
  cases t with
  | noChan => cases ht
  | pktChan =>
    cases ht
    rfl
  | sclChan =>
    cases ht
    rfl

theorem connect_spec {r : U32} {t : ChannelType} (hx : transConnectChannelInternal .std E w e r t = .ok w') :
    w'.db = w.db ∨ ∃ j, lookup w.db e = .ok (some j) ∧ Connects E j r t ∧
      w'.db = w.db.setEndpoint j ((w.db.node0.endpoints j).connect r t) := by
  have hfound := hx
  obtain ⟨j, hj, hfound⟩ := bind_eq_ok.mp hfound
  have hl : lookup w.db e = .ok j := hj
  cases j with
  | none =>
    cases hfound
    exact .inl rfl
  | some j =>
    cases ht : t.packet with
    | none =>
      cases t with
      | noChan =>
        cases hfound
        exact .inl rfl
      | pktChan => cases ht
      | sclChan => cases ht
    | some type =>
      rw [connect_eq hl ht] at hx
      split at hx
      · cases hx
        exact .inl rfl
      · rename_i hret
        cases hx
        exact .inr ⟨j, hl, ⟨type, ht, not_not.mp hret⟩, rfl⟩

theorem channelConnected_spec {x : Bool} (hx : transChannelConnected .std E w e = .ok (x, w')) :
    w'.db = w.db ∨ ∃ j r t, (w.db.node0.endpoints j).connected = false ∧
      w'.db = w.db.setEndpoint j ((w.db.node0.endpoints j).connect r t) := by
  obtain ⟨j, -, hx⟩ := bind_eq_ok.mp hx
  cases j with
  | none =>
    cases hx
    exact .inl rfl
  | some j =>
    dsimp only at hx
    split at hx
    · cases hx
      exact .inl rfl
    rename_i hnew
    by_cases hret : (smGetSessionStatus E w (sessionOf j)).1 ≠ 0
    · rw [if_pos hret] at hx
      cases hx
      exact .inl rfl
    rw [if_neg hret] at hx
    by_cases hflags : (smGetSessionStatus E w (sessionOf j)).2.1.flags = 1
    · rw [if_pos hflags] at hx
      cases hx
      exact .inr ⟨j, _, _, (Bool.not_eq_true _).mp hnew, rfl⟩
    · rw [if_neg hflags] at hx
      cases hx
      exact .inl rfl

theorem openChannel_spec {h : U32} {st : Status} {x : U32 × Status}
    (hx : openChannel .std E w h e st = .ok (x, w')) :
    w'.db = w.db ∨ ∃ j, w'.db = w.db.setEndpoint j { w.db.node0.endpoints j with isOpen := true } := by
  obtain ⟨j, -, hx⟩ := bind_eq_ok.mp hx
  cases j with
  | none =>
    cases hx
    exact .inl rfl
  | some j =>
    dsimp only at hx
    split at hx
    · cases hx
      exact .inr ⟨j, rfl⟩
    · cases hx
      exact .inl rfl

theorem closeChannel_spec {h : U32} {st x : Status} (hx : closeChannel .std E w h st = .ok (x, w')) :
    w'.db = w.db ∨ ∃ j, w'.db = w.db.setEndpoint j { w.db.node0.endpoints j with isOpen := false } := by
  obtain ⟨j, -, hx⟩ := bind_eq_ok.mp hx
  cases j with
  | none =>
    cases hx
    exact .inl rfl
  | some j =>
    dsimp only at hx
    split at hx
    · cases hx
      exact .inr ⟨j, rfl⟩
    · cases hx
      exact .inl rfl

theorem KeepsDomains.world {A : Type} {m : Res (A × World)} (hm : KeepsDomains w m)
    (h : (do .ok (← m).2 : Res World) = .ok w') : w'.db.domains = w.db.domains := by
  obtain ⟨⟨x, w1⟩, hx, h⟩ := bind_eq_ok.mp h
  cases h
  exact hm x w1 hx

/-- There is nothing else an operation does. -/
theorem step_effect {icc : PacketType → U32} {l : TransRec} (h : OneTable db) (hs : TransStep icc db l db') :
    EntryEffect l db db' := by
  obtain ⟨rfl, rfl, hx⟩ := hs
  cases hop : l.op with
  | endpointCreate p a =>
    rw [hop] at hx
    obtain ⟨⟨x, w1⟩, hx, he⟩ := bind_eq_ok.mp hx
    obtain ⟨j, entry, hj, hfree, hvalid, hport, hdb⟩ := transEndpointCreate_spec h.registered hx
    rw [← Except.ok.inj he, hdb]
    exact .created j p a entry hop hj hfree hvalid hport
  | endpointDelete e =>
    rw [hop] at hx
    rcases transEndpointDelete_spec h hx with hdb | ⟨j, hl, hdb⟩
    · exact .kept _ (congrArg Database.domains hdb)
    · rw [hdb]
      exact .deleted j e hop hl
  | connect e r t =>
    rw [hop] at hx
    rcases connect_spec hx with hdb | ⟨j, hl, hc, hdb⟩
    · exact .kept _ (congrArg Database.domains hdb)
    · rw [hdb]
      exact .connected j e r t hop hl hc
  | channelConnected e =>
    rw [hop] at hx
    obtain ⟨⟨x, w1⟩, hx, he⟩ := bind_eq_ok.mp hx
    rw [← Except.ok.inj he]
    rcases channelConnected_spec hx with hdb | ⟨j, r, t, hnew, hdb⟩
    · exact .kept _ (congrArg Database.domains hdb)
    · rw [hdb]
      exact .noted j r t hnew
  | openChannel v e st =>
    rw [hop] at hx
    obtain ⟨⟨x, w1⟩, hx, he⟩ := bind_eq_ok.mp hx
    rw [← Except.ok.inj he]
    rcases openChannel_spec hx with hdb | ⟨j, hdb⟩
    · exact .kept _ (congrArg Database.domains hdb)
    · rw [hdb]
      exact .opened j true
  | closeChannel v st =>
    rw [hop] at hx
    obtain ⟨⟨x, w1⟩, hx, he⟩ := bind_eq_ok.mp hx
    rw [← Except.ok.inj he]
    rcases closeChannel_spec hx with hdb | ⟨j, hdb⟩
    · exact .kept _ (congrArg Database.domains hdb)
    · rw [hdb]
      exact .opened j false
  | addNode d n a =>
    rw [hop] at hx
    rw [← Except.ok.inj hx]
    exact .added d n a
  | pktchanFree a b =>
    rw [hop] at hx
    obtain ⟨⟨x, db1⟩, hx, he⟩ := bind_eq_ok.mp hx
    rw [← Except.ok.inj he]
    exact .kept _ (pktchanFree_domains hx)
  | endpointGet n p t => exact .kept _ ((transEndpointGet_keeps _ _ _ n p t).world (hop ▸ hx))
  | endpointGetI e d n p q => exact .kept _ ((transEndpointGetI_keeps _ _ e d n p q).world (hop ▸ hx))
  | msgSendI s r b n q => exact .kept _ ((transMsgSendI_keeps _ _ s r b n q).world (hop ▸ hx))
  | msgSend s r b n => exact .kept _ ((transMsgSend_keeps _ _ s r b n).world (hop ▸ hx))
  | msgRecvI r b n q => exact .kept _ ((transMsgRecvI_keeps _ _ r b n q).world (hop ▸ hx))
  | msgRecv r b n => exact .kept _ ((transMsgRecv_keeps _ _ r b n).world (hop ▸ hx))
  | msgAvailable r => exact .kept _ ((transMsgAvailable_keeps _ _ r).world (hop ▸ hx))
  | testI v s => exact .kept _ ((transTestI_keeps _ _ v s).world (hop ▸ hx))
  | wait v s t => exact .kept _ ((transWait_keeps _ _ v s t).world (hop ▸ hx))
  | connected e => exact .kept _ ((transConnected_keeps _ _ e).world (hop ▸ hx))
  | pktchanSendI v b n q => exact .kept _ ((transPktchanSendI_keeps _ _ v b n q).world (hop ▸ hx))
  | pktchanSend v b n => exact .kept _ ((transPktchanSend_keeps _ _ v b n).world (hop ▸ hx))
  | pktchanRecvI a v b q => exact .kept _ ((transPktchanRecvI_keeps _ _ a v b q).world (hop ▸ hx))
  | pktchanRecv a v b n => exact .kept _ ((transPktchanRecv_keeps _ _ a v b n).world (hop ▸ hx))
  | sclchanSend v x n => exact .kept _ ((transSclchanSend_keeps _ _ v x n).world (hop ▸ hx))
  | sclchanRecv v x n => exact .kept _ ((transSclchanRecv_keeps _ _ _ v x n).world (hop ▸ hx))

end Mcapi
