/-
  Mcapi.Issue — what the three issuing calls do (`mcapi_msg_send_i`,
  `mcapi_msg_recv_i`, `mcapi_endpoint_get_i`).

  Each of them looks an endpoint up and, with a request reserved, gives the driver one
  command and fills in the record. `Issuer.route` says where the lookup leads, and
  `Issued` lists the ways a call ends; `issue_cases` proves that there are no others.
-/

import Mcapi.Api

namespace Mcapi

variable {E : Env} {w w' : World}

/-! ## Statuses -/

/-- The status of an issued request, from what the command returned. -/
def issueStatus (ret errno : Int) : Status :=
  if ret ≠ 0 then (if errno = eagain then .pending else .errTransmission) else .success

theorem issueStatus_ne {st : Status} (hp : .pending ≠ st) (ht : .errTransmission ≠ st) (hs : .success ≠ st)
    (ret errno : Int) : issueStatus ret errno ≠ st :=
  ite_ne (ite_ne hp ht) hs

/-- A status other than `MCAPI_SUCCESS` and `MCAPI_PENDING`. -/
def Failed (status : Status) : Prop := status ≠ .success ∧ status ≠ .pending

instance (status : Status) : Decidable (Failed status) := inferInstanceAs (Decidable (_ ∧ _))

theorem refused_failed : Failed .errParameter := by decide

theorem limit_failed : Failed .errRequestLimit := by decide

theorem missing_failed : Failed .errEndpInvalid := by decide

theorem issueStatus_failed {ret errno : Int} : Failed (issueStatus ret errno) ↔ ret ≠ 0 ∧ errno ≠ eagain := by
  unfold issueStatus Failed
  by_cases h0 : ret = 0 <;> by_cases he : errno = eagain <;> simp [h0, he]

/-! ## The records -/

@[simp] theorem setRequest_setRequest (db : Database) (r : Req) (a b : RequestData) :
    (db.setRequest r a).setRequest r b = db.setRequest r b := by
  simp [Database.setRequest]

def sendRecord (d : RequestData) (sendEndpoint receiveEndpoint bufferSize payload : U32) (completed : Bool) :
    RequestData :=
  { d with
    completed := completed
    epEndpoint := receiveEndpoint
    handle := sendEndpoint
    valid := true
    size := bufferSize
    cancelled := false
    type := .send
    buffer := 0
    payload := payload }

def recvRecord (d : RequestData) (receiveEndpoint sendEndpoint buffer len : U32) (completed : Bool) : RequestData :=
  { d with
    completed := completed
    epEndpoint := sendEndpoint
    handle := receiveEndpoint
    valid := true
    size := len
    cancelled := false
    type := .recv
    buffer := buffer
    payload := 0 }

def getRecord (d : RequestData) (endpoint domainNum nodeNum portNum : U32) (completed : Bool) : RequestData :=
  { d with
    completed := completed
    epEndpoint := 0
    handle := 0
    valid := true
    size := 0
    cancelled := false
    type := .getEndpt
    buffer := endpoint
    payload := 0
    epNodeNum := nodeNum
    epPortNum := portNum
    epDomainNum := domainNum }

theorem recordSend_eq (id : Req) (s r n p : U32) (c : Bool) (db : Database) :
    recordSend id s r n p c db = db.setRequest id (sendRecord (db.requests id) s r n p c) := by
  simp [recordSend, setupRequestInternal, sendRecord]

theorem recordRecv_eq (id : Req) (r s b n : U32) (c : Bool) (db : Database) :
    recordRecv id r s b n c db = db.setRequest id (recvRecord (db.requests id) r s b n c) := by
  simp [recordRecv, setupRequestInternal, recvRecord]

theorem recordGet_eq (id : Req) (e d n p : U32) (c : Bool) (db : Database) :
    recordGet id e d n p c db = db.setRequest id (getRecord (db.requests id) e d n p c) := by
  simp [recordGet, setupRequestInternal, getRecord]

/-! ## The three calls -/

/-- An issuing call, without its request pointer. -/
inductive Issuer where
  | msgSendI (sendEndpoint receiveEndpoint buffer bufferSize priority : U32)
  | msgRecvI (receiveEndpoint buffer bufferSize : U32)
  | endpointGetI (domainId nodeId portId endpoint : U32)
  deriving DecidableEq, Repr

def Issuer.call (request : Option U32) : Issuer → Call
  | .msgSendI s r b n p => .msgSendI s r b n p request
  | .msgRecvI r b n => .msgRecvI r b n request
  | .endpointGetI d n p e => .endpointGetI d n p e request

def Issuer.exec (B : Build) (E : Env) (w : World) (request : Option U32) : Issuer → Res (Issue × World)
  | .msgSendI s r b n p => Mcapi.msgSendI B E w s r b n p request
  | .msgRecvI r b n => Mcapi.msgRecvI B E w r b n request
  | .endpointGetI d n p e => Mcapi.endpointGetI B E w d n p e request

theorem call_exec (B : Build) (E : Env) (w : World) (request : Option U32) (i : Issuer) :
    (i.call request).exec B E w = (do let (x, w) ← i.exec B E w request; .ok (.issue x, w)) := by
  cases i <;> rfl

theorem issue_exec {i : Issuer} {q : Option U32} {x : Ret} (h : (i.call q).exec .std E w = .ok (x, w')) :
    ∃ y, x = .issue y ∧ i.exec .std E w q = .ok (y, w') := by
  rw [call_exec] at h
  obtain ⟨⟨y, w1⟩, hy, h⟩ := bind_eq_ok.mp h
  cases h
  exact ⟨y, rfl, hy⟩

/-- The lookup of the endpoint a handle names. -/
def lookup (db : Database) (handle : U32) : Res (Option Slot) :=
  transGetPortIndex .std db ((transDecodeHandleInternal handle).nodeId.setWidth 32)
    ((transDecodeHandleInternal handle).portId.setWidth 32)

/-- The packet of a send. -/
def sendPkt (index : Slot) (receiveEndpoint buffer bufferSize : U32) : SmPacket :=
  { sessionIdx := sessionOf index
    remoteEp := (transDecodeHandleInternal receiveEndpoint).portId.setWidth 32
    dstCpu := (transDecodeHandleInternal receiveEndpoint).nodeId.setWidth 32
    buf := buffer
    bufLen := bufferSize }

/-- The packet of a receive. -/
def recvPkt (index : Slot) (buffer bufferSize : U32) : SmPacket :=
  { sessionIdx := sessionOf index, buf := buffer, bufLen := bufferSize }

/-- The packet of an endpoint query. -/
def queryPkt (nodeNum portNum timeout : U32) : SmPacket :=
  { remoteEp := portNum, dstCpu := nodeNum, timeout := timeout }

/-- Where the lookup leads a call: the endpoint is here and nothing is reserved
    (`found`), it should be and is not (`missing`), the receive has no buffer
    (`noBuffer`), or the driver is given a command. -/
inductive Route where
  | found
  | missing
  | noBuffer
  | command (cmd : Cmd) (pkt : SmPacket)
  deriving DecidableEq, Repr

def Issuer.route (db : Database) : Issuer → Res Route
  | .msgSendI s r b n _ => do
    match ← lookup db s with
    | none => .ok .missing
    | some k => .ok (.command .send (sendPkt k r b n))
  | .msgRecvI r b n => do
    match ← lookup db r with
    | none => .ok .missing
    | some k => .ok (if b = 0 then .noBuffer else .command .recv (recvPkt k b n))
  | .endpointGetI _ n p _ => do
    match ← transGetPortIndex .std db n p with
    | some _ => .ok .found
    | none => .ok (.command .queryRemoteEp (queryPkt n p 0))

/-- What a receive leaves in its locals, when its command returned `ret` and the packet:
    the sender and the length are the driver's only where it succeeded. -/
def received (locals : Locals) (len : U32) (ret : Int) (pkt : SmPacket) : Received :=
  if ret = 0 then ⟨ret, pkt.remoteEp.setWidth 16, pkt.dstCpu.setWidth 16, pkt.bufLen⟩
  else ⟨ret, locals.send.portId, locals.send.nodeId, len⟩

@[simp] theorem received_ret (locals : Locals) (len : U32) (ret : Int) (pkt : SmPacket) :
    (received locals len ret pkt).ret = ret := by
  unfold received; split <;> rfl

/-- The record a call leaves, over what the slot held before, when its command returned
    `ret` and the packet. -/
def Issuer.record (locals : Locals) (ret : Int) (pkt : SmPacket) (d : RequestData) : Issuer → RequestData
  | .msgSendI s r _ n _ => sendRecord d s r n pkt.payload (ret == 0)
  | .msgRecvI r b n =>
    let got := received locals n ret pkt
    recvRecord d r (transEncodeHandleInternal 0 got.dstCpu got.dstEp) b got.len (ret == 0)
  | .endpointGetI dom n p e => getRecord d e dom n p (ret == 0)

theorem record_valid (locals : Locals) (ret : Int) (pkt : SmPacket) (d : RequestData) (i : Issuer) :
    (i.record locals ret pkt d).valid = true := by
  cases i <;> rfl

theorem record_completed (locals : Locals) (ret : Int) (pkt : SmPacket) (d : RequestData) (i : Issuer) :
    (i.record locals ret pkt d).completed = (ret == 0) := by
  cases i <;> rfl

/-- The handle a get stores through its endpoint pointer, when it has it at once. -/
def Issuer.answer : Issuer → List (U32 × U32)
  | .endpointGetI _ n p e => [(e, endpointHandle n p)]
  | _ => []

/-- The database an issued call leaves: slot `id` taken, and its record filled in. -/
def Issuer.filled (E : Env) (i : Issuer) (db : Database) (id : Req) (ret : Int) (pkt : SmPacket) : Database :=
  (db.take id).setRequest id (i.record E.locals ret pkt ((db.take id).requests id))

/-- How a call ends. -/
inductive Issued (E : Env) (w : World) (request : Option U32) (i : Issuer) : Issue → World → Prop
  /-- `mcapi_msg_recv_i` without a request pointer. -/
  | refused : request = none → Issued E w request i ⟨none, .errParameter⟩ w
  | found (w' : World) : i.route w.db = .ok .found → w'.db = w.db → commands w'.trace = commands w.trace →
      stores w'.trace = stores w.trace ++ i.answer → Issued E w request i ⟨request, .success⟩ w'
  | limit : w.db.requestReservesHeader.emptyHeadIndex = none → Issued E w request i ⟨request, .errRequestLimit⟩ w
  | missing (id : Req) : request ≠ none → w.db.requestReservesHeader.emptyHeadIndex = some id →
      i.route w.db = .ok .missing →
      Issued E w request i ⟨some (handleOf id), .errEndpInvalid⟩ { w with db := w.db.take id }
  | noBuffer (id : Req) (w' : World) : request ≠ none → w.db.requestReservesHeader.emptyHeadIndex = some id →
      i.route w.db = .ok .noBuffer → w'.db = i.filled E w.db id (-einval) {} → commands w'.trace = commands w.trace →
      stores w'.trace = stores w.trace → Issued E w request i ⟨some (handleOf id), issueStatus (-einval) w.errno⟩ w'
  | command (id : Req) (c : Cmd) (p : SmPacket) (w' : World) :
      request ≠ none → w.db.requestReservesHeader.emptyHeadIndex = some id → i.route w.db = .ok (.command c p) →
      w'.db = i.filled E w.db id (E.drv c p).ret (E.drv c p).pkt →
      commands w'.trace = commands w.trace ++ [⟨c, p, E.drv c p⟩] →
      stores w'.trace = stores w.trace ++ (if (E.drv c p).ret = 0 then i.answer else []) →
      Issued E w request i ⟨some (handleOf id), issueStatus (E.drv c p).ret (errnoAfter E w c p)⟩ w'

/-- An accepted call other than a get of a local endpoint hands out the slot at the head
    of the free list, and fills its record in. -/
theorem Issued.accepted {i : Issuer} {q : Option U32} {x : Issue} (h : Issued E w q i x w')
    (hr : i.route w.db ≠ .ok .found) (hf : ¬ Failed x.status) :
    ∃ id ret pkt, x.request = some (handleOf id) ∧ w.db.requestReservesHeader.emptyHeadIndex = some id ∧
      w'.db = i.filled E w.db id ret pkt := by
  cases h with
  | refused => exact absurd refused_failed hf
  | found w' hroute => exact absurd hroute hr
  | limit => exact absurd limit_failed hf
  | missing => exact absurd missing_failed hf
  | noBuffer id w' _ hid _ hdb => exact ⟨id, _, _, rfl, hid, hdb⟩
  | command id c p w' _ hid _ hdb => exact ⟨id, _, _, rfl, hid, hdb⟩

/-- It gives no command, or the one on its route. -/
theorem Issued.quiet_or_command {i : Issuer} {q : Option U32} {x : Issue} (h : Issued E w q i x w') :
    commands w'.trace = commands w.trace ∨ ∃ id c p, i.route w.db = .ok (.command c p) ∧
      w'.db = i.filled E w.db id (E.drv c p).ret (E.drv c p).pkt ∧
      commands w'.trace = commands w.trace ++ [⟨c, p, E.drv c p⟩] := by
  cases h with
  | refused => exact .inl rfl
  | found w' _ _ htr => exact .inl htr
  | limit => exact .inl rfl
  | missing => exact .inl rfl
  | noBuffer id w' _ _ _ _ htr => exact .inl htr
  | command id c p w' _ _ hr hdb htr => exact .inr ⟨id, c, p, hr, hdb, htr⟩

section
variable {i : Issuer} {id : Req} {q : U32} {x : Issue}

/-- A call that has a slot and returns has not met a fault on its way. -/
theorem Issued.route_ok (h : Issued E w (some q) i x w')
    (hid : w.db.requestReservesHeader.emptyHeadIndex = some id) (f : Fault) : i.route w.db ≠ .error f := by
  intro hr
  cases h with
  | refused h0 => cases h0
  | found _ h0 => cases hr.symm.trans h0
  | limit h0 => cases hid.symm.trans h0
  | missing _ _ _ h0 => cases hr.symm.trans h0
  | noBuffer _ _ _ _ h0 => cases hr.symm.trans h0
  | command _ _ _ _ _ _ h0 => cases hr.symm.trans h0

/-- Where its endpoint is missing, it says so and gives no command. -/
theorem Issued.at_missing (h : Issued E w (some q) i x w')
    (hid : w.db.requestReservesHeader.emptyHeadIndex = some id) (hr : i.route w.db = .ok .missing) :
    x.status = .errEndpInvalid ∧ commands w'.trace = commands w.trace := by
  cases h with
  | refused h0 => cases h0
  | found _ h0 => cases hr.symm.trans h0
  | limit h0 => cases hid.symm.trans h0
  | missing => exact ⟨rfl, rfl⟩
  | noBuffer _ _ _ _ h0 => cases hr.symm.trans h0
  | command _ _ _ _ _ _ h0 => cases hr.symm.trans h0

/-- Where it has a command, it gives it and reports its result. -/
theorem Issued.at_command {c : Cmd} {p : SmPacket} (h : Issued E w (some q) i x w')
    (hid : w.db.requestReservesHeader.emptyHeadIndex = some id) (hr : i.route w.db = .ok (.command c p)) :
    x = ⟨some (handleOf id), issueStatus (E.drv c p).ret (errnoAfter E w c p)⟩ ∧
      w'.db = i.filled E w.db id (E.drv c p).ret (E.drv c p).pkt ∧
      commands w'.trace = commands w.trace ++ [⟨c, p, E.drv c p⟩] := by
  cases h with
  | refused h0 => cases h0
  | found _ h0 => cases hr.symm.trans h0
  | limit h0 => cases hid.symm.trans h0
  | missing _ _ _ h0 => cases hr.symm.trans h0
  | noBuffer _ _ _ _ h0 => cases hr.symm.trans h0
  | command id' c' p' w' _ hid' h0 hdb htr =>
    cases hr.symm.trans h0
    cases hid.symm.trans hid'
    exact ⟨rfl, hdb, htr⟩

end

/-- A send or receive is never answered locally. -/
theorem route_found {i : Issuer} {db : Database} (h : i.route db = .ok .found) :
    ∃ d n p e, i = .endpointGetI d n p e := by
  cases i with
  | msgSendI s r b n p =>
    obtain ⟨k, -, h⟩ := bind_eq_ok.mp h
    cases k <;> cases h
  | msgRecvI r b n =>
    obtain ⟨k, -, h⟩ := bind_eq_ok.mp h
    cases k with
    | none => cases h
    | some k => dsimp only at h; split at h <;> cases h
  | endpointGetI d n p e => exact ⟨d, n, p, e, rfl⟩

/-! ## The calls end in one of these ways -/

theorem smRecvPacket_eq {b : U32} (hb : b ≠ 0) (w : World) (k : Slot) (n : U32) (blocking : Bool) :
    smRecvPacket E w (sessionOf k) E.locals.send.portId E.locals.send.nodeId b n blocking =
      (received E.locals n (E.drv .recv (recvPkt k b n)).ret (E.drv .recv (recvPkt k b n)).pkt,
        (ioctl E (setBlocking w blocking) .recv (recvPkt k b n)).2) := by
  simp only [smRecvPacket, hb, if_false, ioctl_reply, received]
  -- the packet of the command is `recvPkt`, written out
  show (if (E.drv .recv (recvPkt k b n)).ret = 0 then _ else _) = _
  split
  · rename_i hret
    rw [hret]
    rfl
  · rfl

section
variable {id : Req} (hid : w.db.requestReservesHeader.emptyHeadIndex = some id)
include hid

theorem transMsgSendI_some (s r b n q : U32) :
    transMsgSendI .std E w s r b n (some q) = (do
      match ← lookup w.db s with
      | none => .ok (⟨some (handleOf id), .errEndpInvalid⟩, { w with db := w.db.take id })
      | some k =>
        let pkt := sendPkt k r b n
        let w1 := (ioctl E (setBlocking { w with db := w.db.take id } false) .send pkt).2
        .ok (⟨some (handleOf id), issueStatus (E.drv .send pkt).ret w1.errno⟩,
          { w1 with db := recordSend id s r n (E.drv .send pkt).pkt.payload ((E.drv .send pkt).ret == 0) w1.db })) := by
  simp only [transMsgSendI, transReserveRequest, hid]
  rfl

theorem transMsgRecvI_some (r b n q : U32) :
    transMsgRecvI .std E w r b n (some q) = (do
      match ← lookup w.db r with
      | none => .ok (⟨some (handleOf id), .errEndpInvalid⟩, { w with db := w.db.take id })
      | some k =>
        let (got, w1) := smRecvPacket E { w with db := w.db.take id } (sessionOf k) E.locals.send.portId
          E.locals.send.nodeId b n false
        .ok (⟨some (handleOf id), issueStatus got.ret w1.errno⟩,
          { w1 with
            db := recordRecv id r (transEncodeHandleInternal 0 got.dstCpu got.dstEp) b got.len (got.ret == 0)
              w1.db })) := by
  simp only [transMsgRecvI, transReserveRequest, hid]
  rfl

theorem transEndpointGetI_some (e d n p q : U32) :
    transEndpointGetI .std E w e d n p (some q) = (do
      match ← transGetPortIndex .std w.db n p with
      | some _ =>
        let w ← storeAt w e (endpointHandle n p)
        .ok (⟨some q, .success⟩, w)
      | none =>
        let pkt := queryPkt n p 0
        let w1 := (ioctl E (setBlocking { w with db := w.db.take id } false) .queryRemoteEp pkt).2
        if (E.drv .queryRemoteEp pkt).ret ≠ 0 then
          .ok (⟨some (handleOf id), if w1.errno = eagain then .pending else .errTransmission⟩,
            { w1 with db := recordGet id e d n p false w1.db })
        else
          let w2 ← storeAt w1 e (endpointHandle n p)
          .ok (⟨some (handleOf id), .success⟩, { w2 with db := recordGet id e d n p true w2.db })) := by
  simp only [transEndpointGetI, transReserveRequest, hid]
  rfl

end

theorem msgSendI_cases {s r b n p : U32} {q : Option U32} {x : Issue}
    (h : (Issuer.msgSendI s r b n p).exec .std E w q = .ok (x, w')) : Issued E w q (.msgSendI s r b n p) x w' := by
  obtain ⟨st, -, h⟩ := bind_eq_ok.mp h
  cases hid : w.db.requestReservesHeader.emptyHeadIndex with
  | none =>
    simp only [transMsgSendI, transReserveRequest, hid, Except.ok.injEq, Prod.mk.injEq] at h
    obtain ⟨rfl, rfl⟩ := h
    exact .limit hid
  | some id =>
    cases q with
    | none => simp only [transMsgSendI, transReserveRequest, hid] at h; cases h
    | some q =>
      have hq : some q ≠ none := Option.some_ne_none q
      rw [transMsgSendI_some hid] at h
      obtain ⟨k, hk, h⟩ := bind_eq_ok.mp h
      cases k with
      | none =>
        cases h
        exact .missing id hq hid (by simp [Issuer.route, hk])
      | some k =>
        simp only [ioctl_errno, errnoAfter_setBlocking, errnoAfter_db] at h
        cases h
        refine .command id .send (sendPkt k r b n) _ hq hid (by simp [Issuer.route, hk]) ?_ (by simp)
          (by simp [Issuer.answer])
        simp [recordSend_eq, Issuer.filled, Issuer.record]

theorem msgRecvI_cases {r b n : U32} {q : Option U32} {x : Issue}
    (h : (Issuer.msgRecvI r b n).exec .std E w q = .ok (x, w')) : Issued E w q (.msgRecvI r b n) x w' := by
  cases q with
  | none => cases h; exact .refused rfl
  | some q =>
    have hq : some q ≠ none := Option.some_ne_none q
    obtain ⟨st, -, h⟩ := bind_eq_ok.mp h
    cases hid : w.db.requestReservesHeader.emptyHeadIndex with
    | none =>
      simp only [transMsgRecvI, transReserveRequest, hid, Except.ok.injEq, Prod.mk.injEq] at h
      obtain ⟨rfl, rfl⟩ := h
      exact .limit hid
    | some id =>
      rw [transMsgRecvI_some hid] at h
      obtain ⟨k, hk, h⟩ := bind_eq_ok.mp h
      cases k with
      | none =>
        cases h
        exact .missing id hq hid (by simp [Issuer.route, hk])
      | some k =>
        by_cases hb : b = 0
        · have hroute : (Issuer.msgRecvI r b n).route w.db = .ok .noBuffer := by
            simp only [Issuer.route, hk, ok_bind, hb, if_true]
          simp only [smRecvPacket, hb, if_true] at h
          cases h
          refine .noBuffer id _ hq hid hroute ?_ rfl rfl
          simp [recordRecv_eq, Issuer.filled, Issuer.record, received, einval, hb]
        · have hroute : (Issuer.msgRecvI r b n).route w.db = .ok (.command .recv (recvPkt k b n)) := by
            simp only [Issuer.route, hk, ok_bind, hb, if_false]
          simp only [smRecvPacket_eq hb, received_ret, ioctl_errno, errnoAfter_setBlocking, errnoAfter_db] at h
          cases h
          refine .command id .recv (recvPkt k b n) _ hq hid hroute ?_ (by simp) (by simp [Issuer.answer])
          simp [recordRecv_eq, Issuer.filled, Issuer.record]

theorem storeAt_eq_ok {a v : U32} (h : storeAt w a v = .ok w') : w' = { w with trace := w.trace ++ [.store a v] } := by
  unfold storeAt at h
  split at h
  · cases h
  · cases h; rfl

theorem endpointGetI_cases {d n p e : U32} {q : Option U32} {x : Issue}
    (h : (Issuer.endpointGetI d n p e).exec .std E w q = .ok (x, w')) : Issued E w q (.endpointGetI d n p e) x w' := by
  cases hk : transGetPortIndex .std w.db n p with
  | error f => simp [Issuer.exec, endpointGetI, transEndpointGetI, hk] at h; cases h
  | ok k =>
    cases k with
    | some k =>
      have hroute : (Issuer.endpointGetI d n p e).route w.db = .ok .found := by simp [Issuer.route, hk]
      simp only [Issuer.exec, endpointGetI, transEndpointGetI, hk, ok_bind] at h
      obtain ⟨w1, hw1, h⟩ := bind_eq_ok.mp h
      cases h
      rw [storeAt_eq_ok hw1]
      exact .found _ hroute rfl (by simp) (by simp [Issuer.answer])
    | none =>
      have hroute : (Issuer.endpointGetI d n p e).route w.db = .ok (.command .queryRemoteEp (queryPkt n p 0)) := by
        simp [Issuer.route, hk]
      cases hid : w.db.requestReservesHeader.emptyHeadIndex with
      | none =>
        simp only [Issuer.exec, endpointGetI, transEndpointGetI, hk, ok_bind, transReserveRequest, hid] at h
        cases h
        exact .limit hid
      | some id =>
        cases q with
        | none =>
          simp only [Issuer.exec, endpointGetI, transEndpointGetI, hk, ok_bind, transReserveRequest, hid] at h
          cases h
        | some q =>
          have hq : some q ≠ none := Option.some_ne_none q
          simp only [Issuer.exec, endpointGetI, transEndpointGetI_some hid, hk, ok_bind, ioctl_errno,
            errnoAfter_setBlocking, errnoAfter_db] at h
          split at h
          · rename_i hret
            have hst : (if errnoAfter E w .queryRemoteEp (queryPkt n p 0) = eagain then Status.pending
                else .errTransmission) =
                issueStatus (E.drv .queryRemoteEp (queryPkt n p 0)).ret
                  (errnoAfter E w .queryRemoteEp (queryPkt n p 0)) := by
              rw [issueStatus, if_pos hret]
            have hc : ((E.drv .queryRemoteEp (queryPkt n p 0)).ret == 0) = false := beq_eq_false_iff_ne.mpr hret
            rw [hst] at h
            cases h
            refine .command id .queryRemoteEp (queryPkt n p 0) _ hq hid hroute ?_ (by simp)
              (by rw [if_neg hret]; simp)
            simp only [recordGet_eq, Issuer.filled, Issuer.record, hc, ioctl_db, setBlocking_db]
          · rename_i hret
            have hret := not_not.mp hret
            obtain ⟨w2, hw2, h⟩ := bind_eq_ok.mp h
            have hst : Status.success = issueStatus (E.drv .queryRemoteEp (queryPkt n p 0)).ret
                (errnoAfter E w .queryRemoteEp (queryPkt n p 0)) := by
              rw [issueStatus, if_neg (not_not.mpr hret)]
            have hc : ((E.drv .queryRemoteEp (queryPkt n p 0)).ret == 0) = true := beq_iff_eq.mpr hret
            rw [storeAt_eq_ok hw2, hst] at h
            cases h
            refine .command id .queryRemoteEp (queryPkt n p 0) _ hq hid hroute ?_ (by simp)
              (by rw [if_pos hret]; simp [Issuer.answer])
            simp only [recordGet_eq, Issuer.filled, Issuer.record, hc, ioctl_db, setBlocking_db]

theorem issue_cases {i : Issuer} {q : Option U32} {x : Issue} (h : i.exec .std E w q = .ok (x, w')) :
    Issued E w q i x w' := by
  cases i with
  | msgSendI s r b n p => exact msgSendI_cases h
  | msgRecvI r b n => exact msgRecvI_cases h
  | endpointGetI d n p e => exact endpointGetI_cases h

/-! ### The calls return -/

theorem validEndpoint_returns {db : Database} {handle : U32} {k : Option Slot} (h : lookup db handle = .ok k) :
    ∃ v, transValidEndpoint .std db handle = .ok v := by
  unfold lookup at h
  simp only [transValidEndpoint, h, ok_bind]
  split
  · exact ⟨_, rfl⟩
  · cases k <;> exact ⟨_, rfl⟩

theorem sendChecks_returns {db : Database} {s : U32} {k : Option Slot} (h : lookup db s = .ok k) (r n p : U32) :
    ∃ st, sendChecks .std db s r n p = .ok st := by
  obtain ⟨v, hv⟩ := validEndpoint_returns h
  simp only [sendChecks, transValidEndpoints, hv, ok_bind]
  repeat' split
  all_goals exact ⟨_, rfl⟩

theorem recvChecks_returns {db : Database} {r : U32} {k : Option Slot} (h : lookup db r = .ok k) (b : U32) :
    ∃ st, recvChecks .std db r b = .ok st := by
  obtain ⟨v, hv⟩ := validEndpoint_returns h
  simp only [recvChecks, hv, ok_bind]
  repeat' split
  all_goals exact ⟨_, rfl⟩

theorem sendChecks_valid {db : Database} {s r n p : U32} (h : sendChecks .std db s r n p = .ok .success) :
    transValidEndpoint .std db s = .ok true := by
  obtain ⟨v, hv, h⟩ := bind_eq_ok.mp h
  cases v with
  | false => cases h
  | true => exact hv

theorem recvChecks_valid {db : Database} {e b : U32} (h : recvChecks .std db e b = .ok .success) :
    transValidEndpoint .std db e = .ok true := by
  unfold recvChecks at h
  split at h
  · cases h
  · obtain ⟨v, hv, h⟩ := bind_eq_ok.mp h
    cases v with
    | false => cases h
    | true => exact hv

theorem msgSendI_returns {id : Req} (hid : w.db.requestReservesHeader.emptyHeadIndex = some id) {s : U32}
    {k : Option Slot} (hk : lookup w.db s = .ok k) (r b n p q : U32) :
    ∃ x w', (Issuer.msgSendI s r b n p).exec .std E w (some q) = .ok (x, w') := by
  obtain ⟨st, hst⟩ := sendChecks_returns hk r n p
  simp only [Issuer.exec, msgSendI, hst, ok_bind, transMsgSendI_some hid, hk]
  cases k <;> exact ⟨_, _, rfl⟩

/-- With a slot free, a call whose lookup does not run past the table returns, unless
    it stores a handle that came at once. -/
theorem issue_returns {id : Req} (hid : w.db.requestReservesHeader.emptyHeadIndex = some id) {i : Issuer} {rt : Route}
    (hr : i.route w.db = .ok rt) (hf : rt ≠ .found) (hc : ∀ c p, rt = .command c p → (E.drv c p).ret ≠ 0) (q : U32) :
    ∃ x w', i.exec .std E w (some q) = .ok (x, w') := by
  cases i with
  | msgSendI s r b n p =>
    obtain ⟨k, hk, -⟩ := bind_eq_ok.mp hr
    exact msgSendI_returns hid hk r b n p q
  | msgRecvI r b n =>
    obtain ⟨k, hk, -⟩ := bind_eq_ok.mp hr
    obtain ⟨st, hst⟩ := recvChecks_returns hk b
    simp only [Issuer.exec, msgRecvI, Option.isNone_some, Bool.false_eq_true, if_false, hst, ok_bind,
      transMsgRecvI_some hid, hk]
    cases k <;> exact ⟨_, _, rfl⟩
  | endpointGetI d n p e =>
    obtain ⟨k, hk, hr⟩ := bind_eq_ok.mp hr
    cases k with
    | some k => cases hr; exact absurd rfl hf
    | none =>
      cases hr
      simp only [Issuer.exec, endpointGetI, transEndpointGetI_some hid, hk, ok_bind, if_pos (hc _ _ rfl)]
      exact ⟨_, _, rfl⟩

end Mcapi
