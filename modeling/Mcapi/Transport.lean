/-
  Mcapi.Transport — the transport layer's operations (`mcapi_trans_stub.c`): endpoints,
  messages, test and wait.

  A call takes the `World` it finds and returns its results with the `World` it leaves,
  or the `Fault` that stops it. An output pointer of the caller is a value passed in and
  returned, `none` where a null pointer is possible; a pointer kept in a request record is an
  address, and what goes through it is a `store` in the trace.

  The three calls that issue a request (`transMsgSendI`, `transMsgRecvI`,
  `transEndpointGetI`) reserve a record first. `mcapi_trans_get_endpoint_internal` always
  returns TRUE, so the branches on its failure are not here.
-/

import Mcapi.Requests
import Mcapi.Nodes
import Mcapi.Driver

namespace Mcapi

variable (B : Build) (E : Env)

/-- A slot as the session index of a packet. -/
def sessionOf (k : Slot) : U32 := BitVec.ofNat 32 k.val

/-- A session index used as a slot of the endpoint table: unchecked. -/
def slotOf (idx : U32) : Res Slot :=
  if h : idx.toNat < maxEndpoints then .ok ⟨idx.toNat, h⟩ else .error .outOfBounds

/-- A store through a pointer of the caller. -/
def storeAt (w : World) (addr val : U32) : Res World :=
  if addr = 0 then .error .badPointer else .ok { w with trace := w.trace ++ [.store addr val] }

/-- What an issuing call leaves in `*request` and `*mcapi_status`. -/
structure Issue where
  request : Option U32
  status : Status
  deriving DecidableEq, Repr

/-- `*request = id`. -/
def assignRequest (request : Option U32) (id : Req) : Res (Option U32) :=
  match request with
  | none => .error .badPointer
  | some _ => .ok (some (handleOf id))

/-! ## Endpoints -/

/-- Returns TRUE or FALSE and `*endpoint`. -/
def transEndpointCreate (w : World) (endpoint portNum : U32) (anonymous : Bool) : Res ((Bool × U32) × World) := do
  let (endpointIndex, w) := smCreateSession E w portNum .spPacket
  -- as an `int`, the index is negative from 2^31 on
  if endpointIndex.msb then
    if B.asserts then .error .assertion else .ok ((false, endpoint), w)
  else
    let nodeNum := if B.asserts then transGetNodeNum w.db else E.locals.nodeNum
    match ← transGetNodeIndex B w.db nodeNum with
    | none => .error .outOfBounds
    | some nodeIndex =>
      let k ← slotOf endpointIndex
      let node := (w.db.domains 0).nodes nodeIndex
      if B.asserts && (node.endpoints k).valid then .error .assertion
      else
        let entry : EndpointEntry := { node.endpoints k with
          valid := true
          portNum := portNum
          isOpen := false
          anonymous := anonymous
          numAttributes := 0 }
        let node := { node with
          endpoints := Function.update node.endpoints k entry
          numEndpoints := node.numEndpoints + 1 }
        .ok ((true, endpointHandle nodeNum portNum), { w with db := w.db.setNode nodeIndex node })

def transEndpointDelete (w : World) (endpoint : U32) : Res World := do
  let name := assertDecode B E.locals.send endpoint
  match ← transGetNodeIndex B w.db (name.nodeId.setWidth 32) with
  | none => .ok w
  | some nindex =>
    match ← transGetPortIndex B w.db (name.nodeId.setWidth 32) (name.portId.setWidth 32) with
    | none => .ok w
    | some index =>
      let node := (w.db.domains 0).nodes nindex
      let node := { node with endpoints := Function.update node.endpoints index {} }
      let w := { w with db := w.db.setNode nindex node }
      .ok (smDestroySession E w (sessionOf index)).2

/-- The blocking get: the status, and what is stored in `*endpoint`, a local of the
    interface layer. -/
def transEndpointGet (w : World) (endpoint nodeNum portNum timeout : U32) : Res ((U32 × Status) × World) := do
  match ← transGetPortIndex B w.db nodeNum portNum with
  | some _ => .ok ((endpointHandle nodeNum portNum, .success), w)
  | none =>
    let (ret, w) := smGetRemoteEp E w portNum nodeNum timeout true
    if ret ≠ 0 then
      .ok ((endpoint, if w.errno = etimedout then .timeout else .errGeneral), w)
    else .ok ((endpointHandle nodeNum portNum, .success), w)

/-- The record of an endpoint get. -/
def recordGet (id : Req) (endpoint domainNum nodeNum portNum : U32) (completed : Bool) (db : Database) : Database :=
  setupRequestInternal 0 0 id endpoint 0 0 .getEndpt (db.setRequest id { db.requests id with
    completed := completed
    epNodeNum := nodeNum
    epPortNum := portNum
    epDomainNum := domainNum })

def transEndpointGetI (w : World) (endpoint domainNum nodeNum portNum : U32) (request : Option U32) :
    Res (Issue × World) := do
  match ← transGetPortIndex B w.db nodeNum portNum with
  | some _ =>
    -- a local endpoint: the handle at once, and no request
    let w ← storeAt w endpoint (endpointHandle nodeNum portNum)
    .ok (⟨request, .success⟩, w)
  | none =>
    match transReserveRequest w.db with
    | (none, _) => .ok (⟨request, .errRequestLimit⟩, w)
    | (some id, db) =>
      let request ← assignRequest request id
      let (ret, w) := smGetRemoteEp E { w with db := db } portNum nodeNum 0 false
      if ret ≠ 0 then
        .ok (⟨request, if w.errno = eagain then .pending else .errTransmission⟩,
          { w with db := recordGet id endpoint domainNum nodeNum portNum false w.db })
      else
        let w ← storeAt w endpoint (endpointHandle nodeNum portNum)
        .ok (⟨request, .success⟩, { w with db := recordGet id endpoint domainNum nodeNum portNum true w.db })

/-! ## Messages -/

/-- The record of a send; the message is named by `payload`, and no buffer is kept. -/
def recordSend (id : Req) (sendEndpoint receiveEndpoint bufferSize payload : U32) (completed : Bool) (db : Database) :
    Database :=
  setupRequestInternal sendEndpoint receiveEndpoint id 0 bufferSize payload .send
    (db.setRequest id { db.requests id with completed := completed })

def transMsgSendI (w : World) (sendEndpoint receiveEndpoint buffer bufferSize : U32) (request : Option U32) :
    Res (Issue × World) :=
  match transReserveRequest w.db with
  | (none, _) => .ok (⟨request, .errRequestLimit⟩, w)
  | (some id, db) => do
    let w := { w with db := db }
    let request ← assignRequest request id
    let s := assertDecode B E.locals.send sendEndpoint
    let r := assertDecode B E.locals.recv receiveEndpoint
    match ← transGetPortIndex B w.db (s.nodeId.setWidth 32) (s.portId.setWidth 32) with
    | none => .ok (⟨request, .errEndpInvalid⟩, w)
    | some index =>
      let (ret, payload, w) := smSendPacket E w (sessionOf index) (r.portId.setWidth 32) (r.nodeId.setWidth 32)
        buffer bufferSize false
      let status := if ret ≠ 0 then (if w.errno = eagain then .pending else .errTransmission) else .success
      .ok (⟨request, status⟩, { w with
        db := recordSend id sendEndpoint receiveEndpoint bufferSize payload (ret == 0) w.db })

def transMsgSend (w : World) (sendEndpoint receiveEndpoint buffer bufferSize : U32) : Res (Status × World) := do
  let s := assertDecode B E.locals.send sendEndpoint
  let r := assertDecode B E.locals.recv receiveEndpoint
  match ← transGetPortIndex B w.db (s.nodeId.setWidth 32) (s.portId.setWidth 32) with
  | none => .ok (.errEndpInvalid, w)
  | some index =>
    let (ret, _, w) := smSendPacket E w (sessionOf index) (r.portId.setWidth 32) (r.nodeId.setWidth 32)
      buffer bufferSize true
    if ret ≠ 0 then .ok (if w.errno = etimedout then .timeout else .errGeneral, w)
    else .ok (.success, w)

/-- The record of a receive: its length, and as peer the sender, if one was delivered. -/
def recordRecv (id : Req) (receiveEndpoint sendEndpoint buffer len : U32) (completed : Bool) (db : Database) :
    Database :=
  setupRequestInternal receiveEndpoint sendEndpoint id buffer len 0 .recv
    (db.setRequest id { db.requests id with completed := completed, size := len })

def transMsgRecvI (w : World) (receiveEndpoint buffer bufferSize : U32) (request : Option U32) : Res (Issue × World) :=
  match transReserveRequest w.db with
  | (none, _) => .ok (⟨request, .errRequestLimit⟩, w)
  | (some id, db) => do
    let w := { w with db := db }
    let request ← assignRequest request id
    let r := assertDecode B E.locals.recv receiveEndpoint
    match ← transGetPortIndex B w.db (r.nodeId.setWidth 32) (r.portId.setWidth 32) with
    | none => .ok (⟨request, .errEndpInvalid⟩, w)
    | some index =>
      -- `se` and `sn` are not initialised: they hold a sender only if a message came
      let (got, w) := smRecvPacket E w (sessionOf index) E.locals.send.portId E.locals.send.nodeId
        buffer bufferSize false
      let status := if got.ret ≠ 0 then (if w.errno = eagain then .pending else .errTransmission) else .success
      let sendEndpoint := transEncodeHandleInternal 0 got.dstCpu got.dstEp
      .ok (⟨request, status⟩, { w with
        db := recordRecv id receiveEndpoint sendEndpoint buffer got.len (got.ret == 0) w.db })

/-- The blocking receive: the status, and the length where one is stored in
    `*received_size`. -/
def transMsgRecv (w : World) (receiveEndpoint buffer bufferSize : U32) : Res ((Status × Option U32) × World) := do
  let r := assertDecode B E.locals.recv receiveEndpoint
  match ← transGetPortIndex B w.db (r.nodeId.setWidth 32) (r.portId.setWidth 32) with
  | none => .ok ((.errEndpInvalid, none), w)
  | some index =>
    let (got, w) := smRecvPacket E w (sessionOf index) E.locals.send.portId E.locals.send.nodeId
      buffer bufferSize true
    if got.ret ≠ 0 then .ok ((if w.errno = etimedout then .timeout else .errGeneral, none), w)
    else .ok ((.success, some got.len), w)

def transMsgAvailable (w : World) (receiveEndpoint : U32) : Res ((U32 × Status) × World) := do
  let r := assertDecode B E.locals.recv receiveEndpoint
  if B.asserts && r.nodeId != 0 then .error .assertion
  else
    match ← transGetPortIndex B w.db (r.nodeId.setWidth 32) (r.portId.setWidth 32) with
    | none => .ok ((0, .errEndpInvalid), w)
    | some index =>
      let (ret, status, w) := smGetSessionStatus E w (sessionOf index)
      if ret ≠ 0 then .ok ((0, .errGeneral), w) else .ok ((status.nAvail, .success), w)

/-! ## Test and wait -/

/-- What test and wait return: the Boolean, `*size` and `*mcapi_status`. -/
structure Done where
  rc : Bool
  size : Option U32
  status : Status
  deriving DecidableEq, Repr

/-- The session and the peer a request is completed with. -/
structure Target where
  index : U32
  re : U32
  rn : U32
  deriving DecidableEq, Repr

/-- The lookup test and wait share: `none` where the request's endpoint is gone. -/
def completionTarget (db : Database) (d : RequestData) : Res (Option Target) :=
  if d.type ≠ .getEndpt then do
    let s := assertDecode B E.locals.send d.handle
    let r := assertDecode B E.locals.recv d.epEndpoint
    match ← transGetPortIndex B db (s.nodeId.setWidth 32) (s.portId.setWidth 32) with
    | none => .ok none
    | some index => .ok (some ⟨sessionOf index, r.portId.setWidth 32, r.nodeId.setWidth 32⟩)
  -- `re` and `rn` are 16 bits wide here too, where the query itself carried all 32
  else .ok (some ⟨0, (d.epPortNum.setWidth 16).setWidth 32, (d.epNodeNum.setWidth 16).setWidth 32⟩)

/-- `rc = sm_wait_nonblocking(...)`: the `int` is cut to the 8 bits of an
    `mcapi_boolean_t`. -/
def truncated (ret : Int) : BitVec 8 := BitVec.ofInt 8 ret

def transTestI (w : World) (request : U32) (size : Option U32) : Res (Done × World) := do
  if B.asserts && !transValidRequestHandle w.db request then .error .assertion
  else
    let id ← requestSlot request
    let d := w.db.requests id
    if !d.valid then .ok (⟨false, size, .errRequestInvalid⟩, w)
    else if d.cancelled then .ok (⟨false, size, .errRequestCancelled⟩, w)
    else if d.completed then .ok (⟨true, size.map fun _ => d.size, .success⟩, w)
    else
      match ← completionTarget B E w.db d with
      | none => .ok (⟨false, size, .errNodeNotinit⟩, w)
      | some t =>
        let size := size.map fun _ => d.size
        let (ret, size, w) := smWaitNonblocking E w t.index t.re t.rn d.buffer size d.type d.payload 0 false
        if truncated ret ≠ 0 then
          .ok (⟨false, size, if w.errno = eagain then .pending else .errGeneral⟩,
            { w with db := w.db.setRequest id { d with completed := false } })
        else if d.type = .getEndpt then do
          let w ← storeAt w d.buffer (endpointHandle d.epNodeNum d.epPortNum)
          .ok (⟨true, size, .success⟩, { w with db := w.db.setRequest id { d with completed := true } })
        else
          .ok (⟨true, size, .success⟩, { w with
            db := w.db.setRequest id { d with completed := true, size := size.getD d.size } })

/-- `mcapi_trans_remove_request(id)`, with its result ignored. -/
def dropRequest (w : World) (id : U32) : Res World := do
  let (_, db) ← transRemoveRequest B id w.db
  .ok { w with db := db }

/-- The statements `requests[id].completed == MCAPI_TRUE;` of the source compare and
    assign nothing. -/
def transWait (w : World) (request : U32) (size : Option U32) (timeout : U32) : Res (Done × World) := do
  if B.asserts && !transValidRequestHandle w.db request then .error .assertion
  else
    let id ← requestSlot request
    let d := w.db.requests id
    match ← completionTarget B E w.db d with
    | none => .ok (⟨false, size, .errNodeNotinit⟩, w)
    | some t =>
      let size := size.map fun _ => d.size
      if d.completed then
        let w ← dropRequest B w request
        .ok (⟨true, size, .success⟩, w)
      else
        let (ret, size, w) := smWaitNonblocking E w t.index t.re t.rn d.buffer size d.type d.payload timeout true
        if truncated ret ≠ 0 then
          let status := if w.errno = etimedout then .timeout else .errGeneral
          let w ← dropRequest B w request
          .ok (⟨false, size, status⟩, w)
        else if d.type = .getEndpt then do
          let w ← storeAt w d.buffer (endpointHandle d.epNodeNum d.epPortNum)
          let w ← dropRequest B w request
          .ok (⟨true, size, .success⟩, w)
        else
          let w := { w with db := w.db.setRequest id { d with size := size.getD d.size } }
          let w ← dropRequest B w request
          .ok (⟨true, size, .success⟩, w)

end Mcapi
