/-
  Mcapi.Channels — packet and scalar channels (`mcapi_trans_stub.c`, and
  `mcapi_trans_connect_channel_internal` and the scalar commands of
  `trans_impl/tran_impl_dev.c`).

  A channel is an endpoint with its peer in `recv_queue.recv_endpt`. Connect, open and
  close look the endpoint up by the node and port of its handle and then work on node
  entry 0; the sends read the peer back, the packet sends from node entry 0 and the scalar
  send from the entry whose index is the node number (`nodeSlot`).

  The packet buffers are given by the address of the first one (`buffers`). What a
  function hands out through a pointer is a value passed in and returned.
-/

import Mcapi.Transport

namespace Mcapi

variable (B : Build) (E : Env)

/-! ## The driver's side -/

def smConnectSession (w : World) (sessionIdx dstEp dstCpu : U32) (type : PacketType) : Int × World :=
  let (reply, w) := ioctl E w .connect
    { sessionIdx := sessionIdx, remoteEp := dstEp, dstCpu := dstCpu, type := type }
  (reply.ret, w)

/-- The packet type for a scalar of this many bytes; for other sizes `memset`'s 0 stays. -/
def scalarReady (size : U32) : PacketType :=
  if size = 1 then .scalarReady8
  else if size = 2 then .scalarReady16
  else if size = 4 then .scalarReady32
  else if size = 8 then .scalarReady64
  else .zero

def smSendScalar (w : World) (sessionIdx : U32) (dstEp dstCpu : U16) (scalar0 scalar1 size : U32) (blocking : Bool) :
    Int × World :=
  let w := setBlocking w blocking
  let (reply, w) := ioctl E w .send
    { sessionIdx := sessionIdx, remoteEp := dstEp.setWidth 32, dstCpu := dstCpu.setWidth 32, buf := scalar0,
      bufLen := scalar1, type := scalarReady size }
  (reply.ret, w)

/-- A packet type as a number; `icc` are the values of the constants. -/
def PacketType.word (icc : PacketType → U32) : PacketType → U32
  | .number n => n
  | t => icc t

/-- What `sm_recv_scalar` returns, and leaves in its caller's variables. -/
structure ScalarReceived where
  ret : Int
  scalar0 : U32
  scalar1 : U32
  size : U32
  deriving DecidableEq, Repr

def smRecvScalar (icc : PacketType → U32) (w : World) (sessionIdx scalar0 scalar1 size : U32) (blocking : Bool) :
    ScalarReceived × World :=
  let w := setBlocking w blocking
  let (reply, w) := ioctl E w .recv { sessionIdx := sessionIdx, type := .scalarReady64 }
  if reply.ret ≠ 0 then (⟨reply.ret, scalar0, scalar1, size⟩, w)
  else (⟨1, reply.pkt.buf, reply.pkt.bufLen, reply.pkt.type.word icc⟩, w)

/-! ## Connecting -/

/-- Write one endpoint entry of node entry 0. -/
def Database.setEndpoint (db : Database) (k : Slot) (e : EndpointEntry) : Database :=
  db.setNode 0 { db.node0 with endpoints := Function.update db.node0.endpoints k e }

def transConnectChannelInternal (w : World) (sendEndpoint receiveEndpoint : U32) (type : ChannelType) : Res World := do
  let s := assertDecode B E.locals.send sendEndpoint
  let r := assertDecode B E.locals.recv receiveEndpoint
  match ← transGetPortIndex B w.db (s.nodeId.setWidth 32) (s.portId.setWidth 32) with
  | none => .ok w
  | some index =>
    let iccType : Option PacketType :=
      match type with
      | .pktChan => some .spSessionPacket
      | .sclChan => some .spSessionScalar
      | .noChan => none
    match iccType with
    | none => .ok w
    | some iccType =>
      let (ret, w) := smConnectSession E w (sessionOf index) (r.portId.setWidth 32) (r.nodeId.setWidth 32) iccType
      if ret ≠ 0 then .ok w
      else
        let entry := w.db.node0.endpoints index
        .ok { w with db := w.db.setEndpoint index { entry with
          connected := true
          recvQueue := { entry.recvQueue with recvEndpt := receiveEndpoint, channelType := type } } }

/-- Both connects report `MCAPI_TRUE`, which is `MCAPI_SUCCESS`, whatever happened. -/
def transChanConnectI (w : World) (sendEndpoint receiveEndpoint : U32) (type : ChannelType) : Res (Status × World) := do
  let w ← transConnectChannelInternal B E w sendEndpoint receiveEndpoint type
  .ok (.success, w)

def transPktchanConnectI (w : World) (sendEndpoint receiveEndpoint : U32) : Res (Status × World) :=
  transChanConnectI B E w sendEndpoint receiveEndpoint .pktChan

def transSclchanConnectI (w : World) (sendEndpoint receiveEndpoint : U32) : Res (Status × World) :=
  transChanConnectI B E w sendEndpoint receiveEndpoint .sclChan

/-- An endpoint not known to be connected here is asked about, and its peer noted. -/
def transChannelConnected (w : World) (endpoint : U32) : Res (Bool × World) := do
  let name := assertDecode B E.locals.send endpoint
  match ← transGetPortIndex B w.db (name.nodeId.setWidth 32) (name.portId.setWidth 32) with
  | none => .ok (false, w)
  | some index =>
    let entry := w.db.node0.endpoints index
    if entry.connected then .ok (true, w)
    else
      let (ret, status, w) := smGetSessionStatus E w (sessionOf index)
      if ret ≠ 0 then .ok (false, w)
      else if status.flags = 1 then
        .ok (true, { w with db := w.db.setEndpoint index { entry with
          connected := true
          recvQueue := { entry.recvQueue with recvEndpt := status.remoteEp } } })
      else .ok (false, w)

def transConnected (w : World) (endpoint : U32) : Res (Bool × World) := do
  let name := assertDecode B E.locals.send endpoint
  match ← transGetPortIndex B w.db (name.nodeId.setWidth 32) (name.portId.setWidth 32) with
  | none => .ok (false, w)
  | some index =>
    if (w.db.node0.endpoints index).connected then .ok (true, w)
    else
      let (ret, status, w) := smGetSessionStatus E w (sessionOf index)
      .ok (ret == 0 && status.flags == 1, w)

/-! ## Opening and closing -/

/-- The four opens differ in the channel type they compare the endpoint's with, and that
    only sets a local that is not used again. `status` is what the interface layer found. -/
def openChannel (w : World) (handle endpoint : U32) (status : Status) : Res ((U32 × Status) × World) := do
  let name := assertDecode B E.locals.send endpoint
  match ← transGetPortIndex B w.db (name.nodeId.setWidth 32) (name.portId.setWidth 32) with
  | none => .ok ((handle, .zero), w)
  | some index =>
    if status = .success then
      .ok ((transEncodeHandleInternal 0 name.nodeId name.portId, status),
        { w with db := w.db.setEndpoint index { w.db.node0.endpoints index with isOpen := true } })
    else .ok ((handle, status), w)

def transPktchanRecvOpenI := openChannel B E
def transPktchanSendOpenI := openChannel B E
def transSclchanRecvOpenI := openChannel B E
def transSclchanSendOpenI := openChannel B E

def closeChannel (w : World) (handle : U32) (status : Status) : Res (Status × World) := do
  let name := assertDecode B E.locals.send handle
  match ← transGetPortIndex B w.db (name.nodeId.setWidth 32) (name.portId.setWidth 32) with
  | none => .ok (.zero, w)
  | some index =>
    if status = .success then
      .ok (status, { w with db := w.db.setEndpoint index { w.db.node0.endpoints index with isOpen := false } })
    else .ok (status, w)

def transPktchanRecvCloseI := closeChannel B E
def transPktchanSendCloseI := closeChannel B E
def transSclchanRecvCloseI := closeChannel B E
def transSclchanSendCloseI := closeChannel B E

/-! ## Packets -/

/-- The part the two packet sends share, up to the command and with it: what the command
    returned, and the peer. -/
def pktchanSendCommand (w : World) (sendHandle buffer size : U32) (blocking : Bool) :
    Res (Option (Int × U32) × World) := do
  let s := assertDecode B E.locals.send sendHandle
  match ← transGetPortIndex B w.db (s.nodeId.setWidth 32) (s.portId.setWidth 32) with
  | none => .ok (none, w)
  | some index =>
    let recvEndpt := (w.db.node0.endpoints index).recvQueue.recvEndpt
    let r := assertDecode B E.locals.recv recvEndpt
    let (ret, _, w) := smSendPacket E w (sessionOf index) (r.portId.setWidth 32) (r.nodeId.setWidth 32)
      buffer size blocking
    .ok (some (ret, recvEndpt), w)

/-- It reserves no request: the record is the one `*request` names. -/
def transPktchanSendI (w : World) (sendHandle buffer size : U32) (request : Option U32) : Res (Status × World) := do
  match ← pktchanSendCommand B E w sendHandle buffer size false with
  | (none, w) => .ok (.errChanInvalid, w)
  | (some (ret, recvEndpt), w) =>
    let status := if ret ≠ 0 then .errTransmission else .success
    match request with
    | none => .ok (status, w)
    | some request =>
      let id ← requestSlot request
      .ok (status, { w with db := setupRequestInternal sendHandle recvEndpt id 0 size 0 .send w.db })

def transPktchanSend (w : World) (sendHandle buffer size : U32) : Res (Bool × World) := do
  match ← pktchanSendCommand B E w sendHandle buffer size true with
  | (none, w) => .ok (false, w)
  | (some (ret, _), w) => .ok (ret == 0, w)

/-- The size of a packet buffer: `MCAPI_MAX_PKT_SIZE` and `MCAPI_MAX_MSG_SIZE` are equal. -/
def bufferSize : U32 := maxMsgSize

/-- `buffers[i].buff`. -/
def bufferAt (buffers : U32) (i : Req) : U32 := buffers + bufferSize * BitVec.ofNat 32 i.val

/-- `len` is not initialised; and the slot reserved is not the one `*request` names. -/
def transPktchanRecvI (buffers : U32) (w : World) (receiveHandle buffer : U32) (request : Option U32) :
    Res ((Status × U32) × World) := do
  let r := assertDecode B E.locals.recv receiveHandle
  match ← transGetPortIndex B w.db (r.nodeId.setWidth 32) (r.portId.setWidth 32) with
  | none => .ok ((.errChanInvalid, buffer), w)
  | some index =>
    match transReserveRequest w.db with
    | (none, _) => .ok ((.errRequestLimit, buffer), w)
    | (some i, db) =>
      let buff := bufferAt buffers i
      let (got, w) := smRecvPacket E { w with db := db } (sessionOf index) E.locals.send.portId E.locals.send.nodeId
        buff E.locals.len false
      if got.ret < 0 then .ok ((.errTransmission, buffer), w)
      else
        let sendEndpoint := transEncodeHandleInternal 0 got.dstCpu got.dstEp
        match request with
        | none => .ok ((.success, buff), w)
        | some request =>
          let id ← requestSlot request
          .ok ((.success, buff),
            { w with db := setupRequestInternal sendEndpoint receiveHandle id buff got.len 0 .recv w.db })

/-- An `mcapi_boolean_t`, where a function returns other values than TRUE and FALSE. -/
abbrev Boolean := BitVec 8

/-- `MCAPI_ERR_REQUEST_LIMIT`, the 42nd of `mcapi_status_codes`. -/
def requestLimit : Boolean := 42

/-- Returns the Boolean, `*buffer` and `*received_size`, which it does not write. -/
def transPktchanRecv (buffers : U32) (w : World) (receiveHandle buffer receivedSize : U32) :
    Res ((Boolean × U32 × U32) × World) := do
  let r := assertDecode B E.locals.recv receiveHandle
  match ← transGetPortIndex B w.db (r.nodeId.setWidth 32) (r.portId.setWidth 32) with
  | none => .ok ((0, buffer, receivedSize), w)
  | some index =>
    match transReserveRequest w.db with
    | (none, _) => .ok ((requestLimit, buffer, receivedSize), w)
    | (some i, db) =>
      let buff := bufferAt buffers i
      let (got, w) := smRecvPacket E { w with db := db } (sessionOf index) E.locals.send.portId E.locals.send.nodeId
        buff E.locals.len true
      if got.ret < 0 then .ok ((0, buffer, receivedSize), w)
      -- `MCAPI_SUCCESS`, which is TRUE
      else .ok ((1, buff, receivedSize), w)

def transPktchanAvailable := transMsgAvailable B E

/-- The upper bound is the address just past the last buffer, and is let through. -/
def transPktchanFree (buffers : U32) (db : Database) (buffer : U32) : Res (Bool × Database) := do
  if buffers ≤ buffer ∧ buffer ≤ buffers + bufferSize * BitVec.ofNat 32 maxBuffers then
    let offset := (buffer &&& ~~~(maxMsgSize - 1)) - buffers
    let (_, db) ← transRemoveRequest B (offset / maxMsgSize) db
    .ok (true, db)
  else .ok (false, db)

/-! ## Scalars -/

/-- A node number used as an index of the node entries: unchecked. -/
def nodeSlot (n : U16) : Res (Fin maxNodes) :=
  if h : n.toNat < maxNodes then .ok ⟨n.toNat, h⟩ else .error .outOfBounds

/-- `scalar0` and `scalar1`. -/
def scalarWords (dataword : BitVec 64) (size : U32) : U32 × U32 :=
  if size = 1 then ((dataword &&& 0xff).setWidth 32, 0)
  else if size = 2 then ((dataword &&& 0xffff).setWidth 32, 0)
  else if size = 4 then ((dataword &&& 0xffffffff).setWidth 32, 0)
  else if size = 8 then (((dataword >>> 32) &&& 0xffffffff).setWidth 32, (dataword &&& 0xffffffff).setWidth 32)
  else (0, 0)

/-- TRUE whatever the command returns. -/
def transSclchanSend (w : World) (sendHandle : U32) (dataword : BitVec 64) (size : U32) : Res (Bool × World) := do
  let s := assertDecode B E.locals.send sendHandle
  match ← transGetPortIndex B w.db (s.nodeId.setWidth 32) (s.portId.setWidth 32) with
  | none => .ok (false, w)
  | some index =>
    let node := (w.db.domains 0).nodes (← nodeSlot s.nodeId)
    let r := assertDecode B E.locals.recv (node.endpoints index).recvQueue.recvEndpt
    match ← transGetPortIndex B w.db (s.nodeId.setWidth 32) (s.portId.setWidth 32) with
    | none => .ok (false, w)
    | some index =>
      let (scalar0, scalar1) := scalarWords dataword size
      let (_, w) := smSendScalar E w (sessionOf index) r.portId r.nodeId scalar0 scalar1 size true
      .ok (true, w)

/-- The word put together, if the type is one of the widths. -/
def scalarValue (scalar0 scalar1 size : U32) : Option (BitVec 64) :=
  if size = 1 ∨ size = 2 ∨ size = 4 then some (scalar0.setWidth 64)
  else if size = 8 then some ((scalar0.setWidth 64 <<< 32) ||| scalar1.setWidth 64)
  else none

/-- Returns the Boolean and `*data`. -/
def transSclchanRecv (icc : PacketType → U32) (w : World) (receiveHandle : U32) (data : BitVec 64) (size : U32) :
    Res ((Bool × BitVec 64) × World) := do
  let r := assertDecode B E.locals.recv receiveHandle
  match ← transGetPortIndex B w.db (r.nodeId.setWidth 32) (r.portId.setWidth 32) with
  | none => .ok ((false, data), w)
  | some index =>
    let (got, w) := smRecvScalar E icc w (sessionOf index) 0 0 E.locals.type true
    if got.ret ≠ 1 then .ok ((false, data), w)
    else
      match scalarValue got.scalar0 got.scalar1 got.size with
      | none => .ok ((false, data), w)
      | some value => .ok ((size == got.size, value), w)

def transSclchanAvailableI := transMsgAvailable B E

end Mcapi
