/-
  Mcapi.Api — the interface layer (`mcapi.c`) and runs of its calls.

  The channel operations, `mcapi_wait_any` and `mcapi_cancel` return
  `MCAPI_ERR_GENERAL` at once ("not supported") and touch nothing, so they are not
  calls here. `mcapi_initialize` and `mcapi_finalize` work on the shared segment and
  are in `Mcapi.Processes`.

  `CallStep` is one call by any process attached to the database: its `errno`, its
  descriptor's flags, the contents of its uninitialised locals and the driver's answer
  are arbitrary in every step, so a run of `CallStep`s is any interleaving, as whole
  operations, of the calls of any number of processes, with any driver.
-/

import Mcapi.Transport
import Mcapi.Lib.Runs

namespace Mcapi

variable (B : Build) (E : Env)

/-! ## The calls -/

/-- `MCAPI_DOMAIN_INVALID` where there is none. -/
def domainIdGet (db : Database) : U32 × Status :=
  match transGetDomainNum db with
  | some domain => (domain, .success)
  | none => (BitVec.allOnes 32, .errNodeNotinit)

def nodeIdGet (db : Database) : U32 × Status := (transGetNodeNum db, .success)

/-- The local `e` is not initialised, and is returned on every path. -/
def endpointCreate (w : World) (portId : U32) : Res ((U32 × Status) × World) := do
  let e := E.locals.e
  let (domainId, status) := domainIdGet w.db
  if status ≠ .success then .ok ((e, .errNodeNotinit), w)
  -- the stub takes the port alone; it is passed the domain id first
  else if transEndpointExists domainId then .ok ((e, .errEndpExists), w)
  else if transNumEndpoints = maxEndpoints then .ok ((e, .errEndpLimit), w)
  else if !transValidPort portId then .ok ((e, .errPortInvalid), w)
  else
    let ((rc, e), w) ← transEndpointCreate B E w e portId false
    .ok ((e, if rc then .success else .errEndpNoports), w)

def endpointGetI (w : World) (domainId nodeId portId endpoint : U32) (request : Option U32) : Res (Issue × World) :=
  -- the checks set `*mcapi_status`, which the transport then writes again
  transEndpointGetI B E w endpoint domainId nodeId portId request

def endpointGet (w : World) (_domainId nodeId portId timeout : U32) : Res ((U32 × Status) × World) :=
  let e := E.locals.e
  if !transValidNode nodeId then .ok ((e, .errNodeInvalid), w)
  else if !transValidPort portId then .ok ((e, .errPortInvalid), w)
  else transEndpointGet B E w e nodeId portId timeout

def endpointDelete (w : World) (endpoint : U32) : Res (Status × World) := do
  if !(← transValidEndpoint B w.db endpoint) then .ok (.errEndpInvalid, w)
  else if !transEndpointIsowner endpoint then .ok (.errEndpNotowner, w)
  else if ← transEndpointChannelIsopen B E.locals.send w.db endpoint then .ok (.errChanOpen, w)
  else
    let w ← transEndpointDelete B E w endpoint
    .ok (.success, w)

def endpointGetAttribute (w : World) (endpoint : U32) : Res (Status × World) := do
  if !(← transValidEndpoint B w.db endpoint) then .ok (.errEndpInvalid, w) else .ok (.success, w)

/-- The checks of a send, before the transport is called. -/
def sendChecks (db : Database) (sendEndpoint receiveEndpoint bufferSize priority : U32) : Res Status := do
  if !transValidPriority priority then .ok .errPriority
  else if !(← transValidEndpoints B db sendEndpoint receiveEndpoint) then .ok .errEndpInvalid
  else if maxMsgSize < bufferSize then .ok .errMsgLimit
  else .ok .success

/-- What the checks find is recorded in `*mcapi_status` only: the transport is called
    all the same, and writes the status again. -/
def msgSendI (w : World) (sendEndpoint receiveEndpoint buffer bufferSize priority : U32) (request : Option U32) :
    Res (Issue × World) := do
  let _ ← sendChecks B w.db sendEndpoint receiveEndpoint bufferSize priority
  transMsgSendI B E w sendEndpoint receiveEndpoint buffer bufferSize request

def msgSend (w : World) (sendEndpoint receiveEndpoint buffer bufferSize priority : U32) : Res (Status × World) := do
  let status ← sendChecks B w.db sendEndpoint receiveEndpoint bufferSize priority
  if status ≠ .success then .ok (status, w)
  else transMsgSend B E w sendEndpoint receiveEndpoint buffer bufferSize

/-- The checks of a receive. -/
def recvChecks (db : Database) (receiveEndpoint buffer : U32) : Res Status := do
  if !transValidBufferParam buffer then .ok .errParameter
  else if !(← transValidEndpoint B db receiveEndpoint) then .ok .errEndpInvalid
  else .ok .success

/-- Here too the transport is called whatever the checks find, unless `request` is null. -/
def msgRecvI (w : World) (receiveEndpoint buffer bufferSize : U32) (request : Option U32) : Res (Issue × World) := do
  if request.isNone then .ok (⟨none, .errParameter⟩, w)
  else
    let _ ← recvChecks B w.db receiveEndpoint buffer
    transMsgRecvI B E w receiveEndpoint buffer bufferSize request

/-- `*received_size` is `receivedSize` on entry. -/
def msgRecv (w : World) (receiveEndpoint buffer bufferSize receivedSize : U32) : Res ((Status × U32) × World) := do
  let status ← recvChecks B w.db receiveEndpoint buffer
  if status ≠ .success then .ok ((status, receivedSize), w)
  else
    let ((status, len), w) ← transMsgRecv B E w receiveEndpoint buffer bufferSize
    match len with
    | none => .ok ((status, receivedSize), w)
    | some len =>
      if bufferSize < len then .ok ((.errMsgTruncated, bufferSize), w) else .ok ((status, len), w)

def msgAvailable (w : World) (receiveEndpoint : U32) : Res ((U32 × Status) × World) := do
  if !(← transValidEndpoint B w.db receiveEndpoint) then .ok ((0, .errEndpInvalid), w)
  else transMsgAvailable B E w receiveEndpoint

/-- `*request` is `request`; a null `size` is `none`. -/
def test (w : World) (request : U32) (size : Option U32) : Res (Done × World) :=
  if !transValidSizeParam size then .ok (⟨true, size, .errParameter⟩, w)
  else if !transValidRequestHandle w.db request then .ok (⟨true, size, .errRequestInvalid⟩, w)
  else transTestI B E w request size

def wait (w : World) (request : U32) (size : Option U32) (timeout : U32) : Res (Done × World) :=
  if !transValidSizeParam size then .ok (⟨true, size, .errParameter⟩, w)
  else if !transValidRequestHandle w.db request then .ok (⟨false, size, .errRequestInvalid⟩, w)
  else transWait B E w request size timeout

/-! ## Runs -/

inductive Call where
  | domainIdGet
  | nodeIdGet
  | endpointCreate (portId : U32)
  | endpointGetI (domainId nodeId portId endpoint : U32) (request : Option U32)
  | endpointGet (domainId nodeId portId timeout : U32)
  | endpointDelete (endpoint : U32)
  | endpointGetAttribute (endpoint : U32)
  | msgSendI (sendEndpoint receiveEndpoint buffer bufferSize priority : U32) (request : Option U32)
  | msgSend (sendEndpoint receiveEndpoint buffer bufferSize priority : U32)
  | msgRecvI (receiveEndpoint buffer bufferSize : U32) (request : Option U32)
  | msgRecv (receiveEndpoint buffer bufferSize receivedSize : U32)
  | msgAvailable (receiveEndpoint : U32)
  | test (request : U32) (size : Option U32)
  | wait (request : U32) (size : Option U32) (timeout : U32)
  deriving DecidableEq, Repr

/-- What a call returns: a value with a status, an issued request, or a completion. -/
inductive Ret where
  | value (v : U32) (status : Status)
  | status (status : Status)
  | issue (i : Issue)
  | done (d : Done)
  deriving DecidableEq, Repr

def Call.exec (w : World) : Call → Res (Ret × World)
  | .domainIdGet => let (v, st) := Mcapi.domainIdGet w.db; .ok (.value v st, w)
  | .nodeIdGet => let (v, st) := Mcapi.nodeIdGet w.db; .ok (.value v st, w)
  | .endpointCreate p => do let ((v, st), w) ← Mcapi.endpointCreate B E w p; .ok (.value v st, w)
  | .endpointGetI d n p e r => do let (i, w) ← Mcapi.endpointGetI B E w d n p e r; .ok (.issue i, w)
  | .endpointGet d n p t => do let ((v, st), w) ← Mcapi.endpointGet B E w d n p t; .ok (.value v st, w)
  | .endpointDelete e => do let (st, w) ← Mcapi.endpointDelete B E w e; .ok (.status st, w)
  | .endpointGetAttribute e => do let (st, w) ← Mcapi.endpointGetAttribute B w e; .ok (.status st, w)
  | .msgSendI s r b n p q => do let (i, w) ← Mcapi.msgSendI B E w s r b n p q; .ok (.issue i, w)
  | .msgSend s r b n p => do let (st, w) ← Mcapi.msgSend B E w s r b n p; .ok (.status st, w)
  | .msgRecvI r b n q => do let (i, w) ← Mcapi.msgRecvI B E w r b n q; .ok (.issue i, w)
  | .msgRecv r b n m => do let ((st, v), w) ← Mcapi.msgRecv B E w r b n m; .ok (.value v st, w)
  | .msgAvailable r => do let ((v, st), w) ← Mcapi.msgAvailable B E w r; .ok (.value v st, w)
  | .test v s => do let (d, w) ← Mcapi.test B E w v s; .ok (.done d, w)
  | .wait v s t => do let (d, w) ← Mcapi.wait B E w v s t; .ok (.done d, w)

/-- One call of a run: what it was given, the world it found, and what came of it. -/
structure CallRec where
  env : Env
  call : Call
  before : World
  ret : Ret
  after : World

/-- The call returned. -/
def CallRec.Ran (l : CallRec) : Prop := l.before.trace = [] ∧ l.call.exec .std l.env l.before = .ok (l.ret, l.after)

def CallStep (db : Database) (l : CallRec) (db' : Database) : Prop :=
  l.before.db = db ∧ l.after.db = db' ∧ l.Ran

/-- The database after one `mcapi_initialize` on a fresh segment. -/
def initialised (domainId nodeId : U32) (nodeAttrs : Option NodeAttributes) : Database :=
  (transAddNode freshPool domainId nodeId nodeAttrs).2

/-- The states that calls lead to after one `mcapi_initialize`. -/
def Live (db : Database) : Prop :=
  ∃ domainId nodeId nodeAttrs, Lts.Reachable CallStep (initialised domainId nodeId nodeAttrs) db

/-- A process that has just initialised node 0 and has no endpoint. -/
def noEndpoints : World := { db := initialised 0 0 none }

/-- A driver that takes every command. -/
def willing : Env := { drv := fun _ p => ⟨0, 0, p, {}⟩ }

/-- A call made with `errno` clear, as a step; one that faults leaves things as they are. -/
def Call.record (E : Env) (c : Call) (db : Database) : CallRec :=
  match c.exec .std E { db := db } with
  | .ok (x, w) => ⟨E, c, { db := db }, x, w⟩
  | .error _ => ⟨E, c, { db := db }, .status .errGeneral, { db := db }⟩

/-- The database it leaves. -/
def Call.after (E : Env) (c : Call) (db : Database) : Database := (c.record E db).after.db

theorem record_step {E : Env} {c : Call} {db : Database} (h : (c.exec .std E { db := db }).isOk = true) :
    CallStep db (c.record E db) (c.after E db) := by
  unfold Call.after Call.record
  cases hc : c.exec .std E { db := db } with
  | error f => rw [hc] at h; cases h
  | ok x => exact ⟨rfl, rfl, rfl, hc⟩

theorem Live.after {db : Database} (h : Live db) (E : Env) (c : Call) : Live (c.after E db) := by
  cases hc : c.exec .std E { db := db } with
  | error f =>
    simp only [Call.after, Call.record, hc]
    exact h
  | ok x =>
    obtain ⟨d, n, a, hr⟩ := h
    exact ⟨d, n, a, hr.tail (record_step (by rw [hc]; rfl))⟩

/-- The driver commands of one call. -/
def CallRec.commands (l : CallRec) : List Command := Mcapi.commands l.after.trace

/-- What it stored through its caller's pointers. -/
def CallRec.stores (l : CallRec) : List (U32 × U32) := Mcapi.stores l.after.trace

end Mcapi
