/-
  Mcapi.Driver — the calls on the device (`trans_impl/tran_impl_dev.c`).

  `icc.h` is not in the repository: a packet's fields are taken as 32-bit words, and its
  constants for `type` as names. What the driver answers is a parameter of every
  call (`Env.drv`): the value `ioctl` returns, `errno`, and the packet as the driver
  leaves it. A run gives each call an answer of its own, so nothing is assumed about the
  driver from one call to the next.

  `World` is what a call sees: the shared database, the calling process's `errno`, the
  status flags of its descriptor, and the trace of what the call has done so far
  (commands to the driver, `F_SETFL`s, words stored through the caller's pointers).
-/

import Mcapi.Handles

namespace Mcapi

/-! ## Commands and packets -/

inductive Cmd where
  | create
  | shutdown
  | connect
  | send
  | recv
  | queryRemoteEp
  | getSessionStatus
  | wait
  deriving DecidableEq, Repr

/-- `pkt.type`: 0 from the `memset`, a constant of `icc.h`, a request's type, or a number
    that the driver wrote there. -/
inductive PacketType where
  | zero
  | spPacket
  | spSessionPacket
  | spSessionScalar
  | scalarReady8
  | scalarReady16
  | scalarReady32
  | scalarReady64
  | request (t : RequestType)
  | number (n : U32)
  deriving DecidableEq, Repr

/-- `struct sm_packet`; the defaults are what `memset` leaves. -/
structure SmPacket where
  sessionIdx : U32 := 0
  localEp : U32 := 0
  remoteEp : U32 := 0
  dstCpu : U32 := 0
  type : PacketType := .zero
  buf : U32 := 0
  bufLen : U32 := 0
  payload : U32 := 0
  timeout : U32 := 0
  deriving DecidableEq, Repr

/-- `struct sm_session_status`, which the driver fills through `pkt.param`. -/
structure SmSessionStatus where
  nAvail : U32 := 0
  flags : U32 := 0
  remoteEp : U32 := 0
  deriving DecidableEq, Repr

/-- The driver's answer to one `ioctl`. -/
structure Reply where
  ret : Int
  errno : Int
  pkt : SmPacket
  status : SmSessionStatus := {}
  deriving DecidableEq, Repr

def eagain : Int := 11
def einval : Int := 22
def etimedout : Int := 110

/-- What the uninitialised locals of the library hold when a call starts. -/
structure Locals where
  e : U32 := 0
  nodeNum : U32 := 0
  send : Decoded := ⟨0, 0, 0⟩
  recv : Decoded := ⟨0, 0, 0⟩
  len : U32 := 0
  type : U32 := 0
  deriving DecidableEq, Repr

structure Env where
  drv : Cmd → SmPacket → Reply
  locals : Locals := {}

/-! ## What a call does -/

inductive Event where
  | setfl (flags : U32)
  | ioctl (cmd : Cmd) (pkt : SmPacket) (reply : Reply)
  | store (addr val : U32)
  deriving DecidableEq, Repr

structure World where
  db : Database
  errno : Int := 0
  fl : U32 := 2
  trace : List Event := []

/-- One driver command, as the trace records it. -/
structure Command where
  cmd : Cmd
  pkt : SmPacket
  reply : Reply
  deriving DecidableEq, Repr

def Event.command : Event → Option Command
  | .ioctl cmd pkt reply => some ⟨cmd, pkt, reply⟩
  | _ => none

/-- The driver commands of a trace. -/
def commands (trace : List Event) : List Command := trace.filterMap Event.command

@[simp] theorem commands_nil : commands [] = [] := rfl
@[simp] theorem commands_append (t t' : List Event) : commands (t ++ t') = commands t ++ commands t' :=
  List.filterMap_append
@[simp] theorem commands_setfl (f : U32) (t : List Event) : commands (.setfl f :: t) = commands t := rfl
@[simp] theorem commands_store (a v : U32) (t : List Event) : commands (.store a v :: t) = commands t := rfl
@[simp] theorem commands_ioctl (c : Cmd) (p : SmPacket) (r : Reply) (t : List Event) :
    commands (.ioctl c p r :: t) = ⟨c, p, r⟩ :: commands t := rfl

def Event.stored : Event → Option (U32 × U32)
  | .store addr val => some (addr, val)
  | _ => none

/-- The stores of a trace, each an address and the word put there. -/
def stores (trace : List Event) : List (U32 × U32) := trace.filterMap Event.stored

@[simp] theorem stores_nil : stores [] = [] := rfl
@[simp] theorem stores_append (t t' : List Event) : stores (t ++ t') = stores t ++ stores t' := List.filterMap_append
@[simp] theorem stores_setfl (f : U32) (t : List Event) : stores (.setfl f :: t) = stores t := rfl
@[simp] theorem stores_ioctl (c : Cmd) (p : SmPacket) (r : Reply) (t : List Event) :
    stores (.ioctl c p r :: t) = stores t := rfl
@[simp] theorem stores_store (a v : U32) (t : List Event) : stores (.store a v :: t) = (a, v) :: stores t := rfl

variable (E : Env)

/-- `ioctl`: only a negative return sets `errno`. -/
def ioctl (w : World) (cmd : Cmd) (pkt : SmPacket) : Reply × World :=
  let reply := E.drv cmd pkt
  (reply, { w with
    errno := if reply.ret < 0 then reply.errno else w.errno
    trace := w.trace ++ [.ioctl cmd pkt reply] })

def oNonblock : U32 := 0x800

/-- The flags `F_SETFL` can change (`O_APPEND`, `O_NONBLOCK`, `O_ASYNC`, `O_DIRECT`,
    `O_NOATIME`); the kernel keeps the others. -/
def setflMask : U32 := 0x400 ||| 0x800 ||| 0x2000 ||| 0x10000 ||| 0x40000

/-- The pair of `fcntl`s before a blocking or non-blocking command. In
    `flags = fcntl(fd, F_GETFL, 0) > 0` the comparison binds tighter than the
    assignment, so `flags` is 1 where the branch is taken. -/
def setBlocking (w : World) (blocking : Bool) : World :=
  if 0 < w.fl.toInt then
    let flags : U32 := 1
    let flags := if blocking then flags &&& ~~~oNonblock else flags ||| oNonblock
    { w with
      fl := (w.fl &&& ~~~setflMask) ||| (flags &&& setflMask)
      trace := w.trace ++ [.setfl flags] }
  else w

@[simp] theorem setBlocking_db (w : World) (b : Bool) : (setBlocking w b).db = w.db := by
  unfold setBlocking; split <;> rfl

@[simp] theorem setBlocking_errno (w : World) (b : Bool) : (setBlocking w b).errno = w.errno := by
  unfold setBlocking; split <;> rfl

@[simp] theorem commands_setBlocking (w : World) (b : Bool) :
    commands (setBlocking w b).trace = commands w.trace := by
  unfold setBlocking; split
  · simp
  · rfl

@[simp] theorem stores_setBlocking (w : World) (b : Bool) : stores (setBlocking w b).trace = stores w.trace := by
  unfold setBlocking; split
  · simp
  · rfl

/-! ## The sessions -/

/-- The value returned is `pkt.session_idx`; `ret` is not looked at. -/
def smCreateSession (w : World) (srcEp : U32) (type : PacketType) : U32 × World :=
  let (reply, w) := ioctl E w .create { localEp := srcEp, type := type }
  (reply.pkt.sessionIdx, w)

def smDestroySession (w : World) (sessionIdx : U32) : Int × World :=
  let (reply, w) := ioctl E w .shutdown { sessionIdx := sessionIdx }
  (reply.ret, w)

/-- Returns `ret` and what is stored through `payload` where the caller passed one. -/
def smSendPacket (w : World) (sessionIdx dstEp dstCpu buf len : U32) (blocking : Bool) : Int × U32 × World :=
  let w := setBlocking w blocking
  let (reply, w) := ioctl E w .send
    { sessionIdx := sessionIdx, remoteEp := dstEp, dstCpu := dstCpu, buf := buf, bufLen := len }
  (reply.ret, reply.pkt.payload, w)

/-- The sender's port and node and the length, as `sm_recv_packet` leaves them. -/
structure Received where
  ret : Int
  dstEp : U16
  dstCpu : U16
  len : U32
  deriving DecidableEq, Repr

def smRecvPacket (w : World) (sessionIdx : U32) (dstEp dstCpu : U16) (buf len : U32) (blocking : Bool) :
    Received × World :=
  if buf = 0 then (⟨-einval, dstEp, dstCpu, len⟩, w)
  else
    let w := setBlocking w blocking
    let (reply, w) := ioctl E w .recv { sessionIdx := sessionIdx, buf := buf, bufLen := len }
    if reply.ret = 0 then (⟨0, reply.pkt.remoteEp.setWidth 16, reply.pkt.dstCpu.setWidth 16, reply.pkt.bufLen⟩, w)
    else (⟨reply.ret, dstEp, dstCpu, len⟩, w)

def smGetRemoteEp (w : World) (dstEp dstCpu timeout : U32) (blocking : Bool) : Int × World :=
  let w := setBlocking w blocking
  let (reply, w) := ioctl E w .queryRemoteEp { remoteEp := dstEp, dstCpu := dstCpu, timeout := timeout }
  (reply.ret, w)

def smGetSessionStatus (w : World) (sessionIdx : U32) : Int × SmSessionStatus × World :=
  let (reply, w) := ioctl E w .getSessionStatus { sessionIdx := sessionIdx }
  (reply.ret, reply.status, w)

/-- `len` is the caller's `size` pointer: read before the command and written after it,
    whatever the command returns. -/
def smWaitNonblocking (w : World) (sessionIdx dstEp dstCpu buf : U32) (len : Option U32) (type : RequestType)
    (payload timeout : U32) (blocking : Bool) : Int × Option U32 × World :=
  let w := setBlocking w blocking
  let (reply, w) := ioctl E w .wait
    { sessionIdx := sessionIdx, remoteEp := dstEp, dstCpu := dstCpu, buf := buf, type := .request type,
      timeout := timeout, payload := payload, bufLen := len.getD 0 }
  (reply.ret, len.map fun _ => reply.pkt.bufLen, w)

/-! ## What a command changes -/

section
variable {E}

@[simp] theorem ioctl_reply (w : World) (c : Cmd) (p : SmPacket) : (ioctl E w c p).1 = E.drv c p := rfl
@[simp] theorem ioctl_db (w : World) (c : Cmd) (p : SmPacket) : (ioctl E w c p).2.db = w.db := rfl
@[simp] theorem commands_ioctl_trace (w : World) (c : Cmd) (p : SmPacket) :
    commands (ioctl E w c p).2.trace = commands w.trace ++ [⟨c, p, E.drv c p⟩] := by
  simp [ioctl]
@[simp] theorem stores_ioctl_trace (w : World) (c : Cmd) (p : SmPacket) :
    stores (ioctl E w c p).2.trace = stores w.trace := by
  simp [ioctl]

/-- `errno` after a command. -/
def errnoAfter (E : Env) (w : World) (c : Cmd) (p : SmPacket) : Int :=
  if (E.drv c p).ret < 0 then (E.drv c p).errno else w.errno

@[simp] theorem ioctl_errno (w : World) (c : Cmd) (p : SmPacket) : (ioctl E w c p).2.errno = errnoAfter E w c p := rfl
@[simp] theorem errnoAfter_setBlocking (w : World) (b : Bool) (c : Cmd) (p : SmPacket) :
    errnoAfter E (setBlocking w b) c p = errnoAfter E w c p := by
  simp [errnoAfter]
@[simp] theorem errnoAfter_db (w : World) (db : Database) (c : Cmd) (p : SmPacket) :
    errnoAfter E { w with db := db } c p = errnoAfter E w c p := rfl
@[simp] theorem smGetRemoteEp_db (w : World) (e c t : U32) (b : Bool) : (smGetRemoteEp E w e c t b).2.db = w.db := by
  simp [smGetRemoteEp]
@[simp] theorem smSendPacket_db (w : World) (k e c p n : U32) (b : Bool) :
    (smSendPacket E w k e c p n b).2.2.db = w.db := by
  simp [smSendPacket]
@[simp] theorem smRecvPacket_db (w : World) (k : U32) (e c : U16) (p n : U32) (b : Bool) :
    (smRecvPacket E w k e c p n b).2.db = w.db := by
  unfold smRecvPacket
  split
  · rfl
  · dsimp only
    split <;> simp

end

end Mcapi
