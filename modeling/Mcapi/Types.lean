/-
  Mcapi.Types — the shared database and the types of the interface (`mca.h`,
  `mcapi.h`, `mcapi_impl_spec.h`, `transport_sm.h`).

  The target has 32-bit pointers and a 32-bit `size_t` (the code casts buffers to
  `uint32_t` and passes a `size_t *` where a `uint32_t *` is expected), so both are
  `U32` here. A C `int` that only ever holds a slot index or -1 is an `Option` of the
  slot. A Boolean of the code that is only ever set to TRUE or FALSE is a `Bool`.

  Left out because no function here reads them: the message queues' elements, the
  attributes of endpoints, `pid` and `tid` of a node, `num_domains`, the contents of the
  packet buffers, and `buffer_ptr` and `status` of a request.
-/

import Mathlib.Data.Fin.Basic
import Mathlib.Logic.Function.Basic

namespace Mcapi

abbrev U16 := BitVec 16
abbrev U32 := BitVec 32

/-! ## Limits -/

abbrev maxEndpoints : Nat := 32
abbrev maxDomains : Nat := 2
abbrev maxNodes : Nat := 2
abbrev maxBuffers : Nat := 64
abbrev maxRequests : Nat := maxBuffers
abbrev maxNumAttributes : Nat := 4

-- the zero of `Nat` is written out: it is the one that numerals of `Fin` ask for
instance : @NeZero Nat Zero.ofOfNat0 maxEndpoints := ⟨by decide⟩
instance : @NeZero Nat Zero.ofOfNat0 maxDomains := ⟨by decide⟩
instance : @NeZero Nat Zero.ofOfNat0 maxRequests := ⟨by decide⟩
instance : @NeZero Nat Zero.ofOfNat0 maxNumAttributes := ⟨by decide⟩

def maxMsgSize : U32 := 1024

/-- `MCAPI_PORT_ANY`. -/
def portAny : U32 := BitVec.allOnes 32

/-- The index of a request record. -/
abbrev Req := Fin maxRequests

/-- The index of an endpoint entry; also the driver's session index for it. -/
abbrev Slot := Fin maxEndpoints

/-! ## Status codes -/

/-- `zero` is none of `mcapi_status_codes`, which start at 1: some functions store
    `MCAPI_FALSE` as a status. -/
inductive Status where
  | zero
  | success
  | pending
  | timeout
  | errParameter
  | errDomainInvalid
  | errNodeInvalid
  | errNodeInitfailed
  | errNodeInitialized
  | errNodeNotinit
  | errNodeFinalfailed
  | errPortInvalid
  | errEndpInvalid
  | errEndpExists
  | errEndpNotowner
  | errEndpNoports
  | errEndpLimit
  | errMsgLimit
  | errMsgTruncated
  | errChanOpen
  | errChanInvalid
  | errTransmission
  | errPriority
  | errAttrSize
  | errAttrNotsupported
  | errRequestInvalid
  | errRequestLimit
  | errRequestCancelled
  | errGeneral
  deriving DecidableEq, Repr

/-! ## Errors of the run itself -/

/-- Why a call does not return: a failed `assert`, an access outside an array, or an
    access through a null pointer or one that is no longer mapped. -/
inductive Fault where
  | assertion
  | outOfBounds
  | badPointer
  deriving DecidableEq, Repr

abbrev Res := Except Fault

theorem bind_eq_ok {α β : Type} {x : Res α} {f : α → Res β} {b : β} :
    (x >>= f) = .ok b ↔ ∃ a, x = .ok a ∧ f a = .ok b := by
  cases x with
  | error e => exact ⟨fun h => (nomatch h), fun ⟨_, h, _⟩ => (nomatch h)⟩
  | ok a => exact ⟨fun h => ⟨a, rfl, h⟩, fun ⟨_, h, hf⟩ => by cases h; exact hf⟩

@[simp] theorem ok_bind {α β : Type} (a : α) (f : α → Res β) : ((Except.ok a : Res α) >>= f) = f a := rfl

theorem ite_ne {α : Type} {c : Prop} [Decidable c] {x y z : α} (hx : x ≠ z) (hy : y ≠ z) :
    (if c then x else y) ≠ z := by
  split
  · exact hx
  · exact hy

/-- How the library is built: with `asserts`, a failed `assert` aborts; without, it
    and its argument are gone. `overrun` is what a scan of the endpoint table that
    runs past its last entry comes to. -/
structure Build where
  asserts : Bool
  overrun : Res (Option Slot)

/-- The Makefile's build: assertions on, and reading past an array is an error. -/
def Build.std : Build := ⟨true, .error .outOfBounds⟩

@[simp] theorem std_asserts : Build.std.asserts = true := rfl
theorem std_overrun_ne : ∀ j, Build.std.overrun ≠ .ok (some j) := nofun

/-! ## Requests -/

inductive RequestType where
  | other
  | openPktchan
  | openSclchan
  | send
  | recv
  | getEndpt
  deriving DecidableEq, Repr

/-- `mcapi_request_data`. -/
structure RequestData where
  valid : Bool := false
  size : U32 := 0
  type : RequestType := .other
  buffer : U32 := 0
  epNodeNum : U32 := 0
  epPortNum : U32 := 0
  epDomainNum : U32 := 0
  completed : Bool := false
  cancelled : Bool := false
  handle : U32 := 0
  epEndpoint : U32 := 0
  payload : U32 := 0
  deriving DecidableEq, Repr

structure IndexedArrayNode where
  nextIndex : Option Req
  prevIndex : Option Req
  deriving DecidableEq, Repr

/-- `indexed_array_header`. -/
structure IndexedArrayHeader where
  array : Req → IndexedArrayNode
  currCount : Int
  maxCount : Int
  emptyHeadIndex : Option Req
  fullHeadIndex : Option Req

/-! ## Nodes and endpoints -/

inductive ChannelType where
  | noChan
  | pktChan
  | sclChan
  deriving DecidableEq, Repr

/-- The channel members of `queue`. -/
structure Queue where
  sendEndpt : U32 := 0
  recvEndpt : U32 := 0
  channelType : ChannelType := .noChan
  deriving DecidableEq, Repr

/-- `endpoint_entry`; the defaults are a zeroed entry. -/
structure EndpointEntry where
  portNum : U32 := 0
  valid : Bool := false
  anonymous : Bool := false
  isOpen : Bool := false
  connected : Bool := false
  numAttributes : U32 := 0
  recvQueue : Queue := {}
  deriving DecidableEq, Repr

structure AttributeEntry where
  valid : Bool := false
  attributeNum : U16 := 0
  bytes : U32 := 0
  attributeD : U32 := 0
  deriving DecidableEq, Repr

abbrev NodeAttributes := Fin maxNumAttributes → AttributeEntry

/-- `node_entry`, with its `node_d` (`numEndpoints`, `endpoints`) inlined. -/
structure NodeEntry where
  nodeNum : U32 := 0
  valid : Bool := false
  attributes : NodeAttributes := fun _ => {}
  numEndpoints : U16 := 0
  endpoints : Slot → EndpointEntry := fun _ => {}

structure DomainEntry where
  numNodes : U16 := 0
  domainId : U32 := 0
  valid : Bool := false
  nodes : Fin maxNodes → NodeEntry := fun _ => {}

/-- `mcapi_database`. -/
structure Database where
  domains : Fin maxDomains → DomainEntry
  requests : Req → RequestData
  requestReservesHeader : IndexedArrayHeader

/-- The database as `memset` to zero leaves it: a link that is 0 names slot 0. -/
def zeroed : Database where
  domains _ := {}
  requests _ := {}
  requestReservesHeader :=
    { array := fun _ => ⟨some 0, some 0⟩
      currCount := 0
      maxCount := 0
      emptyHeadIndex := some 0
      fullHeadIndex := some 0 }

/-- The node entry every endpoint operation works on: `domains[0].nodes[0]`. -/
def Database.node0 (db : Database) : NodeEntry := (db.domains 0).nodes 0

/-- Write one node entry of domain 0. -/
def Database.setNode (db : Database) (i : Fin maxNodes) (n : NodeEntry) : Database :=
  { db with
    domains := Function.update db.domains 0
      { db.domains 0 with nodes := Function.update (db.domains 0).nodes i n } }

/-- Write one request record. -/
def Database.setRequest (db : Database) (r : Req) (d : RequestData) : Database :=
  { db with requests := Function.update db.requests r d }

@[simp] theorem setRequest_header (db : Database) (r : Req) (d : RequestData) :
    (db.setRequest r d).requestReservesHeader = db.requestReservesHeader := rfl
@[simp] theorem setRequest_same (db : Database) (r : Req) (d : RequestData) : (db.setRequest r d).requests r = d := by
  simp [Database.setRequest]
@[simp] theorem setRequest_ne (db : Database) {r q : Req} (d : RequestData) (h : q ≠ r) :
    (db.setRequest r d).requests q = db.requests q := by
  simp [Database.setRequest, h]

/-- The handle of a request: its index as an `mcapi_request_t`. -/
def handleOf (r : Req) : U32 := BitVec.ofNat 32 r.val

@[simp] theorem handleOf_toNat (r : Req) : (handleOf r).toNat = r.val := by
  rw [handleOf, BitVec.toNat_ofNat]
  exact Nat.mod_eq_of_lt (Nat.lt_trans r.isLt (by decide))

theorem handleOf_inj {r q : Req} (h : handleOf r = handleOf q) : r = q :=
  Fin.ext (by simpa using congrArg BitVec.toNat h)

/-- An index into the request array, as the code uses it: unchecked. -/
def requestSlot (id : U32) : Res Req :=
  if h : id.toNat < maxRequests then .ok ⟨id.toNat, h⟩ else .error .outOfBounds

@[simp] theorem requestSlot_handleOf (r : Req) : requestSlot (handleOf r) = .ok r := by
  have h : (handleOf r).toNat < maxRequests := by rw [handleOf_toNat]; exact r.isLt
  rw [requestSlot, dif_pos h]
  exact congrArg Except.ok (Fin.ext (handleOf_toNat r))

theorem requestSlot_eq_ok {id : U32} {r : Req} (h : requestSlot id = .ok r) : id = handleOf r := by
  unfold requestSlot at h
  split at h
  · cases h
    exact BitVec.eq_of_toNat_eq (by simp)
  · cases h

end Mcapi
