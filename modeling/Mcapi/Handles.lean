/-
  Mcapi.Handles — endpoint handles (`mcapi_trans_encode_handle_internal`,
  `mcapi_trans_decode_handle_internal`).

  A handle packs a name into 32 bits: 8 for the domain, 8 for the node, 16 for the
  port. Decoding returns the name cut down to these widths (`decode_encode`); the
  library always encodes domain 0 (`endpointHandle`). So a handle names the low bits of
  node and port (`endpointHandle_names`), two names get one handle exactly when these
  are equal (`endpointHandle_eq_iff`), and a node below 256 and a port below 65536 come
  back unchanged (`nodeField_of_lt`, `portField_of_lt`).
-/

import Mcapi.Types
import Mathlib.Tactic.IntervalCases

namespace Mcapi

def domainMask : U32 := 0xFF
def domainShift : Nat := 24
def nodeMask : U32 := 0xFF
def nodeShift : Nat := 16
def portMask : U32 := 0xFFFF
def portShift : Nat := 0

def transEncodeHandleInternal (domainId nodeId portId : U16) : U32 :=
  ((domainId.setWidth 32 &&& domainMask) <<< domainShift) |||
    ((nodeId.setWidth 32 &&& nodeMask) <<< nodeShift) |||
    ((portId.setWidth 32 &&& portMask) <<< portShift)

/-- What decoding a handle stores through its three pointers. -/
structure Decoded where
  domainId : U16
  nodeId : U16
  portId : U16
  deriving DecidableEq, Repr

def transDecodeHandleInternal (handle : U32) : Decoded where
  domainId := ((handle >>> domainShift) &&& domainMask).setWidth 16
  nodeId := ((handle >>> nodeShift) &&& nodeMask).setWidth 16
  portId := ((handle >>> portShift) &&& portMask).setWidth 16

/-- `assert(mcapi_trans_decode_handle_internal(...))`: it always succeeds, and without
    assertions the call is gone and the locals keep what they held. -/
def assertDecode (B : Build) (locals : Decoded) (handle : U32) : Decoded :=
  if B.asserts then transDecodeHandleInternal handle else locals

@[simp] theorem assertDecode_std (locals : Decoded) (handle : U32) :
    assertDecode .std locals handle = transDecodeHandleInternal handle := rfl

/-- The handle of the name `<node, port>`; both are cut to 16 bits on the way in. -/
def endpointHandle (nodeNum portNum : U32) : U32 :=
  transEncodeHandleInternal 0 (nodeNum.setWidth 16) (portNum.setWidth 16)

/-- What a handle has room for, of a node id and of a port id. -/
def nodeField (n : U32) : U32 := n &&& nodeMask
def portField (p : U32) : U32 := p &&& portMask

/-- A handle names the port `p` of node `n`, whatever its domain field holds. -/
def Names (handle n p : U32) : Prop :=
  (transDecodeHandleInternal handle).nodeId.setWidth 32 = n ∧ (transDecodeHandleInternal handle).portId.setWidth 32 = p

instance (handle n p : U32) : Decidable (Names handle n p) := inferInstanceAs (Decidable (_ ∧ _))

/-! ## What fits in a handle comes back -/

theorem decode_encode (d n p : U16) :
    transDecodeHandleInternal (transEncodeHandleInternal d n p) = ⟨d &&& 0xFF, n &&& 0xFF, p⟩ := by
  simp only [transDecodeHandleInternal, transEncodeHandleInternal, domainMask, domainShift, nodeMask, nodeShift,
    portMask, portShift, Decoded.mk.injEq]
  -- bit by bit: each field's bits come from that field alone
  refine ⟨?_, ?_, ?_⟩ <;>
  · apply BitVec.eq_of_getLsbD_eq
    intro i hi
    interval_cases i <;> simp

theorem encode_decode (h : U32) :
    transEncodeHandleInternal (transDecodeHandleInternal h).domainId (transDecodeHandleInternal h).nodeId
      (transDecodeHandleInternal h).portId = h := by
  simp only [transDecodeHandleInternal, transEncodeHandleInternal, domainMask, domainShift, nodeMask, nodeShift,
    portMask, portShift]
  apply BitVec.eq_of_getLsbD_eq
  intro i hi
  interval_cases i <;> simp

theorem nodeField_of_lt {n : U32} (hn : n.toNat < 256) : nodeField n = n := by
  apply BitVec.eq_of_toNat_eq
  rw [nodeField, BitVec.toNat_and]
  exact (Nat.and_two_pow_sub_one_eq_mod n.toNat 8).trans (Nat.mod_eq_of_lt hn)

theorem nodeField_eq_iff {n : U32} : nodeField n = n ↔ n.toNat < 256 := by
  refine ⟨fun h => ?_, nodeField_of_lt⟩
  rw [← h, nodeField, BitVec.toNat_and]
  exact Nat.lt_of_le_of_lt Nat.and_le_right (by decide)

theorem portField_of_lt {p : U32} (hp : p.toNat < 65536) : portField p = p := by
  apply BitVec.eq_of_toNat_eq
  rw [portField, BitVec.toNat_and]
  exact (Nat.and_two_pow_sub_one_eq_mod p.toNat 16).trans (Nat.mod_eq_of_lt hp)

theorem nodeField_widen (n : U32) : (n.setWidth 16 &&& (0xFF : U16)).setWidth 32 = nodeField n := by
  apply BitVec.eq_of_getLsbD_eq
  intro i hi
  interval_cases i <;> simp [nodeField, nodeMask]

theorem portField_widen (p : U32) : (p.setWidth 16).setWidth 32 = portField p := by
  apply BitVec.eq_of_getLsbD_eq
  intro i hi
  interval_cases i <;> simp [portField, portMask]

theorem endpointHandle_names (n p : U32) : Names (endpointHandle n p) (nodeField n) (portField p) := by
  rw [Names, endpointHandle, decode_encode]
  exact ⟨nodeField_widen n, portField_widen p⟩

theorem Names.unique {h n p n' p' : U32} (hn : Names h n p) (hn' : Names h n' p') : n = n' ∧ p = p' :=
  ⟨hn.1.symm.trans hn'.1, hn.2.symm.trans hn'.2⟩

/-- The handle is made of the two fields. -/
theorem endpointHandle_eq (n p : U32) :
    endpointHandle n p = (nodeField n <<< nodeShift) ||| (portField p <<< portShift) := by
  simp only [endpointHandle, transEncodeHandleInternal, nodeField, portField, domainMask, domainShift, nodeMask,
    nodeShift, portMask, portShift]
  apply BitVec.eq_of_getLsbD_eq
  intro i hi
  interval_cases i <;> simp

theorem endpointHandle_eq_iff {n p n' p' : U32} :
    endpointHandle n p = endpointHandle n' p' ↔ nodeField n = nodeField n' ∧ portField p = portField p' := by
  constructor
  · intro h
    have h' := endpointHandle_names n' p'
    rw [← h] at h'
    exact (endpointHandle_names n p).unique h'
  · intro hf
    obtain ⟨hn, hp⟩ := hf
    rw [endpointHandle_eq, hn, hp, ← endpointHandle_eq]

end Mcapi
