/-
  Mcapi.Attributes — node attributes (`mcapi_node_init_attributes`,
  `mcapi_node_set_attribute`, `mcapi_node_get_attribute`).

  A user fills a structure of four entries, `mcapi_initialize` copies it whole into the
  node's entry, and a get reads it back. The one attribute the library supports is entry
  0. Two things go wrong:
  - `memset(p, 0, sizeof(p))` clears as many bytes as a pointer has, not the structure:
    the first four, `valid` and `attribute_num` of entry 0. Every other field keeps what
    the caller's memory held.
  - A get does not look at the attribute number. It compares the size it is given with the
    `bytes` of that entry, which for entries 1 to 3 came from the caller's memory; and from
    4 on it reads past the entries.

  So the value of attribute 0 comes back if one was set, or if the caller's memory held 0
  there; and of the other numbers only 1 to 3 are refused, where the size is not what
  the caller's memory held (`attribute_survives_iff`).
-/

import Mcapi.Initialise

namespace Mcapi

variable {db : Database} {d n : U32}

/-! ## The code -/

/-- `MCAPI_NODE_ATTR_TYPE_REGULAR`, used as the attribute number. -/
def nodeAttrTypeRegular : U32 := 0

/-- `sizeof(mcapi_node_attr_type_t)`. -/
def nodeAttrTypeSize : U32 := 4

/-- The bytes a caller's pointer leads to. -/
abbrev Bytes := Nat → BitVec 8

/-- The bytes of a word in memory. -/
def byteOf (v : U32) (i : Nat) : BitVec 8 := v.extractLsb' (8 * i) 8

/-- `memcpy` of the first `size` bytes of a word. -/
def copyWord (out : Bytes) (v : U32) (size : Nat) : Bytes := fun i => if i < size then byteOf v i else out i

/-- The first `sizeof(mcapi_node_attributes)` bytes, which is the size of a pointer. -/
def transNodeInitAttributes (attrs : NodeAttributes) : NodeAttributes :=
  Function.update attrs 0 { attrs 0 with valid := false, attributeNum := 0 }

def nodeInitAttributes (attrs : Option NodeAttributes) : Status × Option NodeAttributes :=
  match attrs with
  | none => (.errParameter, none)
  | some attrs => (.success, some (transNodeInitAttributes attrs))

/-- `attr` is the word the pointer `attribute` leads to. -/
def transNodeSetAttribute (attrs : NodeAttributes) (attributeNum attr attributeSize : U32) (status : Status) :
    (Bool × Status) × NodeAttributes :=
  if attributeNum ≠ nodeAttrTypeRegular then ((false, .errAttrNotsupported), attrs)
  else if attributeSize ≠ nodeAttrTypeSize then ((false, .errAttrSize), attrs)
  else ((true, status), Function.update attrs 0 { attrs 0 with attributeD := attr })

def nodeSetAttribute (attrs : Option NodeAttributes) (attributeNum : U32) (attr : Option U32) (attributeSize : U32) :
    Status × Option NodeAttributes :=
  match attrs, attr with
  | some attrs, some attr =>
    let ((rc, status), attrs) := transNodeSetAttribute attrs attributeNum attr attributeSize .errGeneral
    (if rc then .success else status, some attrs)
  | attrs, _ => (.errParameter, attrs)

/-- An attribute number, used as an index of the entries: unchecked. -/
def attributeSlot (attributeNum : U32) : Res (Fin maxNumAttributes) :=
  if h : attributeNum.toNat < maxNumAttributes then .ok ⟨attributeNum.toNat, h⟩ else .error .outOfBounds

/-- Domains and nodes are searched by number, in use or not. -/
def transNodeGetAttribute (db : Database) (domainId nodeId attributeNum : U32) (attr : Bytes) (attributeSize : U32)
    (status : Status) : Res ((Bool × Status) × Bytes) :=
  match (List.finRange maxDomains).find? fun i => (db.domains i).domainId == domainId with
  | none => .ok ((false, .errDomainInvalid), attr)
  | some i =>
    match (List.finRange maxNodes).find? fun j => ((db.domains i).nodes j).nodeNum == nodeId with
    | none => .ok ((false, .errNodeInvalid), attr)
    | some j =>
      if !(db.domains i).valid then .ok ((false, .errDomainInvalid), attr)
      else if !((db.domains i).nodes j).valid then .ok ((false, .errNodeInvalid), attr)
      else do
        let entry := ((db.domains i).nodes j).attributes (← attributeSlot attributeNum)
        if entry.bytes ≠ attributeSize then .ok ((false, .errAttrSize), attr)
        -- the value is one word, and a larger copy reads past it
        else if 4 < entry.bytes.toNat then .error .outOfBounds
        else .ok ((true, status), copyWord attr entry.attributeD entry.bytes.toNat)

def nodeGetAttribute (db : Database) (domainId nodeId attributeNum : U32) (attr : Option Bytes)
    (attributeSize : U32) : Res (Status × Option Bytes) :=
  match attr with
  | none => .ok (.errParameter, none)
  | some attr => do
    let ((rc, status), attr) ←
      transNodeGetAttribute db domainId nodeId attributeNum attr attributeSize .errGeneral
    .ok (if rc then .success else status, some attr)

/-! ## Sets before an initialisation -/

/-- One `mcapi_node_set_attribute`. -/
structure SetCall where
  attributeNum : U32
  attr : Option U32
  attributeSize : U32
  deriving DecidableEq, Repr

/-- The structure after the sets. -/
def afterSets (attrs : NodeAttributes) (cs : List SetCall) : NodeAttributes :=
  cs.foldl (fun a c => ((nodeSetAttribute (some a) c.attributeNum c.attr c.attributeSize).2).getD a) attrs

/-- The value a successful set stores. -/
def SetCall.value (c : SetCall) : Option U32 :=
  if c.attributeNum = nodeAttrTypeRegular ∧ c.attributeSize = nodeAttrTypeSize then c.attr else none

/-- What the successful sets stored, in order. -/
def stored (cs : List SetCall) : List U32 := cs.filterMap SetCall.value

theorem set_spec (attrs : NodeAttributes) (c : SetCall) :
    ((nodeSetAttribute (some attrs) c.attributeNum c.attr c.attributeSize).1 = .success ↔ c.value.isSome = true) ∧
    (nodeSetAttribute (some attrs) c.attributeNum c.attr c.attributeSize).2 =
      some (match c.value with
        | some v => Function.update attrs 0 { attrs 0 with attributeD := v }
        | none => attrs) := by
  obtain ⟨num, attr, size⟩ := c
  unfold nodeSetAttribute SetCall.value
  cases attr with
  | none => simp
  | some v =>
    by_cases hnum : num = nodeAttrTypeRegular
    · by_cases hsize : size = nodeAttrTypeSize
      · simp [transNodeSetAttribute, hnum, hsize]
      · simp [transNodeSetAttribute, hnum, hsize]
    · simp [transNodeSetAttribute, hnum]

/-- After any sets, entry 0 holds the value of the last successful one, and nothing else
    has changed. -/
theorem afterSets_eq (attrs : NodeAttributes) (cs : List SetCall) :
    afterSets attrs cs =
      Function.update attrs 0 { attrs 0 with attributeD := (stored cs).getLast?.getD (attrs 0).attributeD } := by
  induction cs generalizing attrs with
  | nil => simp [afterSets, stored]
  | cons c cs ih =>
    have hstep : afterSets attrs (c :: cs) = afterSets
        (match c.value with
          | some v => Function.update attrs 0 { attrs 0 with attributeD := v }
          | none => attrs) cs := by
      simp only [afterSets, List.foldl_cons, (set_spec attrs c).2, Option.getD_some]
    rw [hstep, ih]
    cases hv : c.value with
    | none => simp [stored, hv]
    | some v => simp [stored, hv, List.getLast?_cons]

/-! ## What a get finds -/

/-- The first domain entry with the id of a valid domain is its own. -/
theorem RegistryInv.domain_found (hr : RegistryInv db) {i : Fin maxDomains} (hv : (db.domains i).valid = true)
    (hd : (db.domains i).domainId = d) :
    (List.finRange maxDomains).find? (fun i => (db.domains i).domainId == d) = some i := by
  refine Tables.find_eq_some_iff.mpr ⟨beq_iff_eq.mpr hd, ?_⟩
  intro m hm
  refine beq_eq_false_iff_ne.mpr ?_
  intro he
  obtain ⟨k, hk⟩ := hr.filled
  have hik := (hk i).mp hv
  have hvm : (db.domains m).valid = true := (hk m).mpr (Nat.lt_trans (Fin.lt_def.mp hm) hik)
  exact absurd (hr.distinct m i hvm hv (he.trans hd.symm)) (ne_of_lt hm)

/-- The first node entry with the number of a valid node is its own. -/
theorem DomainInv.node_found {x : DomainEntry} (hx : DomainInv x) {j : Fin maxNodes} (hv : (x.nodes j).valid = true)
    (hn : (x.nodes j).nodeNum = n) : (List.finRange maxNodes).find? (fun j => (x.nodes j).nodeNum == n) = some j := by
  refine Tables.find_eq_some_iff.mpr ⟨beq_iff_eq.mpr hn, ?_⟩
  intro m hm
  refine beq_eq_false_iff_ne.mpr ?_
  intro he
  have hjk := (hx.filled j).mp hv
  have hvm : (x.nodes m).valid = true := (hx.filled m).mpr (Nat.lt_trans (Fin.lt_def.mp hm) hjk)
  exact absurd (hx.distinct m j hvm hv (he.trans hn.symm)) (ne_of_lt hm)

/-- What a get answers from an entry. -/
def AttributeEntry.answer (e : AttributeEntry) (out : Bytes) (size : U32) : Res (Status × Option Bytes) :=
  if e.bytes ≠ size then .ok (.errAttrSize, some out)
  else if 4 < e.bytes.toNat then .error .outOfBounds
  else .ok (.success, some (copyWord out e.attributeD e.bytes.toNat))

/-- A get for a registered pair answers from its node's entry. -/
theorem get_registered (hr : RegistryInv db) {i : Fin maxDomains} {j : Fin maxNodes} (hi : (db.domains i).valid = true)
    (hd : (db.domains i).domainId = d) (hj : ((db.domains i).nodes j).valid = true)
    (hn : ((db.domains i).nodes j).nodeNum = n) (num size : U32) (out : Bytes) :
    nodeGetAttribute db d n num (some out) size = (do
      let k ← attributeSlot num
      (((db.domains i).nodes j).attributes k).answer out size) := by
  unfold nodeGetAttribute transNodeGetAttribute
  simp only [hr.domain_found hi hd, (hr.nodes i).node_found hj hn, hi, hj, Bool.not_true, Bool.false_eq_true, if_false]
  rcases attributeSlot num with f | k
  · rfl
  · simp only [ok_bind, AttributeEntry.answer]
    split
    · rfl
    · split
      · rfl
      · rfl

/-! ## The attributes of a new node -/

/-- What a registration makes of the attributes it is given. -/
def copied (attrs : NodeAttributes) : NodeAttributes :=
  Function.update attrs 0 { attrs 0 with bytes := nodeAttrTypeSize }

theorem addNode_registers {i : Fin maxDomains} {j : Fin maxNodes} (h : Registers db d n i j)
    (a : Option NodeAttributes) : (transAddNode db d n a).2 =
      db.addNode i j d ⟨n, true, copied (a.getD ((db.domains i).nodes j).attributes), 1, fun _ => {}⟩ := by
  have hslot := h.slot
  unfold domainSlot at hslot
  have hfree := h.free
  unfold DomainEntry.freeNode at hfree
  have hfresh := h.fresh
  rw [← hasNode_any] at hfresh
  simp only [transAddNode, h.open0, if_false, hslot, hfresh, hfree]
  rfl

/-- A get for a pair, right after its registration. -/
theorem get_added (hr : RegistryInv db) {i : Fin maxDomains} {j : Fin maxNodes} (h : Registers db d n i j)
    (attrs : NodeAttributes) (num size : U32) (out : Bytes) :
    nodeGetAttribute (transAddNode db d n (some attrs)).2 d n num (some out) size = (do
      let k ← attributeSlot num
      (copied attrs k).answer out size) := by
  have hinv : RegistryInv (transAddNode db d n (some attrs)).2 := hr.step (c := ⟨d, n, some attrs⟩) rfl
  rw [addNode_registers h] at hinv ⊢
  have hget := get_registered hinv (i := i) (j := j) (d := d) (n := n) (by simp [Database.addNode])
    (by simp [Database.addNode]) (by simp [Database.addNode]) (by simp [Database.addNode]) num size out
  rw [hget]
  simp [Database.addNode]

/-! ## The round trip -/

/-- The structure a user hands to `mcapi_initialize`: over what its memory held before,
    initialised by `mcapi_node_init_attributes` and then set. -/
def userAttributes (prior : NodeAttributes) (cs : List SetCall) : NodeAttributes :=
  afterSets ((nodeInitAttributes (some prior)).2.getD prior) cs

theorem userAttributes_eq (prior : NodeAttributes) (cs : List SetCall) :
    userAttributes prior cs = afterSets (transNodeInitAttributes prior) cs := rfl

/-- The supported attribute comes back with the value of the last successful set, or 0;
    anything else is refused, with nothing written and nothing read past the entries. -/
structure Survives (db : Database) (d n : U32) (cs : List SetCall) (num size : U32) (out : Bytes) : Prop where
  regular : num = nodeAttrTypeRegular → size = nodeAttrTypeSize →
    nodeGetAttribute db d n num (some out) size = .ok (.success, some (copyWord out ((stored cs).getLast?.getD 0) 4))
  other : ¬ (num = nodeAttrTypeRegular ∧ size = nodeAttrTypeSize) →
    ∃ st, nodeGetAttribute db d n num (some out) size = .ok (st, some out) ∧ st ≠ .success

/-- Of the supported attribute: a set has succeeded, or the user's memory held the default.
    Of another: its number is that of an entry, and the size is not the one the user's
    memory held there. -/
def SafeToGet (prior : NodeAttributes) (cs : List SetCall) (num size : U32) : Prop :=
  if num = nodeAttrTypeRegular then size = nodeAttrTypeSize → stored cs ≠ [] ∨ (prior 0).attributeD = 0
  else ∃ k : Fin maxNumAttributes, num.toNat = k.val ∧ size ≠ (prior k).bytes

/-- The four bytes of a word tell it. -/
theorem copyWord_inj {out : Bytes} {v v' : U32} (h : copyWord out v 4 = copyWord out v' 4) : v = v' := by
  apply BitVec.eq_of_getLsbD_eq
  intro i hi
  have hbyte : byteOf v (i / 8) = byteOf v' (i / 8) := by
    have hlt : i / 8 < 4 := by omega
    simpa [copyWord, hlt] using congrFun h (i / 8)
  have hbit := congrArg (fun b => b.getLsbD (i % 8)) hbyte
  have hmod : i % 8 < 8 := Nat.mod_lt i (by decide)
  have hi8 : 8 * (i / 8) + i % 8 = i := Nat.div_add_mod i 8
  simpa [byteOf, hmod, hi8] using hbit

theorem attributeSlot_of_eq {num : U32} {k : Fin maxNumAttributes} (h : num.toNat = k.val) :
    attributeSlot num = .ok k := by
  have hlt : num.toNat < maxNumAttributes := by
    rw [h]
    exact k.isLt
  rw [attributeSlot, dif_pos hlt]
  exact congrArg Except.ok (Fin.ext h)

theorem attributeSlot_past {num : U32} (h : ¬ num.toNat < maxNumAttributes) : attributeSlot num = .error .outOfBounds :=
  dif_neg h

/-- What the entries of the new node hold: entry 0 the user's value, under the right
    size; the others whatever the user's memory held. -/
theorem copied_user (prior : NodeAttributes) (cs : List SetCall) :
    ((copied (userAttributes prior cs)) 0).attributeD = (stored cs).getLast?.getD (prior 0).attributeD ∧
    ((copied (userAttributes prior cs)) 0).bytes = nodeAttrTypeSize ∧
    ∀ k, k ≠ 0 → ((copied (userAttributes prior cs)) k).bytes = (prior k).bytes := by
  refine ⟨?_, ?_, ?_⟩
  · simp [copied, userAttributes_eq, afterSets_eq, transNodeInitAttributes]
  · simp [copied]
  · intro k hk
    simp [copied, userAttributes_eq, afterSets_eq, transNodeInitAttributes, hk]

theorem getLast_default {l : List U32} {v : U32} : l.getLast?.getD v = l.getLast?.getD 0 ↔ l ≠ [] ∨ v = 0 := by
  cases l with
  | nil => simp
  | cons a l => simp [List.getLast?_cons]

theorem survives_added_iff (hr : RegistryInv db) {i : Fin maxDomains} {j : Fin maxNodes} (h : Registers db d n i j)
    (prior : NodeAttributes) (cs : List SetCall) (num size : U32) (out : Bytes) :
    Survives (transAddNode db d n (some (userAttributes prior cs))).2 d n cs num size out ↔
      SafeToGet prior cs num size := by
  have hget := get_added hr h (userAttributes prior cs) num size out
  obtain ⟨hvalue, hbytes, hothers⟩ := copied_user prior cs
  unfold SafeToGet
  by_cases hnum : num = nodeAttrTypeRegular
  · rw [if_pos hnum]
    have hslot : attributeSlot num = .ok 0 := attributeSlot_of_eq (by rw [hnum]; rfl)
    rw [hslot, ok_bind, AttributeEntry.answer, hvalue, hbytes] at hget
    by_cases hsize : size = nodeAttrTypeSize
    · have hfits : ¬ 4 < nodeAttrTypeSize.toNat := by decide
      rw [if_neg (not_not.mpr hsize.symm), if_neg hfits] at hget
      have hfour : nodeAttrTypeSize.toNat = 4 := rfl
      rw [hfour] at hget
      constructor
      · intro hs _
        have heq := hget.symm.trans (hs.regular hnum hsize)
        simp only [Except.ok.injEq, Prod.mk.injEq, Option.some.injEq, true_and] at heq
        exact getLast_default.mp (copyWord_inj heq)
      · intro hsafe
        refine ⟨?_, fun hno => absurd ⟨hnum, hsize⟩ hno⟩
        intro _ _
        rw [hget, getLast_default.mpr (hsafe hsize)]
    · rw [if_pos (Ne.symm hsize)] at hget
      refine iff_of_true ⟨fun _ hs => absurd hs hsize, fun _ => ⟨_, hget, by decide⟩⟩ ?_
      intro hs
      exact absurd hs hsize
  · rw [if_neg hnum]
    have hno : ¬ (num = nodeAttrTypeRegular ∧ size = nodeAttrTypeSize) := fun h => hnum h.1
    by_cases hlt : num.toNat < maxNumAttributes
    · have hk : num.toNat = (⟨num.toNat, hlt⟩ : Fin maxNumAttributes).val := rfl
      generalize (⟨num.toNat, hlt⟩ : Fin maxNumAttributes) = k at hk
      have hk0 : k ≠ 0 := by
        intro h0
        rw [h0] at hk
        exact hnum (BitVec.eq_of_toNat_eq hk)
      rw [attributeSlot_of_eq hk, ok_bind, AttributeEntry.answer, hothers k hk0] at hget
      constructor
      · intro hs
        refine ⟨k, hk, ?_⟩
        intro hsize
        obtain ⟨st, hst, hne⟩ := hs.other hno
        rw [hget, if_neg (not_not.mpr hsize.symm)] at hst
        split at hst
        · cases hst
        · simp only [Except.ok.injEq, Prod.mk.injEq] at hst
          exact hne hst.1.symm
      · rintro ⟨m, hm, hsize⟩
        have hmk : m = k := Fin.ext (hm.symm.trans hk)
        subst hmk
        rw [if_pos (Ne.symm hsize)] at hget
        exact ⟨fun h => absurd h hnum, fun _ => ⟨_, hget, by decide⟩⟩
    · rw [attributeSlot_past hlt] at hget
      refine iff_of_false ?_ ?_
      · intro hs
        obtain ⟨st, hst, -⟩ := hs.other hno
        rw [hget] at hst
        cases hst
      · rintro ⟨k, hk, -⟩
        rw [hk] at hlt
        exact hlt k.isLt

/-- After the initialisation that registers a pair with attributes that were initialised
    and set over any memory, a get for the pair answers as it should exactly when it is
    safe. -/
theorem attribute_survives_iff {s : Sys} (hs : Lts.Reachable SysStep Sys.init s) {p : Nat} {prior : NodeAttributes}
    {cs : List SetCall} {o : InitEnv} {seg : Option Segment} {pr : Proc}
    (hi : mcapiInitialize d n (some (userAttributes prior cs)) o s.seg (s.procs p) = .ok (.success, seg, pr))
    (hnew : ¬ HasPair (dbOf s.seg (s.procs p)) d n) (hadd : HasPair (dbOf seg pr) d n) (num size : U32) (out : Bytes) :
    Survives (dbOf seg pr) d n cs num size out ↔ SafeToGet prior cs num size := by
  obtain ⟨g, rfl, hatt, hg⟩ := initialise_success hi
  have hdb : dbOf (some g) pr = g.db := by
    unfold dbOf
    rw [hatt]
    rfl
  rw [hdb] at hadd ⊢
  rw [hg] at hadd ⊢
  have hinv : RegistryInv (transInitRequestIndexedArray (dbOf s.seg (s.procs p))) :=
    (dbOf_registry hs p).congr (.of_eq rfl)
  have hnew : ¬ HasPair (transInitRequestIndexedArray (dbOf s.seg (s.procs p))) d n := fun h => hnew (h.congr rfl)
  obtain ⟨i, j, hr⟩ := (registers_iff hinv _).mp ⟨hadd, hnew⟩
  exact survives_added_iff hinv hr prior cs num size out

/-- Memory that held something before. -/
def leftover : NodeAttributes := fun _ => ⟨true, 9, 9, 9⟩

/-- The first initialisation of a process, for node 3 of domain 5, with these attributes. -/
def firstWith (cs : List SetCall) : Sys :=
  Sys.init.after (.initialise 0 5 3 (some (userAttributes leftover cs)) granted)

theorem firstWith_initialises (cs : List SetCall) :
    mcapiInitialize 5 3 (some (userAttributes leftover cs)) granted Sys.init.seg (Sys.init.procs 0) =
      .ok (.success, (firstWith cs).seg, (firstWith cs).procs 0) := rfl

theorem firstWith_new : ¬ HasPair (dbOf Sys.init.seg (Sys.init.procs 0)) 5 3 := by
  rintro ⟨i, hi, -⟩
  cases hi

theorem firstWith_adds (cs : List SetCall) : HasPair (dbOf (firstWith cs).seg ((firstWith cs).procs 0)) 5 3 :=
  ⟨0, rfl, rfl, 0, rfl, rfl⟩

/-- A value that was set comes back. -/
theorem set_value_survives :
    Survives (dbOf (firstWith [⟨0, some 7, 4⟩]).seg ((firstWith [⟨0, some 7, 4⟩]).procs 0)) 5 3 [⟨0, some 7, 4⟩] 0 4
      (fun _ => 0) :=
  (attribute_survives_iff (.refl _) (firstWith_initialises _) firstWith_new (firstWith_adds _) 0 4 fun _ => 0).mpr
    fun _ => .inl (by decide)

/-- The default does not, over memory that held something else. -/
theorem default_does_not_survive :
    ¬ ∀ s d n p prior cs o seg pr, Lts.Reachable SysStep Sys.init s →
      mcapiInitialize d n (some (userAttributes prior cs)) o s.seg (s.procs p) = .ok (.success, seg, pr) →
      ¬ HasPair (dbOf s.seg (s.procs p)) d n → HasPair (dbOf seg pr) d n →
      ∀ num size out, Survives (dbOf seg pr) d n cs num size out := by
  intro h
  have hs := h Sys.init 5 3 0 leftover [] granted _ _ (.refl _) (firstWith_initialises []) firstWith_new
    (firstWith_adds []) 0 4 fun _ => 0
  have hreg : Registers freshPool 5 3 0 0 := by
    apply registers_first
    rfl
  have hinv : RegistryInv freshPool := zeroed_registry.congr (.of_eq rfl)
  have hsafe : SafeToGet leftover [] 0 4 := (survives_added_iff hinv hreg leftover [] 0 4 fun _ => 0).mp hs
  exact absurd (hsafe rfl) (by decide)

end Mcapi
