/-
  Mcapi.PublicApi — every function of the interface, over whole runs of the system.

  Beside the calls of `Mcapi.Api` and those on node attributes (`Mcapi.Attributes`) there are
  those on packet and scalar channels, `mcapi_wait_any` and `mcapi_cancel`. Each of these
  stores `MCAPI_ERR_GENERAL`, prints that it is not supported and returns; the code after
  the `return` is dead. So nothing opens a channel and nothing cancels a request, and the
  branches on either are never taken (`Tame`).

  `Kind.statuses` and `Kind.cmds` are tables: for each function, the statuses and the driver
  commands. There is none for `mcapi_finalize`, whose status depends on what a `void`
  function happens to return.
  - `reports_exactly`: a function can report a status, in some run of any number of
    processes with any driver, exactly if its table has it.
  - `commands_exactly`: the same for the commands, of which a call gives one at most. The
    CONNECT is in no table.
-/

import Mcapi.Attributes

namespace Mcapi

variable {E : Env} {w w' : World} {db db' : Database}

/-! ## The functions that are not supported -/

inductive Unsupported where
  | pktchanConnectI
  | pktchanRecvOpenI
  | pktchanSendOpenI
  | pktchanSendI
  | pktchanSend
  | pktchanRecvI
  | pktchanRecv
  | pktchanAvailable
  | pktchanRelease
  | pktchanRecvCloseI
  | pktchanSendCloseI
  | sclchanConnectI
  | sclchanRecvOpenI
  | sclchanSendOpenI
  | sclchanSendUint64
  | sclchanSendUint32
  | sclchanSendUint16
  | sclchanSendUint8
  | sclchanRecvUint64
  | sclchanRecvUint32
  | sclchanRecvUint16
  | sclchanRecvUint8
  | sclchanAvailable
  | sclchanRecvCloseI
  | sclchanSendCloseI
  | waitAny
  | cancel
  deriving DecidableEq, Repr

/-- What they return: nothing, where they are `void`. -/
def Unsupported.value : Unsupported → Option U32
  | .pktchanAvailable | .sclchanAvailable => some 0
  | .sclchanRecvUint64 | .sclchanRecvUint32 | .sclchanRecvUint16 | .sclchanRecvUint8 => some 0
  -- `MCAPI_RETURN_VALUE_INVALID`
  | .waitAny => some (BitVec.allOnes 32)
  | _ => none

def Unsupported.exec (w : World) (f : Unsupported) : Ret × World :=
  match f.value with
  | none => (.status .errGeneral, w)
  | some v => (.value v .errGeneral, w)

/-! ## The system -/

def Ret.reported : Ret → Status
  | .value _ st => st
  | .status st => st
  | .issue i => i.status
  | .done d => d.status

/-- A call on node attributes. -/
inductive AttributeCall where
  | init (attrs : Option NodeAttributes)
  | set (attrs : Option NodeAttributes) (attributeNum : U32) (attr : Option U32) (attributeSize : U32)
  | get (domainId nodeId attributeNum : U32) (attr : Option Bytes) (attributeSize : U32)

/-- Its status. Only the get looks at the database. -/
def Sys.attributeStatus (s : Sys) (p : Nat) : AttributeCall → Res Status
  | .init attrs => .ok (nodeInitAttributes attrs).1
  | .set attrs num attr size => .ok (nodeSetAttribute attrs num attr size).1
  | .get d n num attr size =>
    match (s.procs p).cDb, s.seg with
    | .attached, some g => do
      let (st, _) ← nodeGetAttribute g.db d n num attr size
      .ok st
    | _, _ => .error .badPointer

/-- A step of the system, a call on node attributes, or one of a function that is not
    supported. -/
inductive PublicLabel where
  | sys (l : SysLabel)
  | attributes (p : Nat) (c : AttributeCall)
  | unsupported (p : Nat) (f : Unsupported)

/-- Calls of the second kind write to the caller's memory only. What one of the third is given
    does not matter: it looks at nothing. -/
def PublicStep (s : Sys) : PublicLabel → Sys → Prop
  | .sys l, s' => SysStep s l s'
  | .attributes p c, s' => s' = s ∧ ∃ st, s.attributeStatus p c = .ok st
  | .unsupported _ _, s' => s' = s

/-- The call as it runs: what it returned, and what it left. -/
def Sys.outcome (s : Sys) : SysLabel → Option (Ret × World)
  | .call p E c errno fl =>
    match (s.procs p).cDb, s.seg with
    | .attached, some g => (c.exec .std E { db := g.db, errno := errno, fl := fl }).toOption
    | _, _ => none
  | _ => none

/-- The status a step reports to its caller. -/
def Sys.reports (s : Sys) : PublicLabel → Option Status
  | .sys (.initialise p d n a o) => (mcapiInitialize d n a o s.seg (s.procs p)).toOption.map Prod.fst
  | .sys l => (s.outcome l).map fun x => x.1.reported
  | .attributes p c => (s.attributeStatus p c).toOption
  | .unsupported _ f => some (f.exec { db := s.db }).1.reported

/-- The driver commands of a step. -/
def Sys.gives (s : Sys) : PublicLabel → List Command
  | .sys l => (s.outcome l).elim [] fun x => commands x.2.trace
  | .attributes _ _ => []
  | .unsupported _ f => commands (f.exec { db := s.db }).2.trace

/-! ## No channel is open, no request is cancelled -/

structure Tame (db : Database) : Prop where
  closed : ∀ d n k, (((db.domains d).nodes n).endpoints k).isOpen = false
  uncancelled : ∀ r, (db.requests r).cancelled = false

theorem Tame.congr (h : Tame db) (hd : db'.domains = db.domains)
    (hr : ∀ r, (db'.requests r).cancelled = (db.requests r).cancelled) : Tame db' := by
  refine ⟨fun d n k => ?_, fun r => ?_⟩
  · rw [hd]
    exact h.closed d n k
  · rw [hr]
    exact h.uncancelled r

theorem tame_zeroed : Tame zeroed := ⟨fun _ _ _ => rfl, fun _ => rfl⟩

theorem Tame.setNode (h : Tame db) {i : Fin maxNodes} {x : NodeEntry} (hx : ∀ k, (x.endpoints k).isOpen = false) :
    Tame (db.setNode i x) := by
  refine ⟨fun d n k => ?_, h.uncancelled⟩
  by_cases hd : d = 0
  · subst hd
    by_cases hn : n = i
    · subst hn
      simpa [Database.setNode] using hx k
    · simpa [Database.setNode, hn] using h.closed 0 n k
  · simpa [Database.setNode, hd] using h.closed d n k

theorem Tame.setRequest (h : Tame db) {r : Req} {d : RequestData} (hd : d.cancelled = false) :
    Tame (db.setRequest r d) := by
  refine ⟨h.closed, fun q => ?_⟩
  by_cases hq : q = r
  · subst hq
    rw [setRequest_same]
    exact hd
  · rw [setRequest_ne _ _ hq]
    exact h.uncancelled q

theorem Tame.take (h : Tame db) (r : Req) : Tame (db.take r) := by
  refine h.congr rfl fun q => ?_
  by_cases hq : q = r
  · subst hq
    simp [Database.take]
  · rw [take_requests_ne db hq]

theorem Tame.dropped (h : Tame db) (r : Req) : Tame (dropped db r) := by
  unfold Mcapi.dropped
  split
  · refine h.congr rfl fun q => ?_
    by_cases hq : q = r
    · subst hq
      rw [release_requests_same]
    · rw [release_requests_ne db hq]
  · exact h

theorem Tame.addNode (h : Tame db) (d n : U32) (a : Option NodeAttributes) : Tame (transAddNode db d n a).2 := by
  refine ⟨?_, fun r => by rw [addNode_requests]; exact h.uncancelled r⟩
  intro e m k
  unfold transAddNode
  split
  · exact h.closed e m k
  dsimp only
  split
  · exact h.closed e m k
  rename_i i _
  split
  · exact h.closed e m k
  split
  · exact h.closed e m k
  · rename_i j _
    by_cases he : e = i
    · subst he
      by_cases hm : m = j
      · subst hm
        simp
      · simpa [hm] using h.closed e m k
    · simpa [he] using h.closed e m k

/-- What an issuing call writes into the record it reserved is not cancelled. -/
theorem record_uncancelled (locals : Locals) (ret : Int) (pkt : SmPacket) (d : RequestData) (i : Issuer) :
    (i.record locals ret pkt d).cancelled = false := by
  cases i <;> rfl

theorem Tame.filled (h : Tame db) (i : Issuer) (id : Req) (ret : Int) (pkt : SmPacket) :
    Tame (i.filled E db id ret pkt) :=
  (h.take id).setRequest (record_uncancelled ..)

theorem SameOperation.cancelled {d d' : RequestData} (h : SameOperation d d') : d'.cancelled = d.cancelled := by
  obtain ⟨c, n, rfl⟩ := h
  rfl

theorem Tame.issue (h : Tame w.db) {i : Issuer} {q : Option U32} {x : Issue} (hx : Issued E w q i x w') :
    Tame w'.db := by
  cases hx with
  | refused => exact h
  | found w' _ hdb => rw [hdb]; exact h
  | limit => exact h
  | missing id => exact h.take id
  | noBuffer id w' _ _ _ hdb => rw [hdb]; exact h.filled i id _ _
  | command id c p w' _ _ _ hdb => rw [hdb]; exact h.filled i id _ _

theorem Tame.table (h : Tame db) {c : Call} {x : Ret} (he : TableEffect E c x db db') (d : Fin maxDomains)
    (n : Fin maxNodes) (k : Slot) : (((db'.domains d).nodes n).endpoints k).isOpen = false := by
  cases he with
  | kept db' hd =>
    rw [hd]
    exact h.closed d n k
  | created i j p db' _ _ _ _ _ hdb =>
    rw [hdb]
    have ht : Tame (db.setNode i (((db.domains 0).nodes i).create j p)) := by
      apply h.setNode
      intro m
      by_cases hm : m = j
      · subst hm
        simp [NodeEntry.create, filledEntry]
      · simpa [NodeEntry.create, hm] using h.closed 0 i m
    exact ht.closed d n k
  | deleted i j e db' _ _ _ hdb =>
    rw [hdb]
    have ht : Tame (db.setNode i (((db.domains 0).nodes i).delete j)) := by
      apply h.setNode
      intro m
      by_cases hm : m = j
      · subst hm
        simp [NodeEntry.delete]
      · simpa [NodeEntry.delete, hm] using h.closed 0 i m
    exact ht.closed d n k

/-- A test or a wait leaves the mark of its request alone. -/
theorem Tame.requests (h : Tame db) {c : Call} (he : Effect c db db')
    (hissue : ∀ i q, c = Issuer.call q i → Tame db') (r : Req) : (db'.requests r).cancelled = false := by
  cases he with
  | quiet db' hq =>
    rw [hq.1]
    exact h.uncancelled r
  | reserve i q id d hc _ _ => exact (hissue i q hc).uncancelled r
  | rewrite q d _ _ hd => exact (h.setRequest (hd.cancelled.trans (h.uncancelled q))).uncancelled r
  | drop q d _ _ hd => exact ((h.setRequest (hd.cancelled.trans (h.uncancelled q))).dropped q).uncancelled r

/-! ## The tables -/

/-- The functions, without `mcapi_finalize`. -/
inductive Kind where
  | initialise
  | nodeInitAttributes
  | nodeSetAttribute
  | nodeGetAttribute
  | domainIdGet
  | nodeIdGet
  | endpointCreate
  | endpointGetI
  | endpointGet
  | endpointDelete
  | endpointGetAttribute
  | msgSendI
  | msgSend
  | msgRecvI
  | msgRecv
  | msgAvailable
  | test
  | wait
  | unsupported (f : Unsupported)
  deriving DecidableEq, Repr

def Call.kind : Call → Kind
  | .domainIdGet => .domainIdGet
  | .nodeIdGet => .nodeIdGet
  | .endpointCreate .. => .endpointCreate
  | .endpointGetI .. => .endpointGetI
  | .endpointGet .. => .endpointGet
  | .endpointDelete .. => .endpointDelete
  | .endpointGetAttribute .. => .endpointGetAttribute
  | .msgSendI .. => .msgSendI
  | .msgSend .. => .msgSend
  | .msgRecvI .. => .msgRecvI
  | .msgRecv .. => .msgRecv
  | .msgAvailable .. => .msgAvailable
  | .test .. => .test
  | .wait .. => .wait

def AttributeCall.kind : AttributeCall → Kind
  | .init .. => .nodeInitAttributes
  | .set .. => .nodeSetAttribute
  | .get .. => .nodeGetAttribute

/-- `mcapi_finalize` and the end of a process are in neither table. -/
def PublicLabel.kind : PublicLabel → Option Kind
  | .sys (.initialise ..) => some .initialise
  | .sys (.call _ _ c _ _) => some c.kind
  | .sys _ => none
  | .attributes _ c => some c.kind
  | .unsupported _ f => some (.unsupported f)

def Kind.statuses : Kind → List Status
  | .initialise => [.success, .errNodeInitfailed]
  | .nodeInitAttributes => [.success, .errParameter]
  | .nodeSetAttribute => [.success, .errAttrNotsupported, .errAttrSize, .errParameter]
  | .nodeGetAttribute => [.success, .errDomainInvalid, .errNodeInvalid, .errAttrSize, .errParameter]
  | .domainIdGet => [.success]
  | .nodeIdGet => [.success]
  | .endpointCreate => [.success]
  | .endpointGetI => [.success, .pending, .errTransmission, .errRequestLimit]
  | .endpointGet => [.success, .timeout, .errGeneral]
  | .endpointDelete => [.success, .errEndpInvalid]
  | .endpointGetAttribute => [.success, .errEndpInvalid]
  | .msgSendI => [.success, .pending, .errTransmission, .errEndpInvalid, .errRequestLimit]
  | .msgSend => [.success, .timeout, .errGeneral, .errEndpInvalid, .errMsgLimit]
  | .msgRecvI => [.success, .pending, .errTransmission, .errEndpInvalid, .errRequestLimit, .errParameter]
  | .msgRecv => [.success, .timeout, .errGeneral, .errEndpInvalid, .errParameter, .errMsgTruncated]
  | .msgAvailable => [.success, .errGeneral, .errEndpInvalid]
  | .test => [.success, .pending, .errGeneral, .errNodeNotinit, .errRequestInvalid, .errParameter]
  | .wait => [.success, .timeout, .errGeneral, .errNodeNotinit, .errRequestInvalid, .errParameter]
  | .unsupported _ => [.errGeneral]

def Kind.cmds : Kind → List Cmd
  | .endpointCreate => [.create]
  | .endpointGetI => [.queryRemoteEp]
  | .endpointGet => [.queryRemoteEp]
  | .endpointDelete => [.shutdown]
  | .msgSendI => [.send]
  | .msgSend => [.send]
  | .msgRecvI => [.recv]
  | .msgRecv => [.recv]
  | .msgAvailable => [.getSessionStatus]
  | .test => [.wait]
  | .wait => [.wait]
  | _ => []

/-- At most one command, and of the table. -/
def OneOf (cmds : List Cmd) (w w' : World) : Prop :=
  commands w'.trace = commands w.trace ∨
    ∃ c, commands w'.trace = commands w.trace ++ [c] ∧ c.cmd ∈ cmds

theorem OneOf.refl (cmds : List Cmd) (w : World) : OneOf cmds w w := .inl rfl

theorem OneOf.ioctl {cmds : List Cmd} {c : Cmd} {p : SmPacket} (hw : commands w'.trace = commands w.trace)
    (hc : c ∈ cmds) : OneOf cmds w (ioctl E w' c p).2 := by
  refine .inr ⟨⟨c, p, E.drv c p⟩, ?_, hc⟩
  rw [commands_ioctl_trace, hw]

/-- What a call of `k` may come to. -/
def Within (k : Kind) (w : World) (st : Status) (w' : World) : Prop := st ∈ k.statuses ∧ OneOf k.cmds w w'

theorem issueStatus_mem (ret errno : Int) :
    issueStatus ret errno = .success ∨ issueStatus ret errno = .pending ∨ issueStatus ret errno = .errTransmission := by
  unfold issueStatus
  split
  · split
    · exact .inr (.inl rfl)
    · exact .inr (.inr rfl)
  · exact .inl rfl

def Issuer.kind : Issuer → Kind
  | .msgSendI .. => .msgSendI
  | .msgRecvI .. => .msgRecvI
  | .endpointGetI .. => .endpointGetI

@[simp] theorem issuer_kind (i : Issuer) (q : Option U32) : (i.call q).kind = i.kind := by
  cases i <;> rfl

/-- The command of a route is the one of its call. -/
theorem route_cmd {i : Issuer} {c : Cmd} {p : SmPacket} (h : i.route db = .ok (.command c p)) :
    c ∈ i.kind.cmds := by
  cases i with
  | msgSendI s r b n pr =>
    obtain ⟨k, -, h⟩ := bind_eq_ok.mp h
    cases k <;> cases h
    exact List.mem_singleton_self _
  | msgRecvI r b n =>
    obtain ⟨k, -, h⟩ := bind_eq_ok.mp h
    cases k with
    | none => cases h
    | some k =>
      dsimp only at h
      split at h <;> cases h
      exact List.mem_singleton_self _
  | endpointGetI d n pt e =>
    obtain ⟨k, -, h⟩ := bind_eq_ok.mp h
    cases k <;> cases h
    exact List.mem_singleton_self _

theorem issueStatus_kind (i : Issuer) (ret errno : Int) : issueStatus ret errno ∈ i.kind.statuses := by
  rcases issueStatus_mem ret errno with h | h | h
  all_goals
    rw [h]
    cases i <;> simp [Issuer.kind, Kind.statuses]

theorem issue_within {i : Issuer} {q : Option U32} {x : Issue} (h : i.exec .std E w q = .ok (x, w')) :
    Within i.kind w x.status w' := by
  cases issue_cases h with
  | refused hq =>
    subst hq
    cases i with
    | msgRecvI r b n => exact ⟨by simp [Issuer.kind, Kind.statuses], .refl _ _⟩
    | msgSendI s r b n p =>
      -- a send without a pointer faults
      obtain ⟨st, -, h⟩ := bind_eq_ok.mp h
      cases hid : w.db.requestReservesHeader.emptyHeadIndex with
      | none => simp only [transMsgSendI, transReserveRequest, hid] at h; cases h
      | some id => simp only [transMsgSendI, transReserveRequest, hid] at h; cases h
    | endpointGetI d n p e =>
      obtain ⟨k, -, h⟩ := bind_eq_ok.mp h
      cases k with
      | some k =>
        obtain ⟨w1, -, h⟩ := bind_eq_ok.mp h
        cases h
      | none =>
        cases hid : w.db.requestReservesHeader.emptyHeadIndex with
        | none => simp only [transReserveRequest, hid] at h; cases h
        | some id => simp only [transReserveRequest, hid] at h; cases h
  | found w' hr _ hcs _ =>
    obtain ⟨d, n, p, e, rfl⟩ := route_found hr
    exact ⟨by simp [Issuer.kind, Kind.statuses], .inl hcs⟩
  | limit =>
    refine ⟨?_, .refl _ _⟩
    cases i <;> simp [Issuer.kind, Kind.statuses]
  | missing id _ _ hr =>
    refine ⟨?_, .inl rfl⟩
    cases i with
    | msgSendI => simp [Issuer.kind, Kind.statuses]
    | msgRecvI => simp [Issuer.kind, Kind.statuses]
    | endpointGetI d n p e =>
      obtain ⟨k, -, hr⟩ := bind_eq_ok.mp hr
      cases k <;> cases hr
  | noBuffer id w' _ _ _ _ hcs _ => exact ⟨issueStatus_kind i (-einval) w.errno, .inl hcs⟩
  | command id c p w' _ _ hr _ hcs _ =>
    exact ⟨issueStatus_kind i (E.drv c p).ret (errnoAfter E w c p), .inr ⟨_, hcs, route_cmd hr⟩⟩

theorem create_within (hreg : (w.db.domains 0).valid = true) {p : U32} {x : U32 × Status}
    (h : endpointCreate .std E w p = .ok (x, w')) : Within .endpointCreate w x.2 w' := by
  cases create_cases h with
  | notInit e hv => rw [hreg] at hv; cases hv
  | created i k w' _ _ _ _ hcs => exact ⟨by simp [Kind.statuses], .inr ⟨_, hcs, by simp [Kind.cmds]⟩⟩

theorem delete_within (ht : Tame w.db) {e : U32} {st : Status} (h : endpointDelete .std E w e = .ok (st, w')) :
    Within .endpointDelete w st w' := by
  cases delete_cases h with
  | deleted i k w' _ _ _ _ hcs => exact ⟨by simp [Kind.statuses], .inr ⟨_, hcs, by simp [Kind.cmds]⟩⟩
  | refused _ hst =>
    -- the channel of an endpoint is never open
    unfold endpointDelete at h
    obtain ⟨v, hv, h⟩ := bind_eq_ok.mp h
    cases v with
    | false => cases h; exact ⟨by simp [Kind.statuses], .refl _ _⟩
    | true =>
      simp only [Bool.not_true, Bool.false_eq_true, if_false, transEndpointIsowner] at h
      obtain ⟨o, ho, h⟩ := bind_eq_ok.mp h
      have hclosed : o = false := by
        unfold transEndpointChannelIsopen at ho
        obtain ⟨k, -, ho⟩ := bind_eq_ok.mp ho
        cases k with
        | none => cases ho; rfl
        | some k => cases ho; exact ht.closed 0 0 k
      subst hclosed
      obtain ⟨w1, -, h⟩ := bind_eq_ok.mp h
      cases h
      exact absurd rfl hst

theorem get_within {d n p t : U32} {x : U32 × Status} (h : endpointGet .std E w d n p t = .ok (x, w')) :
    Within .endpointGet w x.2 w' := by
  simp only [endpointGet, transValidNode, transValidPort, transEndpointGet, Bool.not_true, Bool.false_eq_true,
    if_false] at h
  obtain ⟨k, -, h⟩ := bind_eq_ok.mp h
  cases k with
  | some k => cases h; exact ⟨by simp [Kind.statuses], .refl _ _⟩
  | none =>
    have hone : OneOf Kind.endpointGet.cmds w (smGetRemoteEp E w p n t true).2 :=
      .ioctl (commands_setBlocking w true) (by simp [Kind.cmds])
    dsimp only at h
    split at h
    · cases h
      refine ⟨?_, hone⟩
      dsimp only
      split <;> simp [Kind.statuses]
    · cases h
      exact ⟨by simp [Kind.statuses], hone⟩

theorem getAttribute_within {e : U32} {st : Status} (h : endpointGetAttribute .std w e = .ok (st, w')) :
    Within .endpointGetAttribute w st w' := by
  obtain ⟨v, -, h⟩ := bind_eq_ok.mp h
  split at h <;> cases h <;> exact ⟨by simp [Kind.statuses], .refl _ _⟩

theorem send_within {s r b n p : U32} {st : Status} (h : msgSend .std E w s r b n p = .ok (st, w')) :
    Within .msgSend w st w' := by
  obtain ⟨v, hv, h⟩ := bind_eq_ok.mp h
  have hchecks : v = .success ∨ v = .errEndpInvalid ∨ v = .errMsgLimit := by
    unfold sendChecks at hv
    simp only [transValidPriority, Bool.not_true, Bool.false_eq_true, if_false] at hv
    obtain ⟨ok, -, hv⟩ := bind_eq_ok.mp hv
    split at hv
    · cases hv; exact .inr (.inl rfl)
    split at hv
    · cases hv; exact .inr (.inr rfl)
    · cases hv; exact .inl rfl
  split at h
  · cases h
    refine ⟨?_, .refl _ _⟩
    rcases hchecks with rfl | rfl | rfl <;> simp [Kind.statuses]
  · obtain ⟨k, -, h⟩ := bind_eq_ok.mp h
    cases k with
    | none => cases h; exact ⟨by simp [Kind.statuses], .refl _ _⟩
    | some k =>
      have hone (d c : U32) : OneOf Kind.msgSend.cmds w (smSendPacket E w (sessionOf k) d c b n true).2.2 :=
        .ioctl (commands_setBlocking w true) (by simp [Kind.cmds])
      dsimp only at h
      split at h
      · cases h
        refine ⟨?_, hone _ _⟩
        split <;> simp [Kind.statuses]
      · cases h
        exact ⟨by simp [Kind.statuses], hone _ _⟩

theorem recvPacket_one (k b n : U32) (e d : U16) (blocking : Bool) (w : World) :
    OneOf [.recv] w (smRecvPacket E w k e d b n blocking).2 := by
  unfold smRecvPacket
  split
  · exact .refl _ _
  · have hone : OneOf [.recv] w (ioctl E (setBlocking w blocking) .recv ⟨k, 0, 0, 0, .zero, b, n, 0, 0⟩).2 :=
      .ioctl (commands_setBlocking w blocking) (List.mem_singleton_self _)
    dsimp only
    split <;> exact hone

theorem recv_within {r b n m : U32} {x : Status × U32} (h : msgRecv .std E w r b n m = .ok (x, w')) :
    Within .msgRecv w x.1 w' := by
  obtain ⟨v, hv, h⟩ := bind_eq_ok.mp h
  have hchecks : v = .success ∨ v = .errParameter ∨ v = .errEndpInvalid := by
    unfold recvChecks at hv
    split at hv
    · cases hv; exact .inr (.inl rfl)
    obtain ⟨ok, -, hv⟩ := bind_eq_ok.mp hv
    split at hv
    · cases hv; exact .inr (.inr rfl)
    · cases hv; exact .inl rfl
  split at h
  · cases h
    refine ⟨?_, .refl _ _⟩
    rcases hchecks with rfl | rfl | rfl <;> simp [Kind.statuses]
  obtain ⟨⟨⟨st, len⟩, w1⟩, h1, h⟩ := bind_eq_ok.mp h
  -- what the transport returns, and what the interface makes of it
  have htrans : (st = .success ∨ st = .timeout ∨ st = .errGeneral ∨ st = .errEndpInvalid) ∧
      OneOf Kind.msgRecv.cmds w w1 := by
    obtain ⟨k, -, h1⟩ := bind_eq_ok.mp h1
    cases k with
    | none => cases h1; exact ⟨by simp, .refl _ _⟩
    | some k =>
      have hone := recvPacket_one (E := E) (sessionOf k) b n E.locals.send.portId E.locals.send.nodeId true w
      dsimp only at h1
      split at h1
      · cases h1
        refine ⟨?_, hone⟩
        split <;> simp
      · cases h1
        exact ⟨by simp, hone⟩
  obtain ⟨hst, hone⟩ := htrans
  have hmem : st ∈ Kind.msgRecv.statuses := by
    rcases hst with rfl | rfl | rfl | rfl <;> simp [Kind.statuses]
  cases len with
  | none => cases h; exact ⟨hmem, hone⟩
  | some len =>
    dsimp only at h
    split at h
    · cases h; exact ⟨by simp [Kind.statuses], hone⟩
    · cases h; exact ⟨hmem, hone⟩

theorem available_within {r : U32} {x : U32 × Status} (h : msgAvailable .std E w r = .ok (x, w')) :
    Within .msgAvailable w x.2 w' := by
  obtain ⟨v, -, h⟩ := bind_eq_ok.mp h
  split at h
  · cases h; exact ⟨by simp [Kind.statuses], .refl _ _⟩
  dsimp only [transMsgAvailable] at h
  split at h
  · cases h
  obtain ⟨k, -, h⟩ := bind_eq_ok.mp h
  cases k with
  | none => cases h; exact ⟨by simp [Kind.statuses], .refl _ _⟩
  | some k =>
    have hone : OneOf Kind.msgAvailable.cmds w (smGetSessionStatus E w (sessionOf k)).2.2 :=
      .ioctl rfl (by simp [Kind.cmds])
    dsimp only at h
    split at h <;> cases h <;> exact ⟨by simp [Kind.statuses], hone⟩

theorem test_within (ht : Tame w.db) {v : U32} {size : Option U32} {d : Done}
    (h : test .std E w v size = .ok (d, w')) : Within .test w d.status w' := by
  have hone : OneOf Kind.test.cmds w w' := by
    cases test_cases h with
    | refused => exact .refl _ _
    | ended => exact .refl _ _
    | pending r t d w' _ _ _ _ _ _ _ _ hcs => exact .inr ⟨_, hcs, by simp [Kind.cmds, waitCommand]⟩
    | done r t d w' size _ _ _ _ _ _ _ hcs => exact .inr ⟨_, hcs, by simp [Kind.cmds, waitCommand]⟩
  refine ⟨?_, hone⟩
  cases size with
  | none => cases h; simp [Kind.statuses]
  | some sz =>
    rcases handle_cases w.db v with hv | ⟨hv, f, hf⟩ | ⟨r, rfl, hr⟩
    · simp only [test, hv] at h
      cases h
      simp [Kind.statuses]
    · simp only [test, transTestI, hv, hf] at h
      cases h
    · have h : transTestI .std E w (handleOf r) (some sz) = .ok (d, w') := by
        simpa [test, transValidSizeParam, hr] using h
      have hv : ¬ (Build.std.asserts && !transValidRequestHandle w.db (handleOf r)) = true := by simp [hr]
      rw [transTestI, if_neg hv, requestSlot_handleOf, ok_bind] at h
      dsimp only at h
      split at h
      · rename_i hn; rw [hr] at hn; cases hn
      split at h
      · rename_i hc; rw [ht.uncancelled r] at hc; cases hc
      split at h
      · cases h; simp [Kind.statuses]
      obtain ⟨t, -, h⟩ := bind_eq_ok.mp h
      cases t with
      | none => cases h; simp [Kind.statuses]
      | some t =>
        dsimp only at h
        split at h
        · cases h
          dsimp only
          split <;> simp [Kind.statuses]
        split at h
        · obtain ⟨w1, -, h⟩ := bind_eq_ok.mp h
          cases h
          simp [Kind.statuses]
        · cases h; simp [Kind.statuses]

theorem wait_within {v t : U32} {size : Option U32} {d : Done} (h : wait .std E w v size t = .ok (d, w')) :
    Within .wait w d.status w' := by
  cases wait_cases h with
  | refused _ hd => exact ⟨by rcases hd with hd | hd <;> simp [hd, Kind.statuses], .refl _ _⟩
  | gone r _ _ _ _ _ hd => exact ⟨by simp [hd, Kind.statuses], .refl _ _⟩
  | already r _ w' _ _ _ _ hd _ hcs => exact ⟨by simp [hd, Kind.statuses], .inl hcs⟩
  | failed r t _ w' _ _ _ _ _ _ hd _ hcs =>
    refine ⟨?_, .inr ⟨_, hcs, by simp [Kind.cmds, waitCommand]⟩⟩
    rcases hd with hd | hd <;> simp [hd, Kind.statuses]
  | done r t _ w' rec _ _ _ _ _ hd _ _ hcs =>
    exact ⟨by simp [hd, Kind.statuses], .inr ⟨_, hcs, by simp [Kind.cmds, waitCommand]⟩⟩

/-! ## Every call, in every reachable state -/

/-- What initialisations and calls keep of the database of a segment: it is tame, and its
    first domain is there. -/
structure Orderly (db : Database) : Prop where
  tame : Tame db
  registered : (db.domains 0).valid = true

theorem exec_within (hs : Orderly w.db) {c : Call} {x : Ret} (h : c.exec .std E w = .ok (x, w')) :
    Within c.kind w x.reported w' := by
  cases c with
  | domainIdGet =>
    cases h
    refine ⟨?_, .refl _ _⟩
    simp [Ret.reported, transGetDomainNum, hs.registered, Call.kind, Kind.statuses]
  | nodeIdGet => cases h; exact ⟨List.mem_singleton_self _, .refl _ _⟩
  | endpointCreate p =>
    obtain ⟨⟨⟨v, st⟩, w1⟩, hx, h⟩ := bind_eq_ok.mp h
    cases h
    exact create_within hs.registered hx
  | endpointGetI d n p e q =>
    obtain ⟨y, rfl, hx⟩ := issue_exec (i := .endpointGetI d n p e) h
    exact issue_within hx
  | endpointGet d n p t =>
    obtain ⟨⟨⟨v, st⟩, w1⟩, hx, h⟩ := bind_eq_ok.mp h
    cases h
    exact get_within hx
  | endpointDelete e =>
    obtain ⟨⟨st, w1⟩, hx, h⟩ := bind_eq_ok.mp h
    cases h
    exact delete_within hs.tame hx
  | endpointGetAttribute e =>
    obtain ⟨⟨st, w1⟩, hx, h⟩ := bind_eq_ok.mp h
    cases h
    exact getAttribute_within hx
  | msgSendI s r b n p q =>
    obtain ⟨y, rfl, hx⟩ := issue_exec (i := .msgSendI s r b n p) h
    exact issue_within hx
  | msgSend s r b n p =>
    obtain ⟨⟨st, w1⟩, hx, h⟩ := bind_eq_ok.mp h
    cases h
    exact send_within hx
  | msgRecvI r b n q =>
    obtain ⟨y, rfl, hx⟩ := issue_exec (i := .msgRecvI r b n) h
    exact issue_within hx
  | msgRecv r b n m =>
    obtain ⟨⟨⟨st, v⟩, w1⟩, hx, h⟩ := bind_eq_ok.mp h
    cases h
    exact recv_within hx
  | msgAvailable r =>
    obtain ⟨⟨⟨v, st⟩, w1⟩, hx, h⟩ := bind_eq_ok.mp h
    cases h
    exact available_within hx
  | test v size =>
    obtain ⟨d, rfl, hx⟩ := test_exec h
    exact test_within hs.tame hx
  | wait v size t =>
    obtain ⟨d, rfl, hx⟩ := wait_exec h
    exact wait_within hx

theorem exec_tame (ht : Tame w.db) {c : Call} {x : Ret} (h : c.exec .std E w = .ok (x, w')) : Tame w'.db := by
  refine ⟨ht.table (exec_table h), ht.requests (exec_effect h) ?_⟩
  intro i q hc
  subst hc
  obtain ⟨y, -, hx⟩ := issue_exec h
  exact ht.issue (issue_cases hx)

theorem PublicStep.sys {s s' : Sys} {l : PublicLabel} (h : PublicStep s l s') :
    s' = s ∨ ∃ l', l = .sys l' ∧ SysStep s l' s' := by
  cases l with
  | sys l' => exact .inr ⟨l', rfl, h⟩
  | attributes p c => exact .inl h.1
  | unsupported p f => exact .inl h

/-- Only the steps of the system matter to where a run leads. -/
theorem sys_run {s : Sys} (h : Lts.Reachable PublicStep Sys.init s) : Lts.Reachable SysStep Sys.init s := by
  refine h.invariant (I := fun s => Lts.Reachable SysStep Sys.init s) (.refl _) ?_
  intro s l s' ih hs
  rcases hs.sys with rfl | ⟨l', -, hs⟩
  · exact ih
  · exact ih.tail hs

theorem orderly_run {s : Sys} (h : Lts.Reachable PublicStep Sys.init s) : ∀ g, s.seg = some g → Orderly g.db := by
  have hsys := sys_run h
  have htame : ∀ g, s.seg = some g → Tame g.db := by
    refine hsys.invariant (I := fun s => ∀ g, s.seg = some g → Tame g.db) (fun g hg => (by cases hg)) ?_
    intro s l s' ih hs
    refine segment_keeps ih hs ?_ ?_
    · intro p d n a o db _ _ hdb
      apply Tame.addNode
      rcases hdb with rfl | ⟨g, hg, rfl⟩
      · exact tame_zeroed.congr rfl fun _ => rfl
      · exact (ih g hg).congr rfl fun _ => rfl
    · intro db c db' hc ht
      obtain ⟨rfl, rfl, -, hx⟩ := hc
      exact exec_tame ht hx
  intro g hg
  exact ⟨htame g hg, (registered_run hsys g hg).domain0⟩

/-! ## What can be reported -/

/-- Some function of this kind, in some run, reports the status. -/
def CanReport (k : Kind) (st : Status) : Prop :=
  ∃ s l, Lts.Reachable PublicStep Sys.init s ∧ l.kind = some k ∧ s.reports l = some st

/-- Some function of this kind, in some run, gives the command. -/
def CanGive (k : Kind) (cmd : Cmd) : Prop :=
  ∃ s l c, Lts.Reachable PublicStep Sys.init s ∧ l.kind = some k ∧ c ∈ s.gives l ∧ c.cmd = cmd

/-- A call that returns ran on the database of the segment. -/
theorem outcome_call {s : Sys} {p : Nat} {c : Call} {errno : Int} {fl : U32} {x : Ret × World}
    (h : s.outcome (.call p E c errno fl) = some x) :
    ∃ g, s.seg = some g ∧ c.exec .std E { db := g.db, errno := errno, fl := fl } = .ok (x.1, x.2) := by
  unfold Sys.outcome at h
  dsimp only at h
  split at h
  · rename_i g _ hg
    refine ⟨g, hg, ?_⟩
    cases he : c.exec .std E { db := g.db, errno := errno, fl := fl } with
    | error f => rw [he] at h; cases h
    | ok y =>
      rw [he] at h
      cases h
      rfl
  · cases h

theorem outcome_within {s : Sys} (hr : Lts.Reachable PublicStep Sys.init s) {p : Nat} {c : Call} {errno : Int}
    {fl : U32} {x : Ret × World} (h : s.outcome (.call p E c errno fl) = some x) :
    ∃ w, commands w.trace = [] ∧ Within c.kind w x.1.reported x.2 := by
  obtain ⟨g, hg, hx⟩ := outcome_call h
  exact ⟨_, rfl, exec_within (orderly_run hr g hg) hx⟩

theorem initialise_status {d n : U32} {a : Option NodeAttributes} {o : InitEnv} {seg : Option Segment} {pr : Proc}
    {st : Status} (h : (mcapiInitialize d n a o seg pr).toOption.map Prod.fst = some st) :
    st ∈ Kind.initialise.statuses := by
  cases hi : mcapiInitialize d n a o seg pr with
  | error f => rw [hi] at h; cases h
  | ok x =>
    rw [hi] at h
    cases h
    simp only [mcapiInitialize, transValidNode, Bool.not_true, Bool.false_eq_true, if_false] at hi
    obtain ⟨known, hk, hi⟩ := bind_eq_ok.mp hi
    cases initializedIn_false hk
    obtain ⟨⟨rc, seg1, pr1⟩, -, hi⟩ := bind_eq_ok.mp hi
    cases rc <;> cases hi <;> simp [Kind.statuses]

theorem setAttribute_status (attrs : Option NodeAttributes) (num : U32) (attr : Option U32) (size : U32) :
    (nodeSetAttribute attrs num attr size).1 ∈ Kind.nodeSetAttribute.statuses := by
  cases attrs with
  | none => simp [nodeSetAttribute, Kind.statuses]
  | some attrs =>
    cases attr with
    | none => simp [nodeSetAttribute, Kind.statuses]
    | some v =>
      dsimp only [nodeSetAttribute, transNodeSetAttribute]
      split
      · simp [Kind.statuses]
      split
      · simp [Kind.statuses]
      · simp [Kind.statuses]

theorem getAttribute_status {d n num size : U32} {attr : Option Bytes} {x : Status × Option Bytes}
    (h : nodeGetAttribute db d n num attr size = .ok x) : x.1 ∈ Kind.nodeGetAttribute.statuses := by
  cases attr with
  | none => cases h; simp [Kind.statuses]
  | some attr =>
    obtain ⟨⟨⟨rc, st⟩, out⟩, hx, h⟩ := bind_eq_ok.mp h
    cases h
    unfold transNodeGetAttribute at hx
    -- the pair is looked for, and then its entry
    split at hx
    · cases hx; simp [Kind.statuses]
    split at hx
    · cases hx; simp [Kind.statuses]
    split at hx
    · cases hx; simp [Kind.statuses]
    split at hx
    · cases hx; simp [Kind.statuses]
    obtain ⟨k, -, hx⟩ := bind_eq_ok.mp hx
    dsimp only at hx
    split at hx
    · cases hx; simp [Kind.statuses]
    split at hx
    · cases hx
    · cases hx; simp [Kind.statuses]

theorem attribute_status {s : Sys} {p : Nat} {c : AttributeCall} {st : Status}
    (h : s.attributeStatus p c = .ok st) : st ∈ c.kind.statuses := by
  cases c with
  | init attrs =>
    cases h
    cases attrs <;> simp [nodeInitAttributes, AttributeCall.kind, Kind.statuses]
  | set attrs num attr size =>
    cases h
    exact setAttribute_status attrs num attr size
  | get d n num attr size =>
    unfold Sys.attributeStatus at h
    dsimp only at h
    split at h
    · obtain ⟨x, hx, h⟩ := bind_eq_ok.mp h
      cases h
      exact getAttribute_status hx
    · cases h

theorem reports_table {s : Sys} (hr : Lts.Reachable PublicStep Sys.init s) {l : PublicLabel} {k : Kind} {st : Status}
    (hk : l.kind = some k) (h : s.reports l = some st) : st ∈ k.statuses := by
  cases l with
  | unsupported p f =>
    cases hk
    cases f <;> cases h <;> exact List.mem_singleton_self _
  | attributes p c =>
    cases hk
    have hst : (s.attributeStatus p c).toOption = some st := h
    cases hx : s.attributeStatus p c with
    | error f => rw [hx] at hst; cases hst
    | ok st' =>
      rw [hx] at hst
      cases hst
      exact attribute_status hx
  | sys l =>
    cases l with
    | initialise p d n a o =>
      cases hk
      exact initialise_status h
    | finalize p => cases hk
    | exit p => cases hk
    | call p E c errno fl =>
      cases hk
      obtain ⟨x, hx, rfl⟩ := Option.map_eq_some_iff.mp h
      obtain ⟨w, -, hw⟩ := outcome_within hr hx
      exact hw.1

theorem gives_table {s : Sys} (hr : Lts.Reachable PublicStep Sys.init s) (l : PublicLabel) :
    s.gives l = [] ∨ ∃ c k, s.gives l = [c] ∧ l.kind = some k ∧ c.cmd ∈ k.cmds := by
  cases l with
  | unsupported p f =>
    left
    cases f <;> rfl
  | attributes p c => exact .inl rfl
  | sys l =>
    cases l with
    | initialise p d n a o => exact .inl rfl
    | finalize p => exact .inl rfl
    | exit p => exact .inl rfl
    | call p E c errno fl =>
      have hgives : s.gives (.sys (.call p E c errno fl)) =
          (s.outcome (.call p E c errno fl)).elim [] fun x => commands x.2.trace := rfl
      rw [hgives]
      cases hx : s.outcome (.call p E c errno fl) with
      | none => exact .inl rfl
      | some x =>
        obtain ⟨w, hw, -, hone⟩ := outcome_within hr hx
        rcases hone with hone | ⟨y, hone, hmem⟩
        · exact .inl (hone.trans hw)
        · rw [hw, List.nil_append] at hone
          exact .inr ⟨y, c.kind, hone, rfl, hmem⟩

/-! ## Everything in the tables happens -/

/-- A driver that fails every command with this `errno`. -/
def failing (errno : Int) : Env := { drv := fun _ p => ⟨-1, errno, p, {}⟩ }

/-- A driver that says a packet is longer than its buffer. -/
def overlong : Env := { drv := fun _ p => ⟨0, 0, { p with bufLen := p.bufLen + 1 }, {}⟩ }

/-- Some databases: no endpoint; an endpoint on port 5; a question asked, or 64 of them; and
    a receive on an endpoint that has been deleted since. -/
inductive Scene where
  | fresh
  | port
  | question
  | full
  | orphan
  deriving DecidableEq, Repr

/-- A receive on port 5 that is not completed. -/
def receiving : Database := (Call.msgRecvI 5 4096 16 (some 0)).after (failing eagain) onePort

theorem receiving_live : Live receiving := Live.after onePort_live _ _

def Scene.database : Scene → Database
  | .fresh => initialised 0 0 none
  | .port => onePort
  | .question => asked 1
  | .full => asked maxRequests
  | .orphan => (Call.endpointDelete 5).after willing receiving

theorem Scene.live (sc : Scene) : Live sc.database := by
  cases sc with
  | fresh => exact ⟨0, 0, none, .refl _⟩
  | port => exact onePort_live
  | question => exact asked_live 1
  | full => exact asked_live maxRequests
  | orphan => exact Live.after receiving_live _ _

/-- Where a call of the kind reports the status. -/
def Kind.scene : Kind → Status → Scene × Env × Call
  | .domainIdGet, _ => (.fresh, willing, .domainIdGet)
  | .nodeIdGet, _ => (.fresh, willing, .nodeIdGet)
  | .endpointCreate, _ => (.fresh, sessionOne, .endpointCreate 5)
  | .endpointGetI, .pending => (.fresh, failing eagain, .endpointGetI 0 7 5 4096 (some 0))
  | .endpointGetI, .errTransmission => (.fresh, failing 5, .endpointGetI 0 7 5 4096 (some 0))
  | .endpointGetI, .errRequestLimit => (.full, willing, .endpointGetI 0 7 5 4096 (some 0))
  | .endpointGetI, _ => (.fresh, willing, .endpointGetI 0 7 5 4096 (some 0))
  | .endpointGet, .timeout => (.fresh, failing etimedout, .endpointGet 0 7 5 100)
  | .endpointGet, .errGeneral => (.fresh, failing 5, .endpointGet 0 7 5 100)
  | .endpointGet, _ => (.fresh, willing, .endpointGet 0 7 5 100)
  | .endpointDelete, .success => (.port, willing, .endpointDelete 5)
  | .endpointDelete, _ => (.fresh, willing, .endpointDelete 5)
  | .endpointGetAttribute, .success => (.port, willing, .endpointGetAttribute 5)
  | .endpointGetAttribute, _ => (.fresh, willing, .endpointGetAttribute 5)
  | .msgSendI, .pending => (.port, failing eagain, .msgSendI 5 6 4096 16 0 (some 0))
  | .msgSendI, .errTransmission => (.port, failing 5, .msgSendI 5 6 4096 16 0 (some 0))
  | .msgSendI, .errEndpInvalid => (.fresh, willing, .msgSendI 5 6 4096 16 0 (some 0))
  | .msgSendI, .errRequestLimit => (.full, willing, .msgSendI 5 6 4096 16 0 (some 0))
  | .msgSendI, _ => (.port, willing, .msgSendI 5 6 4096 16 0 (some 0))
  | .msgSend, .timeout => (.port, failing etimedout, .msgSend 5 6 4096 16 0)
  | .msgSend, .errGeneral => (.port, failing 5, .msgSend 5 6 4096 16 0)
  | .msgSend, .errEndpInvalid => (.fresh, willing, .msgSend 5 6 4096 16 0)
  | .msgSend, .errMsgLimit => (.port, willing, .msgSend 5 6 4096 1025 0)
  | .msgSend, _ => (.port, willing, .msgSend 5 6 4096 16 0)
  | .msgRecvI, .pending => (.port, failing eagain, .msgRecvI 5 4096 16 (some 0))
  | .msgRecvI, .errTransmission => (.port, failing 5, .msgRecvI 5 4096 16 (some 0))
  | .msgRecvI, .errEndpInvalid => (.fresh, willing, .msgRecvI 5 4096 16 (some 0))
  | .msgRecvI, .errRequestLimit => (.full, willing, .msgRecvI 5 4096 16 (some 0))
  | .msgRecvI, .errParameter => (.port, willing, .msgRecvI 5 4096 16 none)
  | .msgRecvI, _ => (.port, willing, .msgRecvI 5 4096 16 (some 0))
  | .msgRecv, .timeout => (.port, failing etimedout, .msgRecv 5 4096 16 0)
  | .msgRecv, .errGeneral => (.port, failing 5, .msgRecv 5 4096 16 0)
  | .msgRecv, .errEndpInvalid => (.fresh, willing, .msgRecv 5 4096 16 0)
  | .msgRecv, .errParameter => (.port, willing, .msgRecv 5 0 16 0)
  | .msgRecv, .errMsgTruncated => (.port, overlong, .msgRecv 5 4096 16 0)
  | .msgRecv, _ => (.port, willing, .msgRecv 5 4096 16 0)
  | .msgAvailable, .errGeneral => (.port, failing 5, .msgAvailable 5)
  | .msgAvailable, .errEndpInvalid => (.fresh, willing, .msgAvailable 5)
  | .msgAvailable, _ => (.port, willing, .msgAvailable 5)
  | .test, .pending => (.question, failing eagain, .test 0 (some 0))
  | .test, .errGeneral => (.question, failing 5, .test 0 (some 0))
  | .test, .errNodeNotinit => (.orphan, willing, .test 0 (some 0))
  | .test, .errRequestInvalid => (.fresh, willing, .test 0 (some 0))
  | .test, .errParameter => (.fresh, willing, .test 0 none)
  | .test, _ => (.question, willing, .test 0 (some 0))
  | .wait, .timeout => (.question, failing etimedout, .wait 0 (some 0) 100)
  | .wait, .errGeneral => (.question, failing 5, .wait 0 (some 0) 100)
  | .wait, .errNodeNotinit => (.orphan, willing, .wait 0 (some 0) 100)
  | .wait, .errRequestInvalid => (.fresh, willing, .wait 0 (some 0) 100)
  | .wait, .errParameter => (.fresh, willing, .wait 0 none 100)
  | .wait, _ => (.question, willing, .wait 0 (some 0) 100)
  | _, _ => (.fresh, willing, .nodeIdGet)

/-- Where a call on node attributes does, on node 0 of domain 0. -/
def Kind.attributeScene : Kind → Status → AttributeCall
  | .nodeInitAttributes, .errParameter => .init none
  | .nodeInitAttributes, _ => .init (some fun _ => {})
  | .nodeSetAttribute, .errAttrNotsupported => .set (some fun _ => {}) 1 (some 0) 4
  | .nodeSetAttribute, .errAttrSize => .set (some fun _ => {}) 0 (some 0) 8
  | .nodeSetAttribute, .errParameter => .set (some fun _ => {}) 0 none 4
  | .nodeSetAttribute, _ => .set (some fun _ => {}) 0 (some 0) 4
  | .nodeGetAttribute, .errDomainInvalid => .get 7 0 0 (some fun _ => 0) 4
  | .nodeGetAttribute, .errNodeInvalid => .get 0 7 0 (some fun _ => 0) 4
  | .nodeGetAttribute, .errAttrSize => .get 0 0 0 (some fun _ => 0) 8
  | .nodeGetAttribute, .errParameter => .get 0 0 0 none 4
  | _, _ => .get 0 0 0 (some fun _ => 0) 4

def Scene.label (x : Scene × Env × Call) : PublicLabel := .sys (.call 0 x.2.1 x.2.2 0 2)

theorem Live.public (h : Live db) : Lts.Reachable PublicStep Sys.init (alone db) := by
  obtain ⟨ls, hrun⟩ := h.healthy_alone
  refine Lts.Reachable.invariant (I := fun s => Lts.Reachable PublicStep Sys.init s) ⟨ls, hrun⟩ (.refl _) ?_
  intro s l s' ih hs
  exact ih.tail (l := .sys l) hs.2

theorem scene_reachable (sc : Scene) : Lts.Reachable PublicStep Sys.init (alone sc.database) := sc.live.public

/-- The functions that `Call` has. -/
def Kind.isCall : Kind → Bool
  | .initialise | .nodeInitAttributes | .nodeSetAttribute | .nodeGetAttribute | .unsupported _ => false
  | _ => true

/-- The scene of a status reports it. -/
theorem scene_reports (k : Kind) (hk : k.isCall = true) :
    ∀ st ∈ k.statuses, (Scene.label (k.scene st)).kind = some k ∧
      (alone (k.scene st).1.database).reports (Scene.label (k.scene st)) = some st := by
  cases k with
  | unsupported f => cases hk
  | initialise => cases hk
  | nodeInitAttributes => cases hk
  | nodeSetAttribute => cases hk
  | nodeGetAttribute => cases hk
  | _ => decide +kernel

theorem attributeScene_reports (k : Kind)
    (hk : k = .nodeInitAttributes ∨ k = .nodeSetAttribute ∨ k = .nodeGetAttribute) :
    ∀ st ∈ k.statuses, (k.attributeScene st).kind = k ∧
      (alone (initialised 0 0 none)).reports (.attributes 0 (k.attributeScene st)) = some st := by
  rcases hk with rfl | rfl | rfl
  · decide
  · decide
  · decide

/-- In the scene of a success the call gives its command. -/
theorem scene_gives (k : Kind) :
    ∀ cmd ∈ k.cmds, (Scene.label (k.scene .success)).kind = some k ∧
      ((alone (k.scene .success).1.database).gives (Scene.label (k.scene .success))).map Command.cmd = [cmd] := by
  cases k with
  | unsupported f => exact fun cmd hcmd => (by cases hcmd)
  | _ => decide +kernel

/-- A function of the interface can report a status exactly if its table has it: in no run
    of any processes, with any driver, does it report another, and for each that is there
    is a run in which it does. -/
theorem reports_exactly (k : Kind) (st : Status) : CanReport k st ↔ st ∈ k.statuses := by
  constructor
  · intro h
    obtain ⟨s, l, hr, hk, hst⟩ := h
    exact reports_table hr hk hst
  · intro h
    cases hk : k.isCall with
    | true =>
      obtain ⟨hkind, hst⟩ := scene_reports k hk st h
      exact ⟨_, _, scene_reachable _, hkind, hst⟩
    | false =>
      have hattribute (ha : k = .nodeInitAttributes ∨ k = .nodeSetAttribute ∨ k = .nodeGetAttribute) :
          CanReport k st := by
        obtain ⟨hkind, hst⟩ := attributeScene_reports k ha st h
        exact ⟨_, .attributes 0 (k.attributeScene st), scene_reachable .fresh, congrArg some hkind, hst⟩
      cases k with
      | initialise =>
        simp only [Kind.statuses, List.mem_cons, List.not_mem_nil, or_false] at h
        rcases h with rfl | rfl
        · exact ⟨Sys.init, .sys (.initialise 0 0 0 none ⟨1, true⟩), .refl _, rfl, by decide⟩
        · exact ⟨Sys.init, .sys (.initialise 0 0 0 none ⟨-1, true⟩), .refl _, rfl, by decide⟩
      | unsupported f =>
        obtain rfl := List.mem_singleton.mp h
        exact ⟨Sys.init, .unsupported 0 f, .refl _, rfl, by cases f <;> rfl⟩
      | nodeInitAttributes => exact hattribute (.inl rfl)
      | nodeSetAttribute => exact hattribute (.inr (.inl rfl))
      | nodeGetAttribute => exact hattribute (.inr (.inr rfl))
      | _ => cases hk

/-- A step gives the driver one command at most, a function of the interface can give one
    exactly if its table has it, and nothing ever gives a CONNECT. -/
theorem commands_exactly :
    (∀ s l, Lts.Reachable PublicStep Sys.init s → (s.gives l).length ≤ 1) ∧
    (∀ k cmd, CanGive k cmd ↔ cmd ∈ k.cmds) ∧
    ∀ s l, Lts.Reachable PublicStep Sys.init s → ∀ c ∈ s.gives l, c.cmd ≠ .connect := by
  refine ⟨?_, ?_, ?_⟩
  · intro s l hr
    rcases gives_table hr l with h | ⟨c, k, h, -, -⟩
    · rw [h]; exact Nat.zero_le _
    · rw [h]; exact Nat.le_refl _
  · intro k cmd
    constructor
    · intro h
      obtain ⟨s, l, c, hr, hk, hc, rfl⟩ := h
      rcases gives_table hr l with h | ⟨c', k', h, hk', hmem⟩
      · rw [h] at hc; cases hc
      · rw [h] at hc
        obtain rfl := List.mem_singleton.mp hc
        cases hk.symm.trans hk'
        exact hmem
    · intro h
      obtain ⟨hk, hcmd⟩ := scene_gives k cmd h
      have hmem : cmd ∈ ((alone (k.scene .success).1.database).gives (Scene.label (k.scene .success))).map
          Command.cmd := by
        rw [hcmd]
        exact List.mem_singleton_self _
      obtain ⟨c, hc, hcc⟩ := List.mem_map.mp hmem
      exact ⟨_, _, c, scene_reachable _, hk, hc, hcc⟩
  · intro s l hr c hc
    rcases gives_table hr l with h | ⟨c', k, h, -, hmem⟩
    · rw [h] at hc; cases hc
    · rw [h] at hc
      obtain rfl := List.mem_singleton.mp hc
      intro he
      rw [he] at hmem
      cases k <;> simp [Kind.cmds] at hmem

end Mcapi
