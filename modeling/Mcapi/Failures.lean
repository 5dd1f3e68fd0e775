/-
  Mcapi.Failures — whether the channel operations report what the driver refuses
  (`mcapi_trans_pktchan_connect_i`, `mcapi_trans_sclchan_connect_i`,
  `mcapi_trans_pktchan_send`, `mcapi_trans_sclchan_send`).

  A connect works through a `void` helper and then stores `MCAPI_TRUE`, which is
  `MCAPI_SUCCESS`, in the caller's status: over the error the interface layer may have
  left there, and whether or not there was an endpoint and the driver connected it. The
  database is not wrong: the peer is noted only for a CONNECT that was taken. The packet
  send returns what its command did; the scalar send looks at it for a debug print only.

  So a packet send that returns always reports a failure, and of the others exactly the
  calls that have none to report (`failures_reported_iff`). A call whose lookup goes past
  the endpoint table, or whose node id past the nodes, does not return here: it is none
  that reports anything.
-/

import Mcapi.Connections
import Mcapi.Faults

namespace Mcapi

variable {E : Env} {w w' : World} {db db' : Database} {s r : U32} {t : ChannelType} {st : Status}

/-! ## The calls -/

inductive ChannelCall where
  | pktchanConnectI (sendEndpoint receiveEndpoint : U32)
  | sclchanConnectI (sendEndpoint receiveEndpoint : U32)
  | pktchanSend (sendHandle buffer size : U32)
  | sclchanSend (sendHandle : U32) (dataword : BitVec 64) (size : U32)
  deriving DecidableEq, Repr

/-- Whether a connect reports success. -/
def byStatus (m : Res (Status × World)) : Res (Bool × World) := do
  let (status, w) ← m
  .ok (status == .success, w)

/-- Whether a call reports success: by its status, or by what it returns. -/
def ChannelCall.exec (E : Env) (w : World) : ChannelCall → Res (Bool × World)
  | .pktchanConnectI s r => byStatus (transPktchanConnectI .std E w s r)
  | .sclchanConnectI s r => byStatus (transSclchanConnectI .std E w s r)
  | .pktchanSend h b n => transPktchanSend .std E w h b n
  | .sclchanSend h x n => transSclchanSend .std E w h x n

/-- Between the two worlds one command was given, and the driver accepted it. -/
def Accepted (cmd : Cmd) (w w' : World) : Prop :=
  ∃ c, commands w'.trace = commands w.trace ++ [c] ∧ c.cmd = cmd ∧ c.reply.ret = 0

/-- The caller had found no error, the send endpoint is there, and is connected. -/
def Connected (w : World) (status : Status) (s : U32) (w' : World) : Prop :=
  status = .success ∧ EndThere w.db s ∧ Accepted .connect w w'

/-- What success stands for; `status` is what the caller's status was. -/
def ChannelCall.Succeeded (w : World) (status : Status) : ChannelCall → World → Prop
  | .pktchanConnectI s _ => Connected w status s
  | .sclchanConnectI s _ => Connected w status s
  | .pktchanSend _ _ _ => Accepted .send w
  | .sclchanSend _ _ _ => Accepted .send w

/-- Whether an entry is connected, to what, and by which kind of channel. -/
def EndpointEntry.peer (e : EndpointEntry) : Bool × U32 × ChannelType :=
  (e.connected, e.recvQueue.recvEndpt, e.recvQueue.channelType)

/-- Every endpoint of every node has the peer it had. -/
def PeersKept (db db' : Database) : Prop :=
  ∀ d i k, (((db'.domains d).nodes i).endpoints k).peer = (((db.domains d).nodes i).endpoints k).peer

/-- The call returns, success is reported only for one, and otherwise no peer changes. -/
structure Truthful (w : World) (m : Res (Bool × World)) (Succeeded : World → Prop) : Prop where
  returns : ∃ x, m = .ok x
  success : ∀ w', m = .ok (true, w') → Succeeded w'
  failure : ∀ w', m = .ok (false, w') → PeersKept w.db w'.db

def ChannelCall.ReportsFailures (E : Env) (w : World) (status : Status) (c : ChannelCall) : Prop :=
  Truthful w (c.exec E w) (c.Succeeded w status)

/-- No error was found before, the endpoint is there, and the driver connects it. -/
def ConnectFine (E : Env) (w : World) (status : Status) (s r : U32) (t : ChannelType) : Prop :=
  status = .success ∧ ∃ k, lookup w.db s = .ok (some k) ∧ Connects E k r t

/-- The lookup stays in the table. -/
def PacketFine (w : World) (h : U32) : Prop := ¬ Overruns w.db (nodeOf h) (portOf h)

/-- There is no endpoint, or its node id is that of a node entry and the driver takes the
    scalar. -/
def ScalarFine (E : Env) (w : World) (h : U32) (dataword : BitVec 64) (size : U32) : Prop :=
  match lookup w.db h with
  | .error _ => False
  | .ok none => True
  | .ok (some k) => ∃ i, nodeSlot (transDecodeHandleInternal h).nodeId = .ok i ∧
    (E.drv .send (scalarPkt k (((w.db.domains 0).nodes i).endpoints k).recvQueue.recvEndpt dataword size)).ret = 0

def ChannelCall.Fine (E : Env) (w : World) (status : Status) : ChannelCall → Prop
  | .pktchanConnectI s r => ConnectFine E w status s r .pktChan
  | .sclchanConnectI s r => ConnectFine E w status s r .sclChan
  | .pktchanSend h _ _ => PacketFine w h
  | .sclchanSend h x n => ScalarFine E w h x n

/-! ## The connects -/

theorem PeersKept.of_domains (h : db'.domains = db.domains) : PeersKept db db' := by
  intro d i k
  rw [h]

/-- A connect that returns reports success. -/
theorem connect_eq_ok {rc : Bool} : byStatus (transChanConnectI .std E w s r t) = .ok (rc, w') ↔
    rc = true ∧ transConnectChannelInternal .std E w s r t = .ok w' := by
  constructor
  · intro h
    obtain ⟨x, hx, h⟩ := bind_eq_ok.mp h
    obtain ⟨w1, h1, hx⟩ := bind_eq_ok.mp hx
    cases hx
    cases h
    exact ⟨rfl, h1⟩
  · rintro ⟨rfl, h⟩
    exact bind_eq_ok.mpr ⟨_, bind_eq_ok.mpr ⟨w', h, rfl⟩, rfl⟩

theorem accepted_iff {cmd : Cmd} {p : SmPacket}
    (h : commands w'.trace = commands w.trace ++ [⟨cmd, p, E.drv cmd p⟩]) :
    Accepted cmd w w' ↔ (E.drv cmd p).ret = 0 := by
  constructor
  · intro hacc
    obtain ⟨c, hc, -, hret⟩ := hacc
    rw [h] at hc
    obtain rfl := List.singleton_inj.mp (List.append_cancel_left hc)
    exact hret
  · intro hret
    exact ⟨_, h, rfl, hret⟩

/-- The command of a connect is accepted exactly if the driver connects the session of
    its endpoint. -/
theorem accepted_connect_iff {k : Slot} {type : PacketType} (ht : t.packet = some type)
    (hl : lookup w.db s = .ok (some k)) (hx : transConnectChannelInternal .std E w s r t = .ok w') :
    Accepted .connect w w' ↔ Connects E k r t := by
  rw [connect_eq hl ht] at hx
  have hacc : Accepted .connect w w' ↔ (E.drv .connect (connectPkt k r type)).ret = 0 := by
    refine accepted_iff ?_
    split at hx
    · cases hx
      exact commands_ioctl_trace w _ _
    · cases hx
      exact commands_ioctl_trace w _ _
  rw [hacc]
  constructor
  · intro hret
    exact ⟨type, ht, hret⟩
  · intro hc
    obtain ⟨type', ht', hret⟩ := hc
    obtain rfl := Option.some.inj (ht.symm.trans ht')
    exact hret

theorem connect_truthful_iff (ht : t.packet.isSome = true) :
    Truthful w (byStatus (transChanConnectI .std E w s r t)) (Connected w st s) ↔ ConnectFine E w st s r t := by
  obtain ⟨type, htype⟩ := Option.isSome_iff_exists.mp ht
  constructor
  · intro h
    obtain ⟨⟨rc, w'⟩, hret⟩ := h.returns
    -- it never reports a failure
    obtain ⟨rfl, hx⟩ := connect_eq_ok.mp hret
    obtain ⟨hst, ⟨k, hk⟩, hacc⟩ := h.success w' hret
    exact ⟨hst, k, hk, (accepted_connect_iff htype hk hx).mp hacc⟩
  · intro h
    obtain ⟨hst, k, hk, hc⟩ := h
    obtain ⟨w', hx⟩ : ∃ w', transConnectChannelInternal .std E w s r t = .ok w' := by
      rw [connect_eq hk htype]
      split
      · exact ⟨_, rfl⟩
      · exact ⟨_, rfl⟩
    refine ⟨⟨_, connect_eq_ok.mpr ⟨rfl, hx⟩⟩, fun w1 h1 => ?_, fun w1 h1 => ?_⟩
    · exact ⟨hst, ⟨k, hk⟩, (accepted_connect_iff htype hk (connect_eq_ok.mp h1).2).mpr hc⟩
    · cases (connect_eq_ok.mp h1).1

/-! ## The sends -/

theorem accepted_send_iff {p : SmPacket} {b : Bool} :
    Accepted .send w (ioctl E (setBlocking w b) .send p).2 ↔ (E.drv .send p).ret = 0 :=
  accepted_iff (by rw [commands_ioctl_trace, commands_setBlocking])

/-- A packet send that returns, returns TRUE only for a SEND that was accepted. -/
theorem pktchanSend_truthful_iff {h b n : U32} :
    Truthful w (transPktchanSend .std E w h b n) (Accepted .send w) ↔ PacketFine w h := by
  have hfails : Outcome.Fails (transPktchanSend .std E w h b n) ↔ Overruns w.db (nodeOf h) (portOf h) := by
    unfold transPktchanSend pktchanSendCommand
    rw [Outcome.fails_bind_of, Outcome.fails_bind_of]
    · exact portIndex_fails
    · intro k _
      cases k <;> exact Outcome.not_fails_ok _
    · rintro ⟨o, w1⟩ _
      cases o <;> exact Outcome.not_fails_ok _
  rw [PacketFine, ← hfails, Outcome.not_fails_iff]
  constructor
  · exact Truthful.returns
  · intro hret
    refine ⟨hret, fun w' hx => ?_, fun w' hx => .of_domains (transPktchanSend_keeps E w h b n _ _ hx)⟩
    obtain ⟨⟨o, w1⟩, h1, hx⟩ := bind_eq_ok.mp hx
    obtain ⟨k, hk, h1⟩ := bind_eq_ok.mp h1
    cases k with
    | none =>
      cases h1
      cases hx
    | some k =>
      cases h1
      obtain ⟨hret, hw⟩ := Prod.mk.inj (Except.ok.inj hx)
      rw [← hw]
      exact accepted_send_iff.mpr (beq_iff_eq.mp hret)

theorem sclchanSend_absent {h : U32} {x : BitVec 64} {n : U32} (hl : lookup w.db h = .ok none) :
    transSclchanSend .std E w h x n = .ok (false, w) := by
  unfold lookup at hl
  simp only [transSclchanSend, assertDecode_std, hl, ok_bind]

/-- A scalar send that finds an endpoint returns TRUE. -/
theorem sclchanSend_truthful_iff {h : U32} {x : BitVec 64} {n : U32} :
    Truthful w (transSclchanSend .std E w h x n) (Accepted .send w) ↔ ScalarFine E w h x n := by
  have hkeeps (w' : World) (hx : transSclchanSend .std E w h x n = .ok (false, w')) : PeersKept w.db w'.db :=
    .of_domains (transSclchanSend_keeps E w h x n _ _ hx)
  unfold ScalarFine
  cases hl : lookup w.db h with
  | error f =>
    refine iff_of_false (fun ht => ?_) id
    obtain ⟨y, hy⟩ := ht.returns
    obtain ⟨k, hk, -⟩ := bind_eq_ok.mp hy
    cases hl.symm.trans hk
  | ok k =>
    cases k with
    | none =>
      have hx : transSclchanSend .std E w h x n = .ok (false, w) := sclchanSend_absent hl
      refine iff_of_true ⟨⟨_, hx⟩, fun w' hx' => ?_, hkeeps⟩ trivial
      cases hx.symm.trans hx'
    | some k =>
      constructor
      · intro ht
        obtain ⟨⟨rc, w'⟩, hy⟩ := ht.returns
        have hx := hy
        rw [sclchanSend_eq hl] at hx
        obtain ⟨i, hi, hx⟩ := bind_eq_ok.mp hx
        cases hx
        exact ⟨i, hi, accepted_send_iff.mp (ht.success _ hy)⟩
      · intro h
        obtain ⟨i, hi, hret⟩ := h
        have hx := sclchanSend_eq (E := E) hl x n
        rw [hi, ok_bind] at hx
        refine ⟨⟨_, hx⟩, fun w' hx' => ?_, hkeeps⟩
        cases hx.symm.trans hx'
        exact accepted_send_iff.mpr hret

/-! ## Which calls report their failures -/

/-- In any state, with any arguments, status on entry and driver, a channel call returns,
    reports success only for one and leaves every peer alone otherwise, exactly if it is
    fine. -/
theorem failures_reported_iff (E : Env) (w : World) (status : Status) (c : ChannelCall) :
    c.ReportsFailures E w status ↔ c.Fine E w status := by
  cases c with
  | pktchanConnectI s r => exact connect_truthful_iff rfl
  | sclchanConnectI s r => exact connect_truthful_iff rfl
  | pktchanSend h b n => exact pktchanSend_truthful_iff
  | sclchanSend h x n => exact sclchanSend_truthful_iff

/-- With one endpoint on node 0 and a driver that refuses everything, a scalar send
    returns TRUE. -/
theorem refused_scalar_reported_sent : ¬ ∀ db, Lts.Reachable (TransStep fun _ => 0) (initialised 0 0 none) db →
    ∀ E w status (c : ChannelCall), w.db = db → c.ReportsFailures E w status := by
  intro h
  have hsend : Truthful _ _ _ := h (fiveOn 0) (fiveOn_reachable rfl) notYet { db := fiveOn 0 } .success
    (.sclchanSend (endpointHandle 0 5) 7 4) rfl
  have hfine : ScalarFine notYet { db := fiveOn 0 } (endpointHandle 0 5) 7 4 := sclchanSend_truthful_iff.mp hsend
  obtain ⟨i, hi, hret⟩ := hfine
  cases hi
  exact absurd hret (by decide)

end Mcapi
