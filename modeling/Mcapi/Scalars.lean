/-
  Mcapi.Scalars — a scalar, from `mcapi_trans_sclchan_send` to
  `mcapi_trans_sclchan_recv`.

  A send cuts the word down to its width and into two 32-bit halves, which go into the
  packet's `buf` and `buf_len`: a word of up to 4 bytes whole in `buf`, one of 8 with the
  upper half there. A receive puts them together again by the width the driver reports.
  `value_words` says that this gives back the word modulo its width.

  The driver is assumed to take every SEND and to hand out, in order, what it took
  (`FifoDriver`). Over any run of sends and receives on the two ends of a channel, the
  `i`-th receive then returns the `i`-th scalar if it asks for its width, and FALSE
  otherwise (`scalars_survive`).
-/

import Mcapi.Channels
import Mcapi.Pool
import Mcapi.Lib.Fifo

namespace Mcapi

variable {E : Env} {w w' : World} {icc : PacketType → U32}

/-! ## The halves of a word -/

/-- The sizes a scalar can have. -/
def IsWidth (size : U32) : Prop := size = 1 ∨ size = 2 ∨ size = 4 ∨ size = 8

instance (size : U32) : Decidable (IsWidth size) := inferInstanceAs (Decidable (_ ∨ _))

/-- The width a ready type stands for. -/
def PacketType.width : PacketType → U32
  | .scalarReady8 => 1
  | .scalarReady16 => 2
  | .scalarReady32 => 4
  | .scalarReady64 => 8
  | _ => 0

theorem scalarReady_width {size : U32} (h : IsWidth size) : (scalarReady size).width = size := by
  rcases h with rfl | rfl | rfl | rfl
  · rfl
  · rfl
  · rfl
  · rfl

/-- The low bits of a word, through 32 bits and back. -/
theorem low_word (word : BitVec 64) {mask : BitVec 64} {n : Nat} (hn : n ≤ 32) (hm : mask.toNat = 2 ^ n - 1) :
    (((word &&& mask).setWidth 32).setWidth 64).toNat = word.toNat % 2 ^ n := by
  have hlow : (word &&& mask).toNat = word.toNat % 2 ^ n := by
    rw [BitVec.toNat_and, hm, Nat.and_two_pow_sub_one_eq_mod]
  have hlt : word.toNat % 2 ^ n < 2 ^ 32 :=
    Nat.lt_of_lt_of_le (Nat.mod_lt _ (Nat.two_pow_pos n)) (Nat.pow_le_pow_right (by decide) hn)
  rw [BitVec.toNat_setWidth, BitVec.toNat_setWidth, hlow, Nat.mod_eq_of_lt hlt]
  exact Nat.mod_eq_of_lt (Nat.lt_trans hlt (by decide))

/-- Both halves together are the word. -/
theorem joined_halves (word : BitVec 64) :
    ((((word >>> 32) &&& 0xffffffff).setWidth 32).setWidth 64 <<< 32) |||
      ((word &&& 0xffffffff).setWidth 32).setWidth 64 = word := by
  apply BitVec.eq_of_getLsbD_eq
  intro i hi
  have hmask : ∀ j (hj : j < 64), j < 32 → (0xffffffff : BitVec 64)[j] = true := by decide
  by_cases h : i < 32
  · simpa [h, hi] using fun _ => hmask i hi h
  · have hj : i - 32 < 32 := by omega
    have hji : 32 + (i - 32) = i := by omega
    simpa [h, hi, hj, hji] using fun _ => hmask (i - 32) (by omega) hj

/-- A word, modulo its width. -/
def cutTo (word : BitVec 64) (width : U32) : BitVec 64 := BitVec.ofNat 64 (word.toNat % 2 ^ (8 * width.toNat))

theorem cutTo_toNat (word : BitVec 64) (width : U32) :
    (cutTo word width).toNat = word.toNat % 2 ^ (8 * width.toNat) := by
  rw [cutTo, BitVec.toNat_ofNat]
  exact Nat.mod_eq_of_lt (Nat.lt_of_le_of_lt (Nat.mod_le _ _) word.isLt)

/-- What a receive puts together from the words of a send. -/
theorem value_words (word : BitVec 64) {size : U32} (h : IsWidth size) :
    scalarValue (scalarWords word size).1 (scalarWords word size).2 size = some (cutTo word size) := by
  have hof (v : BitVec 64) (hv : v.toNat = word.toNat % 2 ^ (8 * size.toNat)) : some v = some (cutTo word size) := by
    refine congrArg some (BitVec.eq_of_toNat_eq ?_)
    rw [hv, cutTo_toNat]
  rcases h with rfl | rfl | rfl | rfl
  · exact hof _ (low_word word (n := 8) (by decide) rfl)
  · exact hof _ (low_word word (n := 16) (by decide) rfl)
  · exact hof _ (low_word word (n := 32) (by decide) rfl)
  · exact hof _ ((congrArg BitVec.toNat (joined_halves word)).trans (Nat.mod_eq_of_lt word.isLt).symm)

/-! ## One send and one receive -/

/-- A scalar in the driver: its two words, and the width its type stands for. -/
structure Scalar where
  buf : U32
  bufLen : U32
  width : U32
  deriving DecidableEq, Repr

/-- What a send of this word puts into the driver. -/
def scalarOf (word : BitVec 64) (size : U32) : Scalar := ⟨(scalarWords word size).1, (scalarWords word size).2, size⟩

/-- The scalar a command brings to the driver. -/
def Command.scalar (c : Command) : Option Scalar :=
  match c.cmd with
  | .send => some ⟨c.pkt.buf, c.pkt.bufLen, c.pkt.type.width⟩
  | _ => none

/-- The driver takes every SEND. -/
def Accepts (E : Env) : Prop := ∀ p, (E.drv .send p).ret = 0

/-- The driver answers a RECV with the words of `m`, and its width as the type. -/
structure HandsOver (E : Env) (m : Scalar) : Prop where
  ret : ∀ p, (E.drv .recv p).ret = 0
  buf : ∀ p, (E.drv .recv p).pkt.buf = m.buf
  bufLen : ∀ p, (E.drv .recv p).pkt.bufLen = m.bufLen
  type : ∀ p, (E.drv .recv p).pkt.type = .number m.width

/-- The end of a channel is there. -/
def EndThere (db : Database) (handle : U32) : Prop := ∃ k, lookup db handle = .ok (some k)

/-- The packet of a scalar. -/
def scalarPkt (k : Slot) (receiveEndpoint : U32) (word : BitVec 64) (size : U32) : SmPacket :=
  { sessionIdx := sessionOf k
    remoteEp := (transDecodeHandleInternal receiveEndpoint).portId.setWidth 32
    dstCpu := (transDecodeHandleInternal receiveEndpoint).nodeId.setWidth 32
    buf := (scalarWords word size).1
    bufLen := (scalarWords word size).2
    type := scalarReady size }

/-- A send whose endpoint is there reads the peer from the entry of its node number. -/
theorem sclchanSend_eq {h : U32} {k : Slot} (hk : lookup w.db h = .ok (some k)) (word : BitVec 64) (size : U32) :
    transSclchanSend .std E w h word size = (do
      let i ← nodeSlot (transDecodeHandleInternal h).nodeId
      let p := scalarPkt k (((w.db.domains 0).nodes i).endpoints k).recvQueue.recvEndpt word size
      .ok (true, (ioctl E (setBlocking w true) .send p).2)) := by
  unfold lookup at hk
  simp only [transSclchanSend, assertDecode_std, hk, ok_bind]
  rfl

/-- A send that returns TRUE has given the driver its scalar. -/
theorem sclchanSend_gives {h : U32} {word : BitVec 64} {size : U32} (hw : IsWidth size)
    (hs : transSclchanSend .std E w h word size = .ok (true, w')) :
    ∃ c, c.scalar = some (scalarOf word size) ∧ commands w'.trace = commands w.trace ++ [c] := by
  have hfound := hs
  obtain ⟨k, hk, hfound⟩ := bind_eq_ok.mp hfound
  cases k with
  | none => cases hfound
  | some k =>
    rw [sclchanSend_eq hk] at hs
    obtain ⟨i, -, hs⟩ := bind_eq_ok.mp hs
    cases hs
    refine ⟨_, ?_, by rw [commands_ioctl_trace, commands_setBlocking]⟩
    simp only [Command.scalar, scalarPkt, scalarReady_width hw]
    rfl

/-- It does return, with the node entry its handle names inside the array. -/
theorem sclchanSend_returns {h : U32} (hend : EndThere w.db h)
    (hnode : (transDecodeHandleInternal h).nodeId.toNat < maxNodes) (word : BitVec 64) (size : U32) :
    ∃ w', transSclchanSend .std E w h word size = .ok (true, w') := by
  obtain ⟨k, hk⟩ := hend
  rw [sclchanSend_eq hk, nodeSlot, dif_pos hnode]
  exact ⟨_, rfl⟩

/-- A receive returns the word it was handed, and TRUE if it asked for its width. -/
theorem sclchanRecv_spec {h : U32} (hend : EndThere w.db h) {word : BitVec 64} {width : U32} (hw : IsWidth width)
    (hm : HandsOver E (scalarOf word width)) (data : BitVec 64) (size : U32) :
    ∃ w', transSclchanRecv .std E icc w h data size = .ok ((size == width, cutTo word width), w') := by
  obtain ⟨k, hk⟩ := hend
  unfold lookup at hk
  simp only [transSclchanRecv, assertDecode_std, hk, ok_bind, smRecvScalar, ioctl_reply, hm.ret, ne_eq,
    not_true_eq_false, if_false, hm.buf, hm.bufLen, hm.type, PacketType.word]
  simp only [scalarOf, value_words word hw]
  exact ⟨_, rfl⟩

/-! ## The channel -/

/-- A receive that has returned: the scalar the driver handed over for it, the size asked
    for, and what it returned. -/
structure Receipt where
  scalar : Scalar
  size : U32
  rc : Bool
  data : BitVec 64
  deriving DecidableEq, Repr

inductive ScalarOp where
  | send (dataword : BitVec 64) (size : U32)
  | recv (r : Receipt)
  deriving DecidableEq, Repr

def ScalarOp.sent : ScalarOp → Option (BitVec 64 × U32)
  | .send word size => some (word, size)
  | .recv _ => none

def ScalarOp.received : ScalarOp → Option Receipt
  | .send _ _ => none
  | .recv r => some r

/-- Calls on the two ends of a channel, in any worlds where the ends are there; the state
    is what the driver holds. It takes every scalar sent, and hands the first one over. -/
inductive ScalarStep (icc : PacketType → U32) (sendHandle recvHandle : U32) :
    List Scalar → ScalarOp → List Scalar → Prop
  | send (E : Env) (w w' : World) (cs : List Command) (q : List Scalar) (word : BitVec 64) (size : U32) :
      IsWidth size → Accepts E → transSclchanSend .std E w sendHandle word size = .ok (true, w') →
      commands w'.trace = commands w.trace ++ cs →
      ScalarStep icc sendHandle recvHandle q (.send word size) (q ++ cs.filterMap Command.scalar)
  | recv (E : Env) (w w' : World) (data : BitVec 64) (q : List Scalar) (r : Receipt) :
      EndThere w.db recvHandle → HandsOver E r.scalar →
      transSclchanRecv .std E icc w recvHandle data r.size = .ok ((r.rc, r.data), w') →
      ScalarStep icc sendHandle recvHandle (r.scalar :: q) (.recv r) q

/-- What an operation puts into the driver and takes out. -/
def ScalarOp.puts (l : ScalarOp) : List Scalar := (l.sent.map fun s => scalarOf s.1 s.2).toList
def ScalarOp.takes (l : ScalarOp) : List Scalar := (l.received.map Receipt.scalar).toList

variable {sh rh : U32}

theorem ScalarStep.moves {q q' : List Scalar} {l : ScalarOp} (h : ScalarStep icc sh rh q l q') :
    Fifo.Moves ScalarOp.puts ScalarOp.takes q l q' := by
  cases h with
  | send E w w' cs _ word size hw _ hs hcs =>
    obtain ⟨c, hc, hcommands⟩ := sclchanSend_gives hw hs
    obtain rfl := List.append_cancel_left (hcommands.symm.trans hcs)
    have hputs : [c].filterMap Command.scalar = ScalarOp.puts (.send word size) := by
      simp [hc, ScalarOp.puts, ScalarOp.sent]
    rw [hputs]
    exact .put rfl
  | recv => exact .take rfl rfl

theorem flatMap_option {A B C : Type} (f : A → Option B) (g : B → C) (l : List A) :
    (l.flatMap fun a => ((f a).map g).toList) = (l.filterMap f).map g := by
  induction l with
  | nil => rfl
  | cons a l ih =>
    rw [List.flatMap_cons, ih]
    cases h : f a with
    | none => simp [h]
    | some b => simp [h]

/-- Every send of a run is of a width, and every receive does what it should with the
    scalar it is handed. -/
theorem run_ops {ls : List ScalarOp} {q q' : List Scalar} (h : Lts.Run (ScalarStep icc sh rh) q ls q') :
    (∀ s ∈ ls.filterMap ScalarOp.sent, IsWidth s.2) ∧
    ∀ r ∈ ls.filterMap ScalarOp.received, ∃ E w w' data, EndThere w.db rh ∧ HandsOver E r.scalar ∧
      transSclchanRecv .std E icc w rh data r.size = .ok ((r.rc, r.data), w') := by
  induction h with
  | nil => simp
  | cons hs _ ih =>
    obtain ⟨hsent, hrecv⟩ := ih
    cases hs with
    | send E w w' cs _ word size hw =>
      refine ⟨?_, hrecv⟩
      intro s hs
      rcases List.mem_cons.mp hs with rfl | hs
      · exact hw
      · exact hsent s hs
    | recv E w w' data _ r hend hm hr =>
      refine ⟨hsent, ?_⟩
      intro r' hr'
      rcases List.mem_cons.mp hr' with rfl | hr'
      · exact ⟨E, w, w', data, hend, hm, hr⟩
      · exact hrecv r' hr'

/-- The `i`-th receive of a run is of the `i`-th scalar sent: it returns TRUE if and only
    if it asked for its width, and then the word modulo that width. -/
theorem scalars_survive {ls : List ScalarOp} {q : List Scalar} (h : Lts.Run (ScalarStep icc sh rh) [] ls q) {i : Nat}
    {r : Receipt} (hr : (ls.filterMap ScalarOp.received)[i]? = some r) :
    ∃ word width, (ls.filterMap ScalarOp.sent)[i]? = some (word, width) ∧ (r.rc = true ↔ r.size = width) ∧
      (r.rc = true → r.data.toNat = word.toNat % 2 ^ (8 * width.toNat)) := by
  have htaken : (ls.flatMap ScalarOp.takes)[i]? = some r.scalar := by
    have hflat : ls.flatMap ScalarOp.takes = (ls.filterMap ScalarOp.received).map Receipt.scalar :=
      flatMap_option ScalarOp.received Receipt.scalar ls
    rw [hflat, List.getElem?_map, hr]
    rfl
  have hput := Fifo.taken_is_put (h.mono ScalarStep.moves) htaken
  have hflat : ls.flatMap ScalarOp.puts = (ls.filterMap ScalarOp.sent).map fun s => scalarOf s.1 s.2 :=
    flatMap_option ScalarOp.sent _ ls
  rw [hflat, List.getElem?_map, Option.map_eq_some_iff] at hput
  obtain ⟨⟨word, width⟩, hsent, hscalar⟩ := hput
  obtain ⟨hwidths, hreceipts⟩ := run_ops h
  have hw : IsWidth width := hwidths _ (List.mem_of_getElem? hsent)
  obtain ⟨E, w, w', data, hend, hm, hres⟩ := hreceipts r (List.mem_of_getElem? hr)
  rw [← hscalar] at hm
  obtain ⟨w1, hspec⟩ := sclchanRecv_spec hend hw hm data r.size
  have heq := hspec.symm.trans hres
  simp only [Except.ok.injEq, Prod.mk.injEq] at heq
  obtain ⟨⟨hrc, hdata⟩, -⟩ := heq
  refine ⟨word, width, hsent, ?_, ?_⟩
  · rw [← hrc, beq_iff_eq]
  · intro _
    rw [← hdata]
    exact cutTo_toNat word width

/-! ## There are such runs -/

/-- A driver that hands over `m`. -/
def handsOver (m : Scalar) : Env :=
  { drv := fun _ _ => ⟨0, 0, { buf := m.buf, bufLen := m.bufLen, type := .number m.width }, {}⟩ }

theorem handsOver_spec (m : Scalar) : HandsOver (handsOver m) m :=
  ⟨fun _ => rfl, fun _ => rfl, fun _ => rfl, fun _ => rfl⟩

/-- The receipt of a receive of this size, for a scalar sent. -/
def receiptOf (s : BitVec 64 × U32) (size : U32) : Receipt := ⟨scalarOf s.1 s.2, size, size == s.2, cutTo s.1 s.2⟩

theorem send_step {db : Database} (hend : EndThere db sh)
    (hnode : (transDecodeHandleInternal sh).nodeId.toNat < maxNodes) (q : List Scalar) {word : BitVec 64} {size : U32}
    (hw : IsWidth size) : ScalarStep icc sh rh q (.send word size) (q ++ [scalarOf word size]) := by
  obtain ⟨w', hs⟩ : ∃ w', transSclchanSend .std willing { db := db } sh word size = .ok (true, w') :=
    sclchanSend_returns hend hnode word size
  obtain ⟨c, hc, hcommands⟩ := sclchanSend_gives hw hs
  have hstep : ScalarStep icc sh rh q (.send word size) (q ++ [c].filterMap Command.scalar) :=
    .send willing { db := db } w' [c] q word size hw (fun _ => rfl) hs hcommands
  simpa [hc] using hstep

theorem recv_step {db : Database} (hend : EndThere db rh) (q : List Scalar) {s : BitVec 64 × U32} (hw : IsWidth s.2)
    (size : U32) : ScalarStep icc sh rh (scalarOf s.1 s.2 :: q) (.recv (receiptOf s size)) q := by
  obtain ⟨w', hr⟩ : ∃ w', transSclchanRecv .std (handsOver (scalarOf s.1 s.2)) icc { db := db } rh 0 size =
      .ok ((size == s.2, cutTo s.1 s.2), w') :=
    sclchanRecv_spec hend hw (handsOver_spec (scalarOf s.1 s.2)) 0 size
  exact .recv (handsOver (scalarOf s.1 s.2)) _ w' 0 q (receiptOf s size) hend (handsOver_spec _) hr

/-- Any scalars can be sent, and then as many receives made of any sizes. -/
theorem sends_then_receives {db db' : Database} (hsend : EndThere db sh)
    (hnode : (transDecodeHandleInternal sh).nodeId.toNat < maxNodes) (hrecv : EndThere db' rh)
    (ss : List (BitVec 64 × U32)) (hw : ∀ s ∈ ss, IsWidth s.2) (sizes : List U32) (hlen : ss.length = sizes.length) :
    Lts.Run (ScalarStep icc sh rh) []
      (ss.map (fun s => .send s.1 s.2) ++ (ss.zipWith receiptOf sizes).map .recv) [] := by
  have hsends : ∀ (q : List Scalar) (ss : List (BitVec 64 × U32)), (∀ s ∈ ss, IsWidth s.2) →
      Lts.Run (ScalarStep icc sh rh) q (ss.map fun s => .send s.1 s.2) (q ++ ss.map fun s => scalarOf s.1 s.2) := by
    intro q ss
    induction ss generalizing q with
    | nil =>
      intro _
      simpa using Lts.Run.nil q
    | cons s ss ih =>
      intro hw
      have hrest := ih (q ++ [scalarOf s.1 s.2]) fun t ht => hw t (List.mem_cons_of_mem s ht)
      rw [List.append_assoc] at hrest
      exact .cons (send_step hsend hnode q (hw s List.mem_cons_self)) hrest
  refine (hsends [] ss hw).append ?_
  rw [List.nil_append]
  induction ss generalizing sizes with
  | nil => exact .nil []
  | cons s ss ih =>
    cases sizes with
    | nil => cases hlen
    | cons size sizes =>
      refine .cons (recv_step hrecv _ (hw s List.mem_cons_self) size) ?_
      exact ih (fun t ht => hw t (List.mem_cons_of_mem s ht)) sizes (Nat.succ.inj hlen)

theorem onePort_end : EndThere onePort (endpointHandle 0 5) := ⟨1, rfl⟩

/-- Two scalars sent, and one received with a width that is not its own. -/
theorem second_scalar_mismatched :
    ∃ word width, [((0x1234 : BitVec 64), (2 : U32)), (0xABCDEF0123456789, 8)][1]? = some (word, width) ∧
      ((receiptOf (0xABCDEF0123456789, 8) 4).rc = true ↔ (4 : U32) = width) ∧
      ((receiptOf (0xABCDEF0123456789, 8) 4).rc = true →
        (receiptOf (0xABCDEF0123456789, 8) 4).data.toNat = word.toNat % 2 ^ (8 * width.toNat)) := by
  have hrun : Lts.Run (ScalarStep (fun _ => 0) (endpointHandle 0 5) (endpointHandle 0 5)) []
      ([(0x1234, 2), (0xABCDEF0123456789, 8)].map (fun s => .send s.1 s.2) ++
        ([(0x1234, 2), (0xABCDEF0123456789, 8)].zipWith receiptOf [2, 4]).map .recv) [] := by
    refine sends_then_receives onePort_end (by decide) onePort_end _ ?_ _ rfl
    exact List.forall_mem_cons.mpr ⟨.inr (.inl rfl), List.forall_mem_singleton.mpr (.inr (.inr (.inr rfl)))⟩
  exact scalars_survive (i := 1) hrun rfl

end Mcapi
