/-
  Mcapi.Flags — what switching the blocking mode does to the other flags of the descriptor.

  Six calls set `O_NONBLOCK` before their `ioctl`: they read the status flags with
  `F_GETFL`, change one bit and write the word back. The word they write is not the one
  they read: `flags` holds the result of the comparison, 1, so `F_SETFL` gets 1 or 0x801
  (`modeFlags`) whatever the flags were, and every flag it can change other than
  `O_NONBLOCK` is cleared.

  So a run of these calls touches only `O_NONBLOCK` exactly when no call of it gets as far
  as its `F_SETFL`, or when the flags were those of the word written, `O_WRONLY` and
  nothing else (`only_nonblock_iff`). The device is opened with `O_RDWR`; there the mode is
  right after every run, and what is lost is every other changeable flag
  (`read_write_flags`).
-/

import Mcapi.Channels
import Mcapi.Issue
import Mcapi.Modes

namespace Mcapi

variable (icc : PacketType → U32)

/-! ## The calls -/

/-- A call that sets the mode of its command, scalars included. -/
inductive SmCall where
  | mode (m : ModeCall)
  | sendScalar (sessionIdx : U32) (dstEp dstCpu : U16) (scalar0 scalar1 size : U32) (blocking : Bool)
  | recvScalar (sessionIdx scalar0 scalar1 size : U32) (blocking : Bool)
  deriving DecidableEq, Repr

def SmCall.blocking : SmCall → Bool
  | .mode m => m.blocking
  | .sendScalar _ _ _ _ _ _ b => b
  | .recvScalar _ _ _ _ b => b

/-- Whether the call reaches its `fcntl`s: a packet receive without a buffer does not. -/
def SmCall.asks : SmCall → Bool
  | .mode m => m.command.isSome
  | _ => true

def SmCall.world (E : Env) (w : World) : SmCall → World
  | .mode m => m.world E w
  | .sendScalar k e c s0 s1 n b => (smSendScalar E w k e c s0 s1 n b).2
  | .recvScalar k s0 s1 n b => (smRecvScalar E icc w k s0 s1 n b).2

/-- A call, and what the driver answers it. -/
structure SmLabel where
  env : Env
  call : SmCall

def SmStep (w : World) (l : SmLabel) (w' : World) : Prop := w' = l.call.world icc l.env w

/-! ## The words passed to `F_SETFL` -/

def Event.setflWord : Event → Option U32
  | .setfl flags => some flags
  | _ => none

def setWords (trace : List Event) : List U32 := trace.filterMap Event.setflWord

/-- Those of one call: what it adds to the trace. -/
def SmCall.words (E : Env) (w : World) (c : SmCall) : List U32 :=
  (setWords (c.world icc E w).trace).drop (setWords w.trace).length

/-- The flags `F_GETFL` returned, with the one bit changed. -/
def wanted (blocking : Bool) (fl : U32) : U32 := if blocking then fl &&& ~~~oNonblock else fl ||| oNonblock

/-- The word written is this one for the result of the comparison. -/
theorem modeFlags_eq (b : Bool) : modeFlags b = wanted b 1 := rfl

/-- The modes a run asks for, in order. -/
def SmLabel.asked (l : SmLabel) : List Bool := if l.call.asks then [l.call.blocking] else []

/-- Each word written is the word read with only `O_NONBLOCK` changed; over the run the
    other flags keep their value, and `O_NONBLOCK` is the one asked for last. -/
structure OnlyNonblock (w : World) (ls : List SmLabel) (w' : World) : Prop where
  words : ∀ l v, Lts.Turn (SmStep icc) w ls l v → ∀ x ∈ l.call.words icc l.env v, x = wanted l.call.blocking v.fl
  others : w'.fl &&& ~~~oNonblock = w.fl &&& ~~~oNonblock
  last : ∀ b, (ls.flatMap SmLabel.asked).getLast? = some b → (Nonblocking w'.fl ↔ b = false)

/-! ## One call -/

/-- A call that asks for a mode sets it and gives its command. -/
theorem asking_world (E : Env) (w : World) {c : SmCall} (h : c.asks = true) :
    ∃ cmd p, c.world icc E w = (ioctl E (setBlocking w c.blocking) cmd p).2 := by
  cases c with
  | mode m =>
    obtain ⟨⟨cmd, p⟩, hc⟩ := Option.isSome_iff_exists.mp h
    exact ⟨cmd, p, world_eq E w hc⟩
  | sendScalar k e c s0 s1 n b => exact ⟨_, _, rfl⟩
  | recvScalar k s0 s1 n b =>
    refine ⟨.recv, { sessionIdx := k, type := .scalarReady64 }, ?_⟩
    simp only [SmCall.world, SmCall.blocking, smRecvScalar]
    split <;> rfl

/-- One that asks for none leaves everything. -/
theorem quiet_world (E : Env) (w : World) {c : SmCall} (h : c.asks = false) : c.world icc E w = w := by
  cases c with
  | mode m =>
    cases m with
    | recvPacket k p n b =>
      have hp : p = 0 := by simpa [SmCall.asks, ModeCall.command] using h
      subst hp
      rfl
    | sendPacket k e c p n b => cases h
    | getRemoteEp e c t b => cases h
    | waitNonblocking k e c p n y m t b => cases h
  | sendScalar k e c s0 s1 n b => cases h
  | recvScalar k s0 s1 n b => cases h

theorem asking_fl (E : Env) {w : World} {c : SmCall} (h : c.asks = true) (hpos : 0 < w.fl.toInt) :
    (c.world icc E w).fl = setFlags w.fl (modeFlags c.blocking) := by
  obtain ⟨cmd, p, hw⟩ := asking_world icc E w h
  rw [hw]
  show (setBlocking w c.blocking).fl = _
  rw [setBlocking_fl, if_pos hpos]

theorem asking_words (E : Env) {w : World} {c : SmCall} (h : c.asks = true) (hpos : 0 < w.fl.toInt) :
    c.words icc E w = [modeFlags c.blocking] := by
  obtain ⟨cmd, p, hw⟩ := asking_world icc E w h
  have ht : (c.world icc E w).trace = w.trace ++ [.setfl (modeFlags c.blocking), .ioctl cmd p (E.drv cmd p)] := by
    rw [hw]
    simp [ioctl, setBlocking, if_pos hpos, modeFlags]
  simp [SmCall.words, ht, setWords, Event.setflWord]

theorem quiet_words (E : Env) (w : World) {c : SmCall} (h : c.asks = false) : c.words icc E w = [] := by
  simp [SmCall.words, quiet_world icc E w h]

/-! ## Runs -/

variable {icc}

/-- A run in which no call asks for a mode leaves the world as it is. -/
theorem quiet_run {w w' : World} {ls : List SmLabel} (h : Lts.Run (SmStep icc) w ls w')
    (hq : ∀ l ∈ ls, l.call.asks = false) : w' = w := by
  refine h.keeps (I := fun v => v = w) ?_ rfl
  intro s l t hl hs hst
  cases hst
  rw [quiet_world icc l.env s (hq l hl)]
  exact hs

/-- Up to the first call that asks, if there is one, a run is quiet. -/
theorem first_asking (ls : List SmLabel) : (∀ l ∈ ls, l.call.asks = false) ∨
    ∃ pre l post, ls = pre ++ l :: post ∧ (∀ l' ∈ pre, l'.call.asks = false) ∧ l.call.asks = true := by
  cases hf : ls.find? (fun l => l.call.asks) with
  | none => exact .inl (by simpa using hf)
  | some l =>
    obtain ⟨hl, pre, post, hls, hpre⟩ := List.find?_eq_some_iff_append.mp hf
    exact .inr ⟨pre, l, post, hls, by simpa using hpre, hl⟩

theorem wanted_others (b : Bool) (fl : U32) : wanted b fl &&& ~~~oNonblock = fl &&& ~~~oNonblock := by
  cases b with
  | false =>
    ext i
    simp only [wanted, Bool.false_eq_true, if_false, BitVec.getElem_and, BitVec.getElem_or, BitVec.getElem_not]
    cases fl[i] <;> cases oNonblock[i] <;> rfl
  | true => simp [wanted, BitVec.and_assoc]

/-- The word written is the one wanted for two values of the flags only. -/
theorem write_only_of_wanted {b : Bool} {fl : U32} (h : modeFlags b = wanted b fl) : fl &&& ~~~oNonblock = 1 := by
  rw [← wanted_others b fl, ← h, modeFlags_eq, wanted_others]
  rfl

/-- `O_WRONLY`, with or without `O_NONBLOCK`. -/
theorem write_only_cases {fl : U32} (h : fl &&& ~~~oNonblock = 1) : fl = 1 ∨ fl = 1 ||| oNonblock := by
  have hfl : fl = (fl &&& ~~~oNonblock) ||| (fl &&& oNonblock) := by
    ext i
    simp only [BitVec.getElem_and, BitVec.getElem_or, BitVec.getElem_not]
    cases fl[i] <;> cases oNonblock[i] <;> rfl
  rw [h] at hfl
  have ho : oNonblock = BitVec.twoPow 32 11 := by decide
  rw [ho, BitVec.and_twoPow] at hfl
  split at hfl
  · exact .inr hfl
  · exact .inl hfl

/-- With those flags the word written is the one wanted. -/
theorem write_only_wanted {fl : U32} (h : fl &&& ~~~oNonblock = 1) (b : Bool) : modeFlags b = wanted b fl := by
  rcases write_only_cases h with rfl | rfl
  · cases b <;> decide
  · cases b <;> decide

/-! ## What a run leaves -/

/-- Flags that are positive as an `int`, and that the calls keep. -/
structure StaysPositive (P : U32 → Prop) : Prop where
  pos : ∀ fl, P fl → 0 < fl.toInt
  set : ∀ fl b, P fl → P (setFlags fl (modeFlags b))

theorem write_only_stays : StaysPositive fun fl => fl &&& ~~~oNonblock = 1 := by
  refine ⟨?_, ?_⟩
  · intro fl h
    rcases write_only_cases h with rfl | rfl <;> decide
  · intro fl b h
    rcases write_only_cases h with rfl | rfl
    · cases b <;> decide
    · cases b <;> decide

theorem read_write_stays : StaysPositive ReadWrite := ⟨fun _ h => h.pos, fun _ b h => h.setFlags (modeFlags b)⟩

/-- The flags after the `F_SETFL`s of a run, of which only the last matters. -/
def lastSet (fl : U32) : Option Bool → U32
  | none => fl
  | some b => setFlags fl (modeFlags b)

theorem setFlags_setFlags (fl x y : U32) : setFlags (setFlags fl x) y = setFlags fl y := by
  ext i
  simp only [setFlags, BitVec.getElem_and, BitVec.getElem_or, BitVec.getElem_not]
  cases setflMask[i] <;> simp

theorem setFlags_lastSet (fl x : U32) (o : Option Bool) : setFlags (lastSet fl o) x = setFlags fl x := by
  cases o with
  | none => rfl
  | some b => exact setFlags_setFlags fl (modeFlags b) x

theorem run_flags {P : U32 → Prop} (hP : StaysPositive P) {w w' : World} {ls : List SmLabel}
    (h : Lts.Run (SmStep icc) w ls w') (h0 : P w.fl) :
    w'.fl = lastSet w.fl (ls.flatMap SmLabel.asked).getLast? ∧ P w'.fl := by
  have hstart : w.fl = lastSet w.fl ([] : List Bool).getLast? ∧ P w.fl := ⟨rfl, h0⟩
  refine h.accumulates (R := fun v asked => v.fl = lastSet w.fl asked.getLast? ∧ P v.fl) ?_ hstart
  rintro v l v' asked - ⟨hv, hPv⟩ hs
  cases hs
  cases hl : l.call.asks with
  | true =>
    rw [asking_fl icc l.env hl (hP.pos _ hPv)]
    refine ⟨?_, hP.set _ _ hPv⟩
    rw [hv, setFlags_lastSet]
    simp [SmLabel.asked, hl, lastSet]
  | false =>
    rw [quiet_world icc l.env v hl]
    simpa [SmLabel.asked, hl] using And.intro hv hPv

/-- Apart from `O_NONBLOCK`, only what `F_SETFL` cannot change is left. -/
theorem setFlags_others (fl : U32) (b : Bool) :
    setFlags fl (modeFlags b) &&& ~~~oNonblock = fl &&& ~~~setflMask := by
  have hmode : modeFlags b &&& setflMask &&& ~~~oNonblock = 0 := by cases b <;> decide
  have hmask : ~~~setflMask &&& ~~~oNonblock = ~~~setflMask := by decide
  calc setFlags fl (modeFlags b) &&& ~~~oNonblock
      = fl &&& (~~~setflMask &&& ~~~oNonblock) ||| modeFlags b &&& setflMask &&& ~~~oNonblock := by
        rw [setFlags, BitVec.and_or_distrib_right, BitVec.and_assoc]
    _ = fl &&& ~~~setflMask := by rw [hmode, hmask]; simp

/-- Then the mode is the one asked for last. -/
theorem lastSet_mode {fl : U32} {asked : List Bool} {b : Bool} (h : asked.getLast? = some b) :
    Nonblocking (lastSet fl asked.getLast?) ↔ b = false := by
  rw [h]
  exact setFlags_mode fl b

/-- On the device as it is opened, a run leaves the mode asked for last, and of the other
    flags, once a mode has been asked for, only those that `F_SETFL` cannot change. -/
theorem read_write_flags {w w' : World} {ls : List SmLabel} (h : Lts.Run (SmStep icc) w ls w')
    (hw : ReadWrite w.fl) :
    (∀ b, (ls.flatMap SmLabel.asked).getLast? = some b → (Nonblocking w'.fl ↔ b = false)) ∧
      w'.fl &&& ~~~oNonblock =
        if ls.flatMap SmLabel.asked = [] then w.fl &&& ~~~oNonblock else w.fl &&& ~~~setflMask := by
  obtain ⟨hfl, -⟩ := run_flags read_write_stays h hw
  rw [hfl]
  refine ⟨fun b hb => lastSet_mode hb, ?_⟩
  cases hlast : (ls.flatMap SmLabel.asked).getLast? with
  | none => rw [if_pos (List.getLast?_eq_none_iff.mp hlast), lastSet]
  | some b =>
    have hne : ls.flatMap SmLabel.asked ≠ [] := by
      intro h0
      rw [h0] at hlast
      cases hlast
    rw [if_neg hne, lastSet, setFlags_others]

/-! ## Which runs touch only `O_NONBLOCK` -/

theorem quiet_only_nonblock {w w' : World} {ls : List SmLabel} (h : Lts.Run (SmStep icc) w ls w')
    (hq : ∀ l ∈ ls, l.call.asks = false) : OnlyNonblock icc w ls w' := by
  have hnone : ls.flatMap SmLabel.asked = [] := by
    rw [List.flatMap_eq_nil_iff]
    intro l hl
    simp [SmLabel.asked, hq l hl]
  refine ⟨?_, by rw [quiet_run h hq], ?_⟩
  · rintro l v ⟨pre, post, rfl, -⟩ x hx
    rw [quiet_words icc l.env v (hq l (by simp))] at hx
    cases hx
  · intro b hb
    rw [hnone] at hb
    cases hb

theorem write_only_nonblock {w w' : World} {ls : List SmLabel} (h : Lts.Run (SmStep icc) w ls w')
    (hw : w.fl &&& ~~~oNonblock = 1) : OnlyNonblock icc w ls w' := by
  obtain ⟨hfl, hend⟩ := run_flags write_only_stays h hw
  refine ⟨?_, hend.trans hw.symm, ?_⟩
  · rintro l v ⟨pre, post, -, hpre⟩ x hx
    have hv := (run_flags write_only_stays hpre hw).2
    cases hl : l.call.asks with
    | true =>
      rw [asking_words icc l.env hl (write_only_stays.pos _ hv)] at hx
      rw [List.mem_singleton.mp hx]
      exact write_only_wanted hv l.call.blocking
    | false =>
      rw [quiet_words icc l.env v hl] at hx
      cases hx
  · intro b hb
    rw [hfl]
    exact lastSet_mode hb

/-- The first call that asks writes a word that does not depend on the flags. -/
theorem OnlyNonblock.quiet_or_write_only {w w' : World} {ls : List SmLabel} (ho : OnlyNonblock icc w ls w')
    (hpos : 0 < w.fl.toInt) (h : Lts.Run (SmStep icc) w ls w') :
    (∀ l ∈ ls, l.call.asks = false) ∨ w.fl &&& ~~~oNonblock = 1 := by
  rcases first_asking ls with hq | ⟨pre, l, post, hls, hpre, hl⟩
  · exact .inl hq
  · rw [hls] at h
    obtain ⟨v, hrun, -⟩ := h.of_append
    cases quiet_run hrun hpre
    have hword := ho.words l w ⟨pre, post, hls, hrun⟩ (modeFlags l.call.blocking)
    rw [asking_words icc l.env hl hpos] at hword
    exact .inr (write_only_of_wanted (hword List.mem_cons_self))

/-- From any flags that are positive as an `int`, a sequence of these calls with any
    arguments touches only `O_NONBLOCK` exactly when none of them gets as far as its
    `F_SETFL`, or when the flags are `O_WRONLY` and, apart from `O_NONBLOCK`, no other. -/
theorem only_nonblock_iff {w w' : World} {ls : List SmLabel} (hpos : 0 < w.fl.toInt)
    (h : Lts.Run (SmStep icc) w ls w') :
    OnlyNonblock icc w ls w' ↔ (∀ l ∈ ls, l.call.asks = false) ∨ w.fl &&& ~~~oNonblock = 1 := by
  constructor
  · intro ho
    exact ho.quiet_or_write_only hpos h
  · rintro (hq | hw)
    · exact quiet_only_nonblock h hq
    · exact write_only_nonblock h hw

/-- A blocking send, and a non-blocking poll. -/
def blockingSend : SmLabel := ⟨willing, .mode (.sendPacket 1 5 1 4096 64 true)⟩
def nonblockingPoll : SmLabel := ⟨willing, .mode (.waitNonblocking 1 5 1 4096 (some 0) .recv 0 0 false)⟩

/-- A process that has attached, and its descriptor with these flags. -/
def withFlags (fl : U32) : World := { db := initialised 0 0 none, fl := fl }

/-- Opened for writing only, the two leave everything but `O_NONBLOCK`. -/
theorem write_only_send_and_poll : 0 < (withFlags 1).fl.toInt ∧
    OnlyNonblock (fun _ => 0) (withFlags 1) [blockingSend, nonblockingPoll]
      (nonblockingPoll.call.world (fun _ => 0) willing (blockingSend.call.world (fun _ => 0) willing (withFlags 1))) :=
  ⟨by decide, (only_nonblock_iff (by decide) (.cons rfl (.cons rfl (.nil _)))).mpr (.inr (by decide))⟩

/-- Opened for reading and writing, one blocking send writes 1 where it read 2. -/
theorem send_rewrites_flags : ¬ ∀ (w w' : World) (ls : List SmLabel), 0 < w.fl.toInt →
    Lts.Run (SmStep fun _ => 0) w ls w' → OnlyNonblock (fun _ => 0) w ls w' := by
  intro h
  have ho := h (withFlags 2) _ [blockingSend] (by decide) (.single rfl)
  have hword := ho.words blockingSend (withFlags 2) ⟨[], [], rfl, .nil _⟩ (modeFlags true)
  have hset : blockingSend.call.words (fun _ => 0) blockingSend.env (withFlags 2) = [modeFlags true] :=
    asking_words _ willing rfl (by decide)
  have hwrong : modeFlags true = wanted true 2 := hword (by rw [hset]; exact List.mem_singleton.mpr rfl)
  revert hwrong
  decide

end Mcapi
