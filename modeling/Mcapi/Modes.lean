/-
  Mcapi.Modes — the mode a driver command runs in, with any number of threads.

  Blocking or not is a flag of the one descriptor the threads of a process share.
  `sm_send_packet`, `sm_recv_packet`, `sm_get_remote_ep` and `sm_wait_nonblocking` set it
  with an `F_SETFL` and then issue their `ioctl`: each system call here is a step of its
  own, and a run is any interleaving of the steps of any threads.

  A command runs in the mode of the last `F_SETFL` before it, whichever thread made it. So
  all commands of a run are in the mode they were asked for exactly when each has the
  argument of the last `F_SETFL` before it (`runs_in_mode_iff`): in particular where no
  thread sets another mode while one is between its `F_SETFL` and its `ioctl`
  (`undisturbed_in_mode`). Nothing in the library keeps two threads from doing so
  (`poll_breaks_blocking_wait`).
-/

import Mcapi.Driver
import Mcapi.Lib.Runs

namespace Mcapi

/-! ## The calls -/

/-- A call that sets the mode of its command. -/
inductive ModeCall where
  | sendPacket (sessionIdx dstEp dstCpu buf len : U32) (blocking : Bool)
  | recvPacket (sessionIdx buf len : U32) (blocking : Bool)
  | getRemoteEp (dstEp dstCpu timeout : U32) (blocking : Bool)
  | waitNonblocking (sessionIdx dstEp dstCpu buf : U32) (len : Option U32) (type : RequestType)
      (payload timeout : U32) (blocking : Bool)
  deriving DecidableEq, Repr

def ModeCall.blocking : ModeCall → Bool
  | .sendPacket _ _ _ _ _ b => b
  | .recvPacket _ _ _ b => b
  | .getRemoteEp _ _ _ b => b
  | .waitNonblocking _ _ _ _ _ _ _ _ b => b

/-- Its command; a receive without a buffer gives none. -/
def ModeCall.command : ModeCall → Option (Cmd × SmPacket)
  | .sendPacket k e c p n _ =>
    some (.send, { sessionIdx := k, remoteEp := e, dstCpu := c, buf := p, bufLen := n })
  | .recvPacket k p n _ => if p = 0 then none else some (.recv, { sessionIdx := k, buf := p, bufLen := n })
  | .getRemoteEp e c t _ => some (.queryRemoteEp, { remoteEp := e, dstCpu := c, timeout := t })
  | .waitNonblocking k e c p n y m t _ =>
    some (.wait, { sessionIdx := k, remoteEp := e, dstCpu := c, buf := p, type := .request y, timeout := t,
                   payload := m, bufLen := n.getD 0 })

/-- The world the call leaves, made in one go. -/
def ModeCall.world (E : Env) (w : World) : ModeCall → World
  | .sendPacket k e c p n b => (smSendPacket E w k e c p n b).2.2
  | .recvPacket k p n b => (smRecvPacket E w k 0 0 p n b).2
  | .getRemoteEp e c t b => (smGetRemoteEp E w e c t b).2
  | .waitNonblocking k e c p n y m t b => (smWaitNonblocking E w k e c p n y m t b).2.2

/-- Every one of them sets its mode and gives its command. -/
theorem world_eq (E : Env) (w : World) {m : ModeCall} {c : Cmd} {p : SmPacket} (h : m.command = some (c, p)) :
    m.world E w = (ioctl E (setBlocking w m.blocking) c p).2 := by
  cases m with
  | sendPacket k e c p n b => cases h; rfl
  | recvPacket k q n b =>
    simp only [ModeCall.command] at h
    split at h
    · cases h
    · rename_i hq
      cases h
      simp only [ModeCall.world, ModeCall.blocking, smRecvPacket, hq, if_false]
      split <;> rfl
  | getRemoteEp e c t b => cases h; rfl
  | waitNonblocking k e c p n y m t b => cases h; rfl

/-! ## The threads and the descriptor -/

/-- Where a thread is: between two calls, after the `F_GETFL` of one, or at its `ioctl`. -/
inductive Pc where
  | idle
  | setting (c : ModeCall)
  | ready (c : ModeCall)
  deriving DecidableEq, Repr

/-- The descriptor's status flags, and the threads of the process. -/
structure Dev where
  fl : U32
  threads : Nat → Pc

/-- The device, opened with `O_RDWR`. -/
def opened : Dev := ⟨2, fun _ => .idle⟩

/-- The flags a call sets. -/
def modeFlags (blocking : Bool) : U32 := if blocking then 1 &&& ~~~oNonblock else 1 ||| oNonblock

/-- `F_SETFL`, as the kernel does it. -/
def setFlags (fl flags : U32) : U32 := (fl &&& ~~~setflMask) ||| (flags &&& setflMask)

inductive ModeLabel where
  | getfl (t : Nat) (c : ModeCall)
  | setfl (t : Nat) (c : ModeCall)
  | ioctl (t : Nat) (c : ModeCall)
  deriving DecidableEq, Repr

def Dev.step (d : Dev) : ModeLabel → Option Dev
  | .getfl t c =>
    if d.threads t = .idle ∧ c.command.isSome = true then
      some { d with threads := Function.update d.threads t (if 0 < d.fl.toInt then .setting c else .ready c) }
    else none
  | .setfl t c =>
    if d.threads t = .setting c then
      some ⟨setFlags d.fl (modeFlags c.blocking), Function.update d.threads t (.ready c)⟩
    else none
  | .ioctl t c =>
    if d.threads t = .ready c then some { d with threads := Function.update d.threads t .idle } else none

def ModeStep (d : Dev) (l : ModeLabel) (d' : Dev) : Prop := d.step l = some d'

def Nonblocking (fl : U32) : Prop := fl &&& oNonblock ≠ 0

instance (fl : U32) : Decidable (Nonblocking fl) := inferInstanceAs (Decidable (_ ≠ _))

/-- Undisturbed, the steps of a call do what `setBlocking` does. -/
theorem setBlocking_fl (w : World) (b : Bool) :
    (setBlocking w b).fl = if 0 < w.fl.toInt then setFlags w.fl (modeFlags b) else w.fl := by
  unfold setBlocking
  split
  · rfl
  · rfl

/-! ## What an `F_SETFL` leaves -/

/-- Bit `i` of the flags, after an `F_SETFL`. -/
theorem setFlags_bit (fl flags : U32) (i : Nat) : (setFlags fl flags).getLsbD i =
    ((fl.getLsbD i && (decide (i < 32) && !setflMask.getLsbD i)) || (flags.getLsbD i && setflMask.getLsbD i)) := by
  simp [setFlags]

/-- Opened for reading and writing, and so positive as an `int`. -/
structure ReadWrite (fl : U32) : Prop where
  access : fl.getLsbD 1 = true
  sign : fl.getLsbD 31 = false

theorem ReadWrite.setFlags {fl : U32} (h : ReadWrite fl) (flags : U32) : ReadWrite (setFlags fl flags) := by
  have h1 : setflMask.getLsbD 1 = false := by decide
  have h31 : setflMask.getLsbD 31 = false := by decide
  refine ⟨?_, ?_⟩
  · rw [setFlags_bit, h.access, h1]
    rfl
  · rw [setFlags_bit, h.sign, h31]
    simp

theorem ReadWrite.pos {fl : U32} (h : ReadWrite fl) : 0 < fl.toInt := by
  have hmsb : fl.msb = false := by
    rw [BitVec.msb_eq_getLsbD_last]
    exact h.sign
  have hne : fl.toNat ≠ 0 := by
    intro h0
    have hz : fl = 0 := BitVec.eq_of_toNat_eq h0
    have hbit := h.access
    rw [hz] at hbit
    cases hbit
  rw [BitVec.toInt_eq_toNat_of_msb hmsb]
  omega

theorem nonblocking_iff (fl : U32) : Nonblocking fl ↔ fl.getLsbD 11 = true := by
  have ho : oNonblock = BitVec.twoPow 32 11 := by decide
  rw [Nonblocking, ho, BitVec.and_twoPow]
  cases fl.getLsbD 11 with
  | false => decide
  | true => decide

theorem setFlags_mode (fl : U32) (b : Bool) : Nonblocking (setFlags fl (modeFlags b)) ↔ b = false := by
  have hmask : setflMask.getLsbD 11 = true := by decide
  rw [nonblocking_iff, setFlags_bit, hmask]
  cases b with
  | false => simp [modeFlags, oNonblock]
  | true => simp [modeFlags, oNonblock]

/-! ## Runs of the threads -/

/-- The mode an `F_SETFL` sets. -/
def ModeLabel.sets : ModeLabel → List Bool
  | .setfl _ c => [c.blocking]
  | _ => []

/-- The descriptor follows the `F_SETFL`s made so far, and each thread at its `ioctl` has
    made one. -/
structure Follows (d : Dev) (sets : List Bool) : Prop where
  access : ReadWrite d.fl
  made : ∀ t c, d.threads t = .ready c → sets ≠ []
  last : ∀ b, sets.getLast? = some b → (Nonblocking d.fl ↔ b = false)

theorem opened_follows : Follows opened [] := by
  refine ⟨⟨by decide, by decide⟩, ?_, ?_⟩
  · intro t c h
    cases h
  · intro b h
    cases h

/-- A step sets a mode and takes its thread to its `ioctl`, or takes a thread elsewhere. -/
theorem mode_cases {d d' : Dev} {l : ModeLabel} (ha : ReadWrite d.fl) (hs : ModeStep d l d') :
    (∃ t pc, (∀ c, pc ≠ .ready c) ∧ l.sets = [] ∧ d' = { d with threads := Function.update d.threads t pc }) ∨
    ∃ t c, l = .setfl t c ∧
      d' = ⟨setFlags d.fl (modeFlags c.blocking), Function.update d.threads t (.ready c)⟩ := by
  cases l with
  | getfl t c =>
    simp only [ModeStep, Dev.step, if_pos ha.pos] at hs
    split at hs
    · cases hs
      exact .inl ⟨t, .setting c, by simp, rfl, rfl⟩
    · cases hs
  | setfl t c =>
    simp only [ModeStep, Dev.step] at hs
    split at hs
    · cases hs
      exact .inr ⟨t, c, rfl, rfl⟩
    · cases hs
  | ioctl t c =>
    simp only [ModeStep, Dev.step] at hs
    split at hs
    · cases hs
      exact .inl ⟨t, .idle, by simp, rfl, rfl⟩
    · cases hs

/-- A thread that is at its `ioctl` after another went elsewhere was there before. -/
theorem update_ready {f : Nat → Pc} {pc : Pc} {t u : Nat} {c : ModeCall} (hpc : ∀ c, pc ≠ .ready c)
    (h : Function.update f t pc u = .ready c) : f u = .ready c := by
  by_cases hu : u = t
  · subst hu
    rw [Function.update_self] at h
    exact absurd h (hpc c)
  · rwa [Function.update_of_ne hu] at h

theorem Follows.step {d d' : Dev} {l : ModeLabel} {sets : List Bool} (h : Follows d sets) (hs : ModeStep d l d') :
    Follows d' (sets ++ l.sets) := by
  rcases mode_cases h.access hs with ⟨t, pc, hpc, hsets, rfl⟩ | ⟨t, c, rfl, rfl⟩
  · rw [hsets, List.append_nil]
    exact ⟨h.access, fun u c' hu => h.made u c' (update_ready hpc hu), h.last⟩
  · refine ⟨h.access.setFlags _, ?_, ?_⟩
    · intro u c' _
      simp [ModeLabel.sets]
    · intro b hb
      simp only [ModeLabel.sets, List.getLast?_append, List.getLast?_singleton, Option.some_or,
        Option.some.injEq] at hb
      subst hb
      exact setFlags_mode d.fl c.blocking

theorem run_follows {d : Dev} {ls : List ModeLabel} (h : Lts.Run ModeStep opened ls d) :
    Follows d (ls.flatMap ModeLabel.sets) :=
  h.accumulates (R := Follows) (fun _ hR hs => hR.step hs) opened_follows

/-- Whenever a call of the run issues its `ioctl`, `O_NONBLOCK` is set if and only if it
    was made non-blocking. -/
def RunsInMode (ls : List ModeLabel) : Prop :=
  ∀ t c d, Lts.Turn ModeStep opened ls (.ioctl t c) d → (Nonblocking d.fl ↔ c.blocking = false)

/-- The last `F_SETFL` before each `ioctl`, by its own thread or by another, had the same
    blocking argument. -/
def SetLast (ls : List ModeLabel) : Prop :=
  ∀ t c pre post, ls = pre ++ .ioctl t c :: post → (pre.flatMap ModeLabel.sets).getLast? = some c.blocking

/-- In any interleaving of any calls of any number of threads, every command runs in the
    mode its caller asked for exactly when the last `F_SETFL` before it asked for the same. -/
theorem runs_in_mode_iff {ls : List ModeLabel} {d : Dev} (h : Lts.Run ModeStep opened ls d) :
    RunsInMode ls ↔ SetLast ls := by
  constructor
  · intro hm t c pre post hls
    rw [hls] at h
    obtain ⟨d1, hpre, hpost⟩ := h.of_append
    have hf := run_follows hpre
    have hready : d1.threads t = .ready c := by
      cases hpost with
      | cons hs _ =>
        simp only [ModeStep, Dev.step] at hs
        split at hs
        · assumption
        · cases hs
    -- the thread is at its `ioctl`, so some mode has been set
    cases hlast : (pre.flatMap ModeLabel.sets).getLast? with
    | none => exact absurd (List.getLast?_eq_none_iff.mp hlast) (hf.made t c hready)
    | some b =>
      have hb := hf.last b hlast
      have hc := hm t c d1 ⟨pre, post, hls, hpre⟩
      have hbc : b = false ↔ c.blocking = false := hb.symm.trans hc
      congr 1
      exact Bool.eq_iff_iff.mpr (by simpa using not_congr hbc)
  · intro hl t c d1 hturn
    obtain ⟨pre, post, hls, hpre⟩ := hturn
    exact (run_follows hpre).last c.blocking (hl t c pre post hls)

/-! ## Undisturbed runs -/

/-- No thread at its `ioctl` was called for another mode than the one this step sets. -/
def LeavesMode (d : Dev) : ModeLabel → Prop
  | .setfl _ c => ∀ u c', d.threads u = .ready c' → c'.blocking = c.blocking
  | _ => True

/-- Each thread at its `ioctl` has the mode that was set last. -/
def HaveLast (d : Dev) (sets : List Bool) : Prop :=
  ∀ t c, d.threads t = .ready c → sets.getLast? = some c.blocking

theorem HaveLast.step {d d' : Dev} {l : ModeLabel} {sets : List Bool} (h : HaveLast d sets) (hf : Follows d sets)
    (hl : LeavesMode d l) (hs : ModeStep d l d') : HaveLast d' (sets ++ l.sets) := by
  intro u c' hu
  rcases mode_cases hf.access hs with ⟨t, pc, hpc, hsets, rfl⟩ | ⟨t, c, rfl, rfl⟩
  · rw [hsets, List.append_nil]
    exact h u c' (update_ready hpc hu)
  · simp only [ModeLabel.sets, List.getLast?_append, List.getLast?_singleton, Option.some_or, Option.some.injEq]
    by_cases he : u = t
    · subst he
      simp only [Function.update_self, Pc.ready.injEq] at hu
      rw [hu]
    · simp only [Function.update_of_ne he] at hu
      exact (hl u c' hu).symm

/-- Where no step sets another mode while a thread is between its `F_SETFL` and its
    `ioctl`, every command runs in the mode its caller asked for. -/
theorem undisturbed_in_mode {d : Dev} {ls : List ModeLabel}
    (h : Lts.Run (Lts.Guarded ModeStep LeavesMode) opened ls d) : RunsInMode ls := by
  refine (runs_in_mode_iff h.of_guarded).mpr ?_
  intro t c pre post hls
  rw [hls] at h
  obtain ⟨d1, hpre, hpost⟩ := h.of_append
  have hlast : Follows d1 (pre.flatMap ModeLabel.sets) ∧ HaveLast d1 (pre.flatMap ModeLabel.sets) := by
    refine hpre.accumulates (R := fun d sets => Follows d sets ∧ HaveLast d sets) ?_
      ⟨opened_follows, fun t c hc => by cases hc⟩
    intro d l d' sets _ hR hs
    exact ⟨hR.1.step hs.2, hR.2.step hR.1 hs.1 hs.2⟩
  cases hpost with
  | cons hs _ =>
    have hstep := hs.2
    simp only [ModeStep, Dev.step] at hstep
    split at hstep
    · rename_i hready
      exact hlast.2 t c hready
    · cases hstep

/-- And a step that does makes the next command of that thread run in the wrong mode. -/
theorem disturbed_command {d d' : Dev} {t u : Nat} {c c' : ModeCall} (hs : ModeStep d (.setfl t c) d')
    (hu : d.threads u = .ready c') (hne : c'.blocking ≠ c.blocking) :
    (d'.step (.ioctl u c')).isSome = true ∧ ¬ (Nonblocking d'.fl ↔ c'.blocking = false) := by
  simp only [ModeStep, Dev.step] at hs
  split at hs
  · rename_i ht
    cases hs
    have hut : u ≠ t := by
      intro he
      subst he
      cases ht.symm.trans hu
    refine ⟨?_, ?_⟩
    · simp [Dev.step, hut, hu]
    · rw [setFlags_mode]
      intro h
      exact hne (Bool.eq_iff_iff.mpr (by simpa using not_congr h.symm))
  · cases hs

/-- A blocking wait for a message, and a poll of another endpoint's. -/
def waitCall : ModeCall := .waitNonblocking 1 5 1 4096 (some 0) .recv 0 0 true
def pollCall : ModeCall := .waitNonblocking 2 6 2 8192 (some 0) .recv 0 0 false

/-- With nothing in between, the wait blocks. -/
theorem wait_in_mode : RunsInMode [.getfl 0 waitCall, .setfl 0 waitCall, .ioctl 0 waitCall] := by
  have hrun : Lts.Run ModeStep opened [.getfl 0 waitCall, .setfl 0 waitCall, .ioctl 0 waitCall] _ :=
    .cons rfl (.cons rfl (.cons rfl (.nil _)))
  refine (runs_in_mode_iff hrun).mpr ?_
  intro t c pre post h
  rcases pre with _ | ⟨l1, _ | ⟨l2, _ | ⟨l3, pre⟩⟩⟩
  · cases h
  · cases h
  · cases h
    rfl
  · simp at h

/-- Thread 1 polls while thread 0 is about to wait. -/
def pollDuringWait : List ModeLabel :=
  [.getfl 0 waitCall, .setfl 0 waitCall, .getfl 1 pollCall, .setfl 1 pollCall, .ioctl 0 waitCall]

/-- The blocking wait is then issued with `O_NONBLOCK` set. -/
theorem poll_breaks_blocking_wait : ¬ ∀ ls d, Lts.Run ModeStep opened ls d → RunsInMode ls := by
  intro h
  have hrun := h pollDuringWait _ (.cons rfl (.cons rfl (.cons rfl (.cons rfl (.cons rfl (.nil _))))))
  have hturn := hrun 0 waitCall _
    ⟨pollDuringWait.take 4, [], rfl, .cons rfl (.cons rfl (.cons rfl (.cons rfl (.nil _))))⟩
  have hset : Nonblocking (setFlags (setFlags 2 (modeFlags true)) (modeFlags false)) := by decide
  cases hturn.mp hset

end Mcapi
