/-
  Mcapi.Descriptors — the library's descriptor among those of its process
  (`sm_dev_initialize`, `sm_dev_finalize`, `mcapi_trans_initialize`, `mcapi_trans_finalize`).

  `fd` is a global of the library, 0 until an initialisation sets it. `mcapi_initialize`
  opens /dev/icc whether or not it holds a descriptor already, and goes on where `open`
  fails, with -1 in `fd`. `mcapi_finalize` closes what the number in `fd` names by then, and
  leaves the number there. Every call to the driver goes to `fd`.

  `Host` is the system with the descriptors of each process, among them the files that the
  application opens and closes itself. A number that is free is soon used again: `open`
  gives the lowest. `Ledger` is what the initialisations and finalisations of a process come
  to, by the labels alone.

  - `descriptors_exact`: how many descriptors on the device a process has, and that an
    attached process speaks to the device or to nothing.
  - `takes_iff`: when the library closes a file of the application.
-/

import Mcapi.Identity
import Mcapi.Lib.FileTable

namespace Mcapi

/-! ## The files of a process -/

inductive File where
  | device
  | own
  deriving DecidableEq, Repr

/-- What a process has open, and `fd`. -/
structure Files where
  table : FileTable File
  fd : Int := 0

/-- What a call to the driver reaches. -/
def Files.target (f : Files) : Option File := f.table.named f.fd

/-- `sm_dev_initialize`, with the number that `open` gives, where it gives one. -/
def smDevInitialize (f : Files) : Option Nat → Files
  | some n => ⟨f.table.opened n .device, n⟩
  | none => { f with fd := -1 }

def smDevFinalize (f : Files) : Files := { f with table := f.table.closed f.fd }

-- The numbers under which a process has files when it starts.
variable (inherits : Nat → Bool)

def Files.start : Files := { table := fun n => if inherits n then some .own else none }

/-! ## The system with its files -/

structure Host where
  sys : Sys
  files : Nat → Files

def Host.init : Host := ⟨.init, fun _ => .start inherits⟩

inductive HostLabel where
  /-- A step of the system. An initialisation gets `opened` from `open`. -/
  | sys (l : SysLabel) (opened : Option Nat)
  /-- The application opens a file, or closes one of its own. -/
  | opens (p n : Nat)
  | closes (p n : Nat)

def HostLabel.pid : HostLabel → Nat
  | .sys (.initialise p ..) _ | .sys (.finalize p) _ | .sys (.exit p) _ | .sys (.call p ..) _ => p
  | .opens p _ | .closes p _ => p

/-- What `open` and the application keep to. -/
def HostLabel.Fits (f : Files) : HostLabel → Prop
  | .sys (.initialise ..) (some n) => f.table.Lowest n
  | .opens _ n => f.table.Lowest n
  | .closes _ n => f.table n = some .own
  | _ => True

/-- The files of the process after its step. `mcapi_trans_initialized` never finds the node,
    so an initialisation always gets to `sm_dev_initialize`. -/
def Files.after (f : Files) : HostLabel → Files
  | .sys (.initialise ..) opened => smDevInitialize f opened
  | .sys (.finalize _) _ => smDevFinalize f
  | .sys (.exit _) _ => .start inherits
  | .sys (.call ..) _ => f
  | .opens _ n => { f with table := f.table.opened n .own }
  | .closes _ n => { f with table := f.table.closed n }

def HostLabel.SysStep (s : Sys) : HostLabel → Sys → Prop
  | .sys l _, s' => Mcapi.SysStep s l s'
  | _, s' => s' = s

structure HostStep (s : Host) (l : HostLabel) (s' : Host) : Prop where
  fits : l.Fits (s.files l.pid)
  sys : l.SysStep s.sys s'.sys
  files : s'.files = Function.update s.files l.pid ((s.files l.pid).after inherits l)

/-! ## What the labels come to -/

/-- `live`: the last initialisation or finalisation is an initialisation. `fd`: what `open`
    gave to the last initialisation. `lost`: how many initialisations found a descriptor
    held. -/
structure Ledger where
  live : Bool := false
  fd : Int := 0
  lost : Nat := 0
  deriving DecidableEq, Repr

def Ledger.held (b : Ledger) : Bool := b.live && decide (0 ≤ b.fd)

def Ledger.after (b : Ledger) : HostLabel → Ledger
  | .sys (.initialise ..) opened => ⟨true, opened.elim (-1) fun n => n, b.lost + b.held.toNat⟩
  | .sys (.finalize _) _ => { b with live := false }
  | .sys (.exit _) _ => {}
  | _ => b

def ledger (p : Nat) (ls : List HostLabel) : Ledger := ls.foldl (fun b l => if l.pid = p then b.after l else b) {}

theorem ledger_append (p : Nat) (ls : List HostLabel) (l : HostLabel) :
    ledger p (ls ++ [l]) = if l.pid = p then (ledger p ls).after l else ledger p ls := by
  rw [ledger, List.foldl_append]
  rfl

/-! ## The files follow the ledger -/

structure Tracks (b : Ledger) (f : Files) : Prop where
  fd : f.fd = b.fd
  held : f.target = some .device ↔ b.held = true
  count : Census (· = some .device) f.table (b.lost + b.held.toNat)

variable {inherits} {b : Ledger} {f : Files} {n : Nat}

theorem start_tracks : Tracks {} (.start inherits) := by
  have hno (n : Nat) : ¬ (Files.start inherits).table n = some .device := by
    simp only [Files.start]
    split <;> simp
  exact ⟨rfl, iff_of_false (hno 0) nofun, Census.none_iff.mpr hno⟩

theorem Tracks.initialise (h : Tracks b f) (hn : f.table n = none) :
    Tracks ⟨true, n, b.lost + b.held.toNat⟩ (smDevInitialize f (some n)) := by
  have hheld : (⟨true, n, b.lost + b.held.toNat⟩ : Ledger).held = true := by simp [Ledger.held]
  refine ⟨rfl, iff_of_true (FileTable.named_opened_self ..) hheld, ?_⟩
  rw [hheld]
  exact FileTable.count_opened h.count hn

theorem Tracks.unopened (h : Tracks b f) : Tracks ⟨true, -1, b.lost + b.held.toNat⟩ (smDevInitialize f none) :=
  ⟨rfl, iff_of_false nofun nofun, h.count⟩

theorem Tracks.finalize (h : Tracks b f) : Tracks { b with live := false } (smDevFinalize f) := by
  refine ⟨h.fd, iff_of_false ?_ nofun, ?_⟩
  · rw [smDevFinalize, Files.target, FileTable.named_closed_self]
    nofun
  · cases hheld : b.held with
    | true =>
      have hcount := h.count
      rw [hheld] at hcount
      exact FileTable.count_closed hcount (h.held.mpr hheld)
    | false =>
      have hcount := h.count
      rw [hheld] at hcount
      exact FileTable.count_closed_ne hcount fun ht => by rw [h.held.mp ht] at hheld; cases hheld

/-- A file of the application is opened, never over the device. -/
theorem Tracks.opens (h : Tracks b f) (hn : f.table n = none) : Tracks b { f with table := f.table.opened n .own } := by
  refine ⟨h.fd, Iff.trans ⟨fun ht => ?_, FileTable.named_opened hn⟩ h.held, FileTable.count_opened_ne h.count hn nofun⟩
  obtain ⟨m, hm, ht⟩ := FileTable.named_some_iff.mp ht
  have ht : f.table.opened n .own m = some .device := ht
  rw [FileTable.opened_apply] at ht
  split at ht
  · cases ht
  · exact FileTable.named_some_iff.mpr ⟨m, hm, ht⟩

theorem Tracks.closes (h : Tracks b f) (hn : f.table n = some .own) :
    Tracks b { f with table := f.table.closed n } := by
  have hnot : f.table.named n ≠ some .device := by simp [hn]
  refine ⟨h.fd, ?_, FileTable.count_closed_ne h.count hnot⟩
  by_cases hfd : f.fd = n
  · have ht : f.target = some .own := by rw [Files.target, hfd, FileTable.named_natCast, hn]
    have ht' : (f.table.closed n).named f.fd = none := by rw [hfd, FileTable.named_closed_self]
    refine Iff.trans (iff_of_false ?_ ?_) h.held
    · rw [Files.target, ht']
      nofun
    · rw [ht]
      nofun
  · rw [Files.target, FileTable.named_closed hfd]
    exact h.held

theorem Tracks.after (h : Tracks b f) {l : HostLabel} (hl : l.Fits f) : Tracks (b.after l) (f.after inherits l) := by
  cases l with
  | sys l opened =>
    cases l with
    | initialise p d n a o =>
      cases opened with
      | none => exact h.unopened
      | some n => exact h.initialise hl.1
    | finalize p => exact h.finalize
    | exit p => exact start_tracks
    | call p E c errno fl => exact h
  | opens p n => exact h.opens hl.1
  | closes p n => exact h.closes hl

/-- An attached process speaks to the device where the ledger says that it holds it, and
    otherwise to nothing. -/
theorem Tracks.live_target (h : Tracks b f) (hb : b.live = true) :
    f.target = if 0 ≤ b.fd then some .device else none := by
  split
  · rename_i hfd
    exact h.held.mpr (by simp [Ledger.held, hb, hfd])
  · rename_i hfd
    rw [Files.target, h.fd]
    cases hfile : f.table.named b.fd with
    | none => rfl
    | some x =>
      obtain ⟨n, hn, -⟩ := FileTable.named_some_iff.mp hfile
      omega

/-! ## Runs -/

variable {s s' : Sys} {p : Nat}

theorem finalize_detaches (hr : Lts.Reachable Mcapi.SysStep Sys.init s) (h : Mcapi.SysStep s (.finalize p) s') :
    (s'.procs p).cDb ≠ .attached := by
  cases h
  show (Function.update s.procs p (transFinalize s.seg (s.procs p)).2 p).cDb ≠ _
  rw [Function.update_self]
  unfold transFinalize
  split
  · nofun
  · rename_i hno
    intro hc
    obtain ⟨g, hg, -⟩ := attached_segment hr hc
    exact hno g hc hg

/-- A run as far as one process is concerned. -/
structure HostInv (ls : List HostLabel) (s : Host) : Prop where
  reach : Lts.Reachable SysStep Sys.init s.sys
  tracks : ∀ p, Tracks (ledger p ls) (s.files p)
  live : ∀ p, (s.sys.procs p).cDb = .attached → (ledger p ls).live = true

variable {h0 h1 : Host} {ls : List HostLabel} {l : HostLabel}

/-- A step of the system, or one that it does not see. -/
theorem HostStep.cases (hs : HostStep inherits h0 l h1) :
    (∃ k x, l = .sys k x ∧ Mcapi.SysStep h0.sys k h1.sys) ∨ (h1.sys = h0.sys ∧ ∀ b : Ledger, b.after l = b) := by
  have hsys := hs.sys
  cases l with
  | sys k x => exact .inl ⟨k, x, rfl, hsys⟩
  | opens p n => exact .inr ⟨hsys, fun _ => rfl⟩
  | closes p n => exact .inr ⟨hsys, fun _ => rfl⟩

theorem HostStep.reach (hs : HostStep inherits h0 l h1) (hr : Lts.Reachable SysStep Sys.init h0.sys) :
    Lts.Reachable SysStep Sys.init h1.sys := by
  rcases hs.cases with ⟨k, x, -, hk⟩ | ⟨heq, -⟩
  · exact hr.tail hk
  · rwa [heq]

theorem HostStep.other (hs : HostStep inherits h0 l h1) (hp : l.pid ≠ p) : h1.sys.procs p = h0.sys.procs p := by
  rcases hs.cases with ⟨k, x, rfl, hk⟩ | ⟨heq, -⟩
  · refine procs_kept hk ?_
    cases k with
    | call q E c errno fl => exact id
    | _ => exact hp
  · rw [heq]

theorem HostStep.live (hs : HostStep inherits h0 l h1) (hr : Lts.Reachable SysStep Sys.init h0.sys) {b : Ledger}
    (hb : (h0.sys.procs l.pid).cDb = .attached → b.live = true) (hc : (h1.sys.procs l.pid).cDb = .attached) :
    (b.after l).live = true := by
  rcases hs.cases with ⟨k, x, rfl, hk⟩ | ⟨heq, hafter⟩
  · cases k with
    | initialise p d n a o => rfl
    | finalize p => exact absurd hc (finalize_detaches hr hk)
    | exit p =>
      have hnull : h1.sys.procs p = {} := by
        rw [← Except.ok.inj (show Except.ok _ = Except.ok h1.sys from hk)]
        exact Function.update_self ..
      cases hc.symm.trans (congrArg Proc.cDb hnull)
    | call p E c errno fl =>
      have hkept : h1.sys.procs p = h0.sys.procs p := procs_kept hk id
      exact hb ((congrArg Proc.cDb hkept).symm.trans hc)
  · rw [hafter]
    rw [heq] at hc
    exact hb hc

theorem HostInv.step (h : HostInv ls h0) (hs : HostStep inherits h0 l h1) : HostInv (ls ++ [l]) h1 := by
  refine ⟨hs.reach h.reach, fun p => ?_, fun p hc => ?_⟩ <;> rw [ledger_append]
  · rw [hs.files]
    split
    · rename_i hp
      subst hp
      rw [Function.update_self]
      exact (h.tracks l.pid).after hs.fits
    · rename_i hp
      rw [Function.update_of_ne (Ne.symm hp)]
      exact h.tracks p
  · split
    · rename_i hp
      subst hp
      exact hs.live h.reach (h.live l.pid) hc
    · rename_i hp
      rw [hs.other hp] at hc
      exact h.live p hc

theorem host_run (h : Lts.Run (HostStep inherits) (.init inherits) ls h0) : HostInv ls h0 := by
  have hinv : HostInv ([] ++ ls.flatMap fun l => [l]) h0 :=
    h.accumulates (R := fun s acc => HostInv acc s) (fun _ => HostInv.step) ⟨.refl _, fun p => start_tracks, nofun⟩
  rwa [List.nil_append, List.flatMap_singleton'] at hinv

/-- In any run of any number of processes, whatever files they open and close themselves: a
    process has one descriptor on the device for each of its initialisations that found one
    held, and the one it holds. While attached it speaks to the device exactly if `open` gave
    its last initialisation a number, and never to a file of its own. -/
theorem descriptors_exact (h : Lts.Run (HostStep inherits) (.init inherits) ls h0) (p : Nat) :
    Census (· = some .device) (h0.files p).table ((ledger p ls).lost + (ledger p ls).held.toNat) ∧
      ((h0.sys.procs p).cDb = .attached →
        (h0.files p).target = if 0 ≤ (ledger p ls).fd then some .device else none) :=
  have hinv := host_run h
  ⟨(hinv.tracks p).count, fun hc => (hinv.tracks p).live_target (hinv.live p hc)⟩

/-- The host after a step that is taken. -/
def Host.after (inherits : Nat → Bool) (s : Host) (l : HostLabel) : Host where
  sys := match l with
    | .sys l _ => s.sys.after l
    | _ => s.sys
  files := Function.update s.files l.pid ((s.files l.pid).after inherits l)

/-- The three standard files. -/
def standardFiles (n : Nat) : Bool := decide (n < 3)

def initGiven (n : Nat) : HostLabel := .sys firstInit (some n)
def finalZero : HostLabel := .sys (.finalize 0) none

def hostAfter (ls : List HostLabel) : Host := ls.foldl (Host.after standardFiles) (.init standardFiles)

theorem initGiven_step : HostStep standardFiles (hostAfter []) (initGiven 3) (hostAfter [initGiven 3]) := by
  refine ⟨?_, rfl, rfl⟩
  show FileTable.Lowest (Files.start standardFiles).table 3
  decide

theorem initGiven_again_step : HostStep standardFiles (hostAfter [initGiven 3]) (initGiven 4)
    (hostAfter [initGiven 3, initGiven 4]) := by
  refine ⟨?_, rfl, rfl⟩
  show FileTable.Lowest ((Files.start standardFiles).table.opened 3 .device) 4
  decide

/-- A second initialisation leaves a descriptor that the finalisation does not close. -/
theorem second_init_leaks :
    ∃ s, Lts.Run (HostStep standardFiles) (.init standardFiles) [initGiven 3, initGiven 4, finalZero] s ∧
      Census (· = some .device) (s.files 0).table 1 := by
  have hfinal : HostStep standardFiles (hostAfter [initGiven 3, initGiven 4]) finalZero
      (hostAfter [initGiven 3, initGiven 4, finalZero]) := ⟨trivial, rfl, rfl⟩
  have hrun := Lts.Run.cons initGiven_step (.cons initGiven_again_step (.single hfinal))
  exact ⟨_, hrun, (descriptors_exact hrun 0).1⟩

/-! ## Files that the library closes -/

/-- The step takes a file of the application from it: it did not close the file, nor end. -/
structure Takes (s : Host) (l : HostLabel) (s' : Host) (p n : Nat) : Prop where
  had : (s.files p).table n = some .own
  gone : (s'.files p).table n ≠ some .own
  unclosed : l ≠ .closes p n
  alive : ∀ x, l ≠ .sys (.exit p) x

/-- Of the steps of a process, only a finalisation takes a file from it. -/
theorem finalize_of_gone (hl : l.Fits f) (hn : f.table n = some .own) (hgone : (f.after inherits l).table n ≠ some .own)
    (hopen : l ≠ .closes l.pid n) (halive : ∀ x, l ≠ .sys (.exit l.pid) x) :
    (∃ x, l = .sys (.finalize l.pid) x) ∧ f.fd = n := by
  have hfree {m : Nat} {a : File} (hm : f.table.Lowest m) : f.table.opened m a n = some .own := by
    have hne : n ≠ m := by
      rintro rfl
      cases hn.symm.trans hm.1
    rw [FileTable.opened_apply, if_neg hne, hn]
  cases l with
  | sys l opened =>
    cases l with
    | initialise p d k a o =>
      cases opened with
      | none => exact absurd hn hgone
      | some m => exact absurd (hfree hl) hgone
    | finalize p =>
      refine ⟨⟨opened, rfl⟩, ?_⟩
      by_contra hfd
      have hkept : f.table.closed f.fd n = some .own := by rw [FileTable.closed_apply, if_neg hfd, hn]
      exact hgone hkept
    | exit p => exact absurd rfl (halive opened)
    | call p E c errno fl => exact absurd hn hgone
  | opens p m => exact absurd (hfree hl) hgone
  | closes p m =>
    have hne : (m : Int) ≠ n := by
      rintro hmn
      exact hopen (by rw [Int.ofNat.inj hmn]; rfl)
    have hkept : f.table.closed m n = some .own := by rw [FileTable.closed_apply, if_neg hne, hn]
    exact absurd hkept hgone

theorem Tracks.not_live (h : Tracks b f) (hfd : f.fd = n) (hn : f.table n = some .own) : b.live = false := by
  refine Bool.eq_false_of_not_eq_true fun hb => ?_
  have htarget : f.target = some .own := by rw [Files.target, hfd, FileTable.named_natCast, hn]
  have hlive := h.live_target hb
  rw [htarget] at hlive
  split at hlive <;> cases hlive

/-- In any run, the library closes a file of the application exactly where a process finalises
    without an initialisation since its last finalisation, and the file has by then the number
    that `open` gave to its last initialisation, or 0 if there was none. -/
theorem takes_iff (h : Lts.Run (HostStep inherits) (.init inherits) ls h0) (hs : HostStep inherits h0 l h1)
    (p n : Nat) : Takes h0 l h1 p n ↔ (∃ x, l = .sys (.finalize p) x) ∧ (h0.files p).table n = some .own ∧
      (ledger p ls).live = false ∧ (ledger p ls).fd = n := by
  have htracks := (host_run h).tracks p
  constructor
  · intro ht
    have hgone := ht.gone
    rw [hs.files] at hgone
    have hp : l.pid = p := by
      by_contra hp
      rw [Function.update_of_ne (Ne.symm hp)] at hgone
      exact hgone ht.had
    subst hp
    rw [Function.update_self] at hgone
    obtain ⟨hl, hfd⟩ := finalize_of_gone hs.fits ht.had hgone ht.unclosed ht.alive
    exact ⟨hl, ht.had, htracks.not_live hfd ht.had, htracks.fd.symm.trans hfd⟩
  · rintro ⟨⟨x, rfl⟩, hn, -, hfd⟩
    refine ⟨hn, ?_, nofun, nofun⟩
    have hclosed : (h0.files p).table.closed (h0.files p).fd n = none := by
      rw [FileTable.closed_apply, if_pos (htracks.fd.trans hfd)]
    have hfiles : h1.files p = smDevFinalize (h0.files p) := by
      rw [hs.files]
      exact Function.update_self ..
    rw [hfiles]
    intro hown
    cases hown.symm.trans hclosed

def opensOwn : HostLabel := .opens 0 3

/-- A second finalisation closes the file that has the number by then. -/
theorem second_finalize_takes :
    ∃ s s', Lts.Run (HostStep standardFiles) (.init standardFiles) [initGiven 3, finalZero, opensOwn] s ∧
      HostStep standardFiles s finalZero s' ∧ Takes s finalZero s' 0 3 := by
  have hfinal : HostStep standardFiles (hostAfter [initGiven 3]) finalZero (hostAfter [initGiven 3, finalZero]) :=
    ⟨trivial, rfl, rfl⟩
  have hfits : FileTable.Lowest (((Files.start standardFiles).table.opened 3 .device).closed 3) 3 := by decide
  have hopens : HostStep standardFiles (hostAfter [initGiven 3, finalZero]) opensOwn
      (hostAfter [initGiven 3, finalZero, opensOwn]) := ⟨hfits, rfl, rfl⟩
  have hagain : HostStep standardFiles (hostAfter [initGiven 3, finalZero, opensOwn]) finalZero
      (hostAfter [initGiven 3, finalZero, opensOwn, finalZero]) := ⟨trivial, rfl, rfl⟩
  have hrun := Lts.Run.cons initGiven_step (.cons hfinal (.single hopens))
  exact ⟨_, _, hrun, hagain, (takes_iff hrun hagain 0 3).mpr ⟨⟨none, rfl⟩, rfl, rfl, rfl⟩⟩

end Mcapi
