/-
  Mcapi.Lib.FileTable — the descriptors of a process.

  A table gives what is open under each number. `open` gives the lowest number that is
  free (`Lowest`), `close` frees a number, and one that is negative or free names nothing.
  The count of what is open in some way follows both.
-/

import Mcapi.Lib.Census

abbrev FileTable (A : Type) := Nat → Option A

namespace FileTable

variable {A : Type} {t : FileTable A} {n m k : Nat} {a b : A} {fd : Int}

def Lowest (t : FileTable A) (n : Nat) : Prop := t n = none ∧ ∀ m, m < n → t m ≠ none

instance (t : FileTable A) (n : Nat) : Decidable (t.Lowest n) := inferInstanceAs (Decidable (_ ∧ _))

def opened (t : FileTable A) (n : Nat) (a : A) : FileTable A := Function.update t n (some a)

def closed (t : FileTable A) : Int → FileTable A
  | .ofNat n => Function.update t n none
  | .negSucc _ => t

/-- What the number names. -/
def named (t : FileTable A) : Int → Option A
  | .ofNat n => t n
  | .negSucc _ => none

@[simp] theorem named_natCast (t : FileTable A) (n : Nat) : t.named n = t n := rfl

theorem opened_apply (t : FileTable A) (n m : Nat) (a : A) : t.opened n a m = if m = n then some a else t m :=
  Function.update_apply ..

theorem closed_apply (t : FileTable A) (fd : Int) (n : Nat) : t.closed fd n = if fd = n then none else t n := by
  cases fd with
  | ofNat m => simp [closed, Function.update_apply, eq_comm]
  | negSucc m => simp [closed]

theorem named_opened_self (t : FileTable A) (n : Nat) (a : A) : (t.opened n a).named n = some a :=
  Function.update_self ..

theorem named_some_iff : t.named fd = some a ↔ ∃ n : Nat, fd = n ∧ t n = some a := by
  constructor
  · intro h
    cases fd with
    | ofNat m => exact ⟨m, rfl, h⟩
    | negSucc m => cases h
  · rintro ⟨n, rfl, h⟩
    exact h

/-- What is open stays so. -/
theorem named_opened (hn : t n = none) (h : t.named fd = some b) : (t.opened n a).named fd = some b := by
  obtain ⟨m, rfl, hm⟩ := named_some_iff.mp h
  have hne : m ≠ n := by
    rintro rfl
    rw [hn] at hm
    cases hm
  rw [named_natCast, opened_apply, if_neg hne, hm]

@[simp] theorem named_closed_self : (t.closed fd).named fd = none := by
  cases fd with
  | ofNat n => exact Function.update_self ..
  | negSucc n => rfl

theorem named_closed (h : fd ≠ n) : (t.closed n).named fd = t.named fd := by
  cases fd with
  | ofNat m => exact Function.update_of_ne (fun e => h (by rw [e]; rfl)) ..
  | negSucc m => rfl

theorem count_opened (h : Census (· = some a) t k) (hn : t n = none) : Census (· = some a) (t.opened n a) (k + 1) :=
  h.enter (by simp [hn]) rfl

theorem count_opened_ne (h : Census (· = some a) t k) (hn : t n = none) (hb : b ≠ a) :
    Census (· = some a) (t.opened n b) k :=
  h.stay (by simp [hn, hb])

theorem count_closed (h : Census (· = some a) t (k + 1)) (hfd : t.named fd = some a) :
    Census (· = some a) (t.closed fd) k := by
  obtain ⟨n, rfl, hn⟩ := named_some_iff.mp hfd
  exact h.leave hn (by simp)

theorem count_closed_ne (h : Census (· = some a) t k) (hfd : t.named fd ≠ some a) :
    Census (· = some a) (t.closed fd) k := by
  cases fd with
  | ofNat n =>
    have hn : ¬ t n = some a := hfd
    exact h.stay (by simp [hn])
  | negSucc n => exact h

end FileTable
