/-
  Mcapi.Lib.Boxes — mailboxes by key, and slots that hold them.

  A mailbox is opened and closed under its key; while it is open, messages are put in at the
  back, taken from the front and counted (`Step`). Over a run in which a mailbox stays
  open, what was in it and what is put in is, in order, what is taken out and what is left
  (`run_fifo`).

  `Shows f b`: the slots `f`, each empty or with a key and a queue, hold the mailboxes `b`,
  one slot for each key. Filling a slot under a new key, emptying one and writing its queue
  show what opening, closing and the others do.
-/

import Mcapi.Lib.Fifo
import Mathlib.Logic.Function.Basic

namespace Boxes

variable {K M S : Type}

/-- What is done to a mailbox. -/
inductive Deed (K M : Type) where
  | idle
  | opened (k : K)
  | closed (k : K)
  | put (k : K) (m : M)
  | took (k : K) (m : M)
  | counted (k : K) (n : Nat)

/-- The mailbox of a key, where one is open. -/
abbrev Mail (K M : Type) := K → Option (List M)

section
variable [DecidableEq K]

inductive Step (b : Mail K M) : Deed K M → Mail K M → Prop
  | idle : Step b .idle b
  | opened (k : K) : b k = none → Step b (.opened k) (Function.update b k (some []))
  | closed (k : K) (q : List M) : b k = some q → Step b (.closed k) (Function.update b k none)
  | put (k : K) (m : M) (q : List M) : b k = some q → Step b (.put k m) (Function.update b k (some (q ++ [m])))
  | took (k : K) (m : M) (q : List M) : b k = some (m :: q) → Step b (.took k m) (Function.update b k (some q))
  | counted (k : K) (q : List M) : b k = some q → Step b (.counted k q.length) b

/-- What is put into the mailbox of `k`. -/
def puts (k : K) : Deed K M → List M
  | .put j m => if j = k then [m] else []
  | _ => []

/-- What is taken from it. -/
def takes (k : K) : Deed K M → List M
  | .took j m => if j = k then [m] else []
  | _ => []

/-- One mailbox, over a step that does not close it. -/
theorem Step.moves {b b' : Mail K M} {d : Deed K M} (hs : Step b d b') {k : K} {q : List M} (hk : b k = some q)
    (hd : d ≠ .closed k) : ∃ q', b' k = some q' ∧ Fifo.Moves (puts k) (takes k) q d q' := by
  cases hs with
  | idle => exact ⟨q, hk, by simp [Fifo.Moves, puts, takes]⟩
  | opened j hj =>
    have hne : k ≠ j := by
      intro h
      rw [h, hj] at hk
      cases hk
    exact ⟨q, by rw [Function.update_of_ne hne, hk], by simp [Fifo.Moves, puts, takes]⟩
  | closed j p hj =>
    have hne : k ≠ j := by
      intro h
      exact hd (by rw [h])
    exact ⟨q, by rw [Function.update_of_ne hne, hk], by simp [Fifo.Moves, puts, takes]⟩
  | put j m p hj =>
    by_cases hne : j = k
    · subst hne
      rw [hk] at hj
      cases hj
      exact ⟨q ++ [m], by rw [Function.update_self], by simp [Fifo.Moves, puts, takes]⟩
    · exact ⟨q, by rw [Function.update_of_ne (Ne.symm hne), hk], by simp [Fifo.Moves, puts, takes, hne]⟩
  | took j m p hj =>
    by_cases hne : j = k
    · subst hne
      rw [hk] at hj
      cases hj
      exact ⟨p, by rw [Function.update_self], by simp [Fifo.Moves, puts, takes]⟩
    · exact ⟨q, by rw [Function.update_of_ne (Ne.symm hne), hk], by simp [Fifo.Moves, puts, takes, hne]⟩
  | counted j p hj => exact ⟨q, hk, by simp [Fifo.Moves, puts, takes]⟩

/-- While a mailbox is open, what is in it comes out in order, or is still there. -/
theorem run_fifo {b b' : Mail K M} {ds : List (Deed K M)} (h : Lts.Run Step b ds b') {k : K} {q : List M}
    (hk : b k = some q) (hd : ∀ d ∈ ds, d ≠ .closed k) :
    ∃ q', b' k = some q' ∧ q ++ ds.flatMap (puts k) = ds.flatMap (takes k) ++ q' := by
  have hmoves : ∃ q', b' k = some q' ∧ Lts.Run (Fifo.Moves (puts k) (takes k)) q ds q' := by
    induction h generalizing q with
    | nil b => exact ⟨q, hk, .nil q⟩
    | cons hs _ ih =>
      obtain ⟨q1, hk1, hm⟩ := hs.moves hk (hd _ List.mem_cons_self)
      obtain ⟨q2, hk2, hrun⟩ := ih hk1 fun d hmem => hd d (List.mem_cons_of_mem _ hmem)
      exact ⟨q2, hk2, .cons hm hrun⟩
  obtain ⟨q', hk', hrun⟩ := hmoves
  exact ⟨q', hk', Fifo.run_moves hrun⟩

/-! ## Slots that hold mailboxes -/

end

structure Shows (f : S → Option (K × List M)) (b : Mail K M) : Prop where
  same : ∀ k q, b k = some q ↔ ∃ s, f s = some (k, q)
  distinct : ∀ s t k q p, f s = some (k, q) → f t = some (k, p) → s = t

theorem Shows.empty : Shows (fun _ : S => (none : Option (K × List M))) fun _ => none := by
  refine ⟨fun k q => ⟨fun h => ?_, fun h => ?_⟩, fun s t k q p h => ?_⟩
  · cases h
  · obtain ⟨s, h⟩ := h
    cases h
  · cases h

variable {f : S → Option (K × List M)} {b : Mail K M}

theorem Shows.mail (h : Shows f b) {s : S} {k : K} {q : List M} (hs : f s = some (k, q)) : b k = some q :=
  (h.same k q).mpr ⟨s, hs⟩

/-- No slot has the key of a mailbox that is not open. -/
theorem Shows.none_iff (h : Shows f b) {k : K} : b k = none ↔ ∀ s q, f s ≠ some (k, q) := by
  constructor
  · intro hk s q hs
    rw [h.mail hs] at hk
    cases hk
  · intro hno
    cases hk : b k with
    | none => rfl
    | some q =>
      obtain ⟨s, hs⟩ := (h.same k q).mp hk
      exact absurd hs (hno s q)

variable [DecidableEq K] [DecidableEq S]

/-- The slot of a key, or one that is free for it, written. -/
theorem Shows.write (h : Shows f b) {s : S} {k : K} (hs : ∀ j q, f s = some (j, q) → j = k)
    (hk : ∀ t q, f t = some (k, q) → t = s) (v : Option (List M)) :
    Shows (Function.update f s (v.map (Prod.mk k))) (Function.update b k v) := by
  have hother (t : S) (ht : t ≠ s) (j : K) (q : List M) : f t = some (j, q) → j ≠ k := by
    intro hj hjk
    exact ht (hk t q (hjk ▸ hj))
  refine ⟨fun j q => ?_, fun t u j q p ht hu => ?_⟩
  · by_cases hj : j = k
    · subst hj
      rw [Function.update_self]
      constructor
      · intro hv
        exact ⟨s, by rw [Function.update_self, hv]; rfl⟩
      · intro hq
        obtain ⟨t, ht⟩ := hq
        by_cases hts : t = s
        · subst hts
          rw [Function.update_self] at ht
          obtain ⟨q', hv, heq⟩ := Option.map_eq_some_iff.mp ht
          cases heq
          exact hv
        · rw [Function.update_of_ne hts] at ht
          exact absurd rfl (hother t hts j q ht)
    · rw [Function.update_of_ne hj, h.same j q]
      constructor
      · intro hq
        obtain ⟨t, ht⟩ := hq
        have hts : t ≠ s := by
          intro he
          exact hj (hs j q (he ▸ ht))
        exact ⟨t, by rw [Function.update_of_ne hts, ht]⟩
      · intro hq
        obtain ⟨t, ht⟩ := hq
        by_cases hts : t = s
        · subst hts
          rw [Function.update_self] at ht
          obtain ⟨q', -, heq⟩ := Option.map_eq_some_iff.mp ht
          cases heq
          exact absurd rfl hj
        · rw [Function.update_of_ne hts] at ht
          exact ⟨t, ht⟩
  · by_cases hj : j = k
    · -- only `s` has the key
      subst hj
      have only (x : S) (y : List M) (hx : Function.update f s (v.map (Prod.mk j)) x = some (j, y)) : x = s := by
        by_contra hxs
        rw [Function.update_of_ne hxs] at hx
        exact hother x hxs j y hx rfl
      rw [only t q ht, only u p hu]
    · have away (x : S) (y : List M) (hx : Function.update f s (v.map (Prod.mk k)) x = some (j, y)) :
          f x = some (j, y) := by
        by_cases hxs : x = s
        · subst hxs
          rw [Function.update_self] at hx
          obtain ⟨q', -, heq⟩ := Option.map_eq_some_iff.mp hx
          cases heq
          exact absurd rfl hj
        · rwa [Function.update_of_ne hxs] at hx
      exact h.distinct t u j q p (away t q ht) (away u p hu)

/-- An empty slot filled under a key that no slot has opens its mailbox. -/
theorem Shows.fill (h : Shows f b) {s : S} {k : K} (hs : f s = none) (hk : ∀ t q, f t ≠ some (k, q)) :
    Step b (.opened k) (Function.update b k (some [])) ∧
      Shows (Function.update f s (some (k, []))) (Function.update b k (some [])) := by
  refine ⟨.opened k (h.none_iff.mpr hk), h.write ?_ (fun t q ht => absurd ht (hk t q)) (some [])⟩
  intro j q hj
  rw [hs] at hj
  cases hj

/-- Writing the slot of a key writes its mailbox. -/
theorem Shows.rewrite (h : Shows f b) {s : S} {k : K} {q : List M} (hs : f s = some (k, q)) (v : Option (List M)) :
    Shows (Function.update f s (v.map (Prod.mk k))) (Function.update b k v) := by
  refine h.write ?_ (fun t p ht => h.distinct t s k p q ht hs) v
  intro j p hj
  rw [hs] at hj
  cases hj
  rfl

end Boxes
