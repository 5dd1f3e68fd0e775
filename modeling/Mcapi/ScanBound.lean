/-
  Mcapi.ScanBound — how far the scan of the endpoint table goes.

  `num_endpoints` is the bound of the scan. It starts at 1, a create adds one and a
  delete takes nothing off. With a driver that opens the lowest index that is not live
  (`LowestFree`), an endpoint is always below it, and the scan covers the table as long
  as the count stays within it (`Packed.covers`): for 31 creates, however many endpoints
  were deleted in between, and no longer (`scan_covers_iff`). With the 32nd the count
  is 33 (`thirty_two_creates_overrun`).
-/

import Mcapi.Sessions

namespace Mcapi

variable {E : Env} {db : Database} {n : U32}

/-! ## A packed table -/

/-- The scan covers exactly the table: every valid slot is below `num_endpoints`, which
    stays within the table, so that no lookup reads past it, and each valid endpoint's port
    leads to a valid endpoint on that port, the lowest one. -/
structure ScanCovers (db : Database) : Prop where
  below : ∀ k, (db.node0.endpoints k).valid = true → k.val < db.node0.numEndpoints.toNat
  bound : db.node0.numEndpoints.toNat ≤ maxEndpoints
  stays : ∀ m p, ∃ k, transGetPortIndex .std db m p = .ok k
  finds : ∀ k p, Holds db k p → ∃ j, transGetPortIndex .std db db.node0.nodeNum p = .ok (some j) ∧ Holds db j p ∧
    ∀ i, Holds db i p → j ≤ i

/-- The driver opens the lowest index that is not live. -/
def LowestFree (s : Tables) (l : CallRec) : Prop :=
  ∀ p, l.call = .endpointCreate p → ∃ k, slotOf (l.env.drv .create (createPkt p)).pkt.sessionIdx = .ok k ∧
    s.live k = none ∧ ∀ j < k, s.live j ≠ none

/-- The ports that a call creates endpoints on. -/
def CallRec.created (l : CallRec) : List U32 :=
  match l.call with
  | .endpointCreate p => [p]
  | _ => []

/-- The node is the only one, the tables are alike, and sessions are opened from below: no
    more indices are in use than the count says. -/
structure Packed (n : U32) (s : Tables) : Prop where
  node : OneNode n s.db
  mirrors : Mirrors s
  start : 0 < s.db.node0.numEndpoints.toNat
  bound : s.db.node0.numEndpoints.toNat ≤ maxEndpoints
  room : ∀ k, s.live k ≠ none → k.val + 1 < s.db.node0.numEndpoints.toNat

theorem Packed.covers {s : Tables} (h : Packed n s) : ScanCovers s.db := by
  have hvalid : ∀ k, (s.db.node0.endpoints k).valid = true → k.val < s.db.node0.numEndpoints.toNat := by
    intro k hk
    have hl := (h.mirrors k _).mp ⟨hk, rfl⟩
    have hroom := h.room k (by rw [hl]; exact nofun)
    omega
  refine ⟨hvalid, h.bound, ?_, ?_⟩
  · intro m p
    rw [h.node.portIndex]
    split
    · exact ⟨_, scan_within h.bound⟩
    · exact ⟨_, rfl⟩
  · intro k p hk
    have hmatch (i : Slot) (hi : Holds s.db i p) : portMatches s.db.node0 p i = true :=
      portMatches_iff.mpr ⟨hvalid i hi.1, hi⟩
    rw [h.node.portIndex, if_pos h.node.node, scan_within h.bound]
    cases hf : (List.finRange maxEndpoints).find? (portMatches s.db.node0 p) with
    | none =>
      have hno := Tables.find_eq_none_iff.mp hf k
      rw [hmatch k hk] at hno
      cases hno
    | some j =>
      obtain ⟨hj, hleast⟩ := Tables.find_eq_some_iff.mp hf
      refine ⟨j, rfl, (portMatches_iff.mp hj).2, ?_⟩
      intro i hi
      by_contra hlt
      have hno := hleast i (not_le.mp hlt)
      rw [hmatch i hi] at hno
      cases hno

/-- What a step adds to the count. -/
theorem JointEffect.count {s s' : Tables} {l : CallRec} (he : JointEffect s l s')
    (hb : s.db.node0.numEndpoints.toNat ≤ maxEndpoints) :
    s'.db.node0.numEndpoints.toNat = s.db.node0.numEndpoints.toNat + l.created.length := by
  cases he with
  | same e hc => simp [CallRec.created, hc]
  | created k p hc =>
    rw [setNode_node0, create_count _ k p hb]
    simp [CallRec.created, hc]
  | deleted k e hc =>
    rw [setNode_node0]
    simp [CallRec.created, hc, NodeEntry.delete]

/-- With room for one more, a step keeps the table packed. -/
theorem Packed.step {s s' : Tables} {l : CallRec} (h : Packed n s)
    (hs : Lts.Guarded (JointStep .std) LowestFree s l s')
    (hroom : s.db.node0.numEndpoints.toNat + l.created.length ≤ maxEndpoints) : Packed n s' := by
  obtain ⟨hlow, hs⟩ := hs
  have he := hs.effect rfl std_overrun_ne h.node h.mirrors
  obtain ⟨hnode, hmir⟩ := he.keeps h.node h.mirrors
  have hcount := he.count h.bound
  refine ⟨hnode, hmir, ?_, ?_, ?_⟩
  · rw [hcount]
    exact Nat.add_pos_left h.start _
  · rw [hcount]
    exact hroom
  · intro j hj
    rw [hcount]
    cases he with
    | same => exact Nat.lt_add_right _ (h.room j hj)
    | created k p hc hk =>
      have hone : l.created.length = 1 := by simp [CallRec.created, hc]
      by_cases hjk : j = k
      · -- the index before the one opened is live, or there is none
        subst hjk
        obtain ⟨k', hk', -, hbelow⟩ := hlow p hc
        cases hk.symm.trans hk'
        by_cases h0 : j.val = 0
        · have hstart := h.start
          omega
        · have hlt : (⟨j.val - 1, by omega⟩ : Slot) < j := by
            rw [Fin.lt_def]
            dsimp only
            omega
          have hj' := h.room ⟨j.val - 1, by omega⟩ (hbelow ⟨j.val - 1, by omega⟩ hlt)
          dsimp only at hj'
          omega
      · have hj' := h.room j (by simpa [hjk] using hj)
        omega
    | deleted k e hc =>
      have hjk : j ≠ k := by
        intro he
        rw [he] at hj
        exact hj (Function.update_self ..)
      exact Nat.lt_add_right _ (h.room j (by simpa [hjk] using hj))

theorem fresh_packed (d n : U32) (a : Option NodeAttributes) :
    Packed n (.fresh d n a) ∧ (Tables.fresh d n a).db.node0.numEndpoints.toNat = 1 := by
  obtain ⟨_, hn⟩ := fresh_node0 d n a
  have h1 : (Tables.fresh d n a).db.node0.numEndpoints.toNat = 1 := by rw [Tables.fresh, hn]; rfl
  refine ⟨⟨fresh_oneNode d n a, fresh_mirrors d n a, ?_, ?_, fun k hk => absurd rfl hk⟩, h1⟩
  · rw [h1]
    exact Nat.one_pos
  · rw [h1]
    decide

/-- The steps of this section. -/
abbrev LowestStep : Tables → CallRec → Tables → Prop := Lts.Guarded (JointStep .std) LowestFree

section
variable {d : U32} {a : Option NodeAttributes} {ls : List CallRec} {s : Tables}

/-- Up to 31 creates, the table is packed, and the count is one more than they are. -/
theorem packed_run (hrun : Lts.Run LowestStep (.fresh d n a) ls s) (hle : (ls.flatMap CallRec.created).length ≤ 31) :
    Packed n s := by
  have hacc : ([] ++ ls.flatMap CallRec.created).length ≤ 31 →
      Packed n s ∧ s.db.node0.numEndpoints.toNat = 1 + ([] ++ ls.flatMap CallRec.created).length := by
    refine hrun.accumulates (R := fun s acc => acc.length ≤ 31 →
      Packed n s ∧ s.db.node0.numEndpoints.toNat = 1 + acc.length) ?_ fun _ => fresh_packed d n a
    intro s l s' acc _ ih hs hle
    rw [List.length_append] at hle ⊢
    obtain ⟨hp, hc⟩ := ih (by omega)
    have hmax : maxEndpoints = 32 := rfl
    refine ⟨hp.step hs (by omega), ?_⟩
    have he := hs.2.effect rfl std_overrun_ne hp.node hp.mirrors
    rw [he.count hp.bound, hc]
    omega
  exact (hacc hle).1

/-- As long as the scan covers the table, the count is one more than the creates. -/
theorem count_of_covered (hrun : Lts.Run LowestStep (.fresh d n a) ls s)
    (hcov : ∀ pre mid, pre <+: ls → Lts.Run LowestStep (.fresh d n a) pre mid → ScanCovers mid.db) :
    s.db.node0.numEndpoints.toNat = 1 + (ls.flatMap CallRec.created).length := by
  induction ls using List.reverseRecOn generalizing s with
  | nil =>
    cases hrun
    exact (fresh_packed d n a).2
  | append_singleton ls l ih =>
    obtain ⟨mid, h1, h2⟩ := hrun.of_append
    have hpre := List.prefix_append ls [l]
    have hmid := ih h1 fun pre t hp ht => hcov pre t (hp.trans hpre) ht
    have hcovm := hcov ls mid hpre h1
    obtain ⟨hnode, hmir⟩ := mirrors_run rfl std_overrun_ne h1.of_guarded
    cases h2 with
    | cons hs h3 =>
      cases h3
      have he := hs.2.effect rfl std_overrun_ne hnode hmir
      rw [he.count hcovm.bound, hmid]
      simp [Nat.add_assoc]

/-- With a driver that opens the lowest index that is not live, the scan covers the table
    throughout a run of creates and deletes exactly when it has at most 31 creates. -/
theorem scan_covers_iff (hrun : Lts.Run LowestStep (.fresh d n a) ls s) :
    (∀ pre mid, pre <+: ls → Lts.Run LowestStep (.fresh d n a) pre mid → ScanCovers mid.db) ↔
      (ls.flatMap CallRec.created).length ≤ 31 := by
  constructor
  · intro hcov
    have hcount := count_of_covered hrun hcov
    have hbound := (hcov ls s (List.prefix_refl ls) hrun).bound
    have hmax : maxEndpoints = 32 := rfl
    omega
  · intro hle pre mid hpre hmid
    obtain ⟨suf, rfl⟩ := hpre
    rw [List.flatMap_append, List.length_append] at hle
    exact (packed_run hmid (by omega)).covers

end

/-- A create of port 5 where no session is live. -/
theorem create_five {s : Tables} (h : Packed 0 s) (hlive : s.live = fun _ => none) :
    ∃ l, l.call = .endpointCreate 5 ∧
      LowestStep s l ⟨s.db.setNode 0 (s.db.node0.create 0 5), Function.update s.live 0 (some 5)⟩ := by
  obtain ⟨l, hc, hE, hs⟩ := create_joint (B := .std) (E := sessionZero) (p := 5) (k := 0) rfl h.node h.mirrors rfl rfl
    (by rw [hlive])
  refine ⟨l, hc, fun p hp => ⟨0, ?_, by rw [hlive], fun j hj => ?_⟩, hs⟩
  · rw [hE]
    rfl
  · exact absurd hj (Nat.not_lt_zero _)

/-- A run of `m` creates of port 5, each followed by a delete. -/
theorem cycles (m : Nat) (hm : m ≤ 31) :
    ∃ ls s, Lts.Run LowestStep (.fresh 0 0 none) ls s ∧ (ls.flatMap CallRec.created).length = m ∧
      s.live = fun _ => none := by
  induction m with
  | zero => exact ⟨[], _, .nil _, rfl, rfl⟩
  | succ m ih =>
    obtain ⟨ls, s, hrun, hlen, hlive⟩ := ih (by omega)
    obtain ⟨l, hc, hs⟩ := create_five (packed_run hrun (by omega)) hlive
    have hrun1 := hrun.append (.single hs)
    have hlen1 : ((ls ++ [l]).flatMap CallRec.created).length = m + 1 := by simp [CallRec.created, hc, hlen]
    have hp1 := packed_run hrun1 (by omega)
    have hscan : scanPorts .std (s.db.setNode 0 (s.db.node0.create 0 5)).node0 5 = .ok (some 0) := by
      have hh : Holds (s.db.setNode 0 (s.db.node0.create 0 5)) 0 5 := holds_create.mpr (.inl ⟨rfl, rfl⟩)
      obtain ⟨j, hj, -, hleast⟩ := hp1.covers.finds 0 5 hh
      obtain rfl : j = 0 := Fin.ext (Nat.le_zero.mp (hleast 0 hh))
      rw [hp1.node.portIndex, if_pos hp1.node.node] at hj
      exact hj
    obtain ⟨l', hc', hs'⟩ := delete_joint (E := sessionZero) (p := 5) (k := 0) rfl std_overrun_ne hp1.node hp1.mirrors
      (by decide) rfl hscan (by rw [setNode_node0]; simp [NodeEntry.create, filledEntry])
    refine ⟨ls ++ [l] ++ [l'], _, hrun1.append (.single ⟨fun p hp => ?_, hs'⟩), ?_, ?_⟩
    · rw [hc'] at hp
      cases hp
    · rw [List.flatMap_append, List.length_append, hlen1]
      simp [CallRec.created, hc']
    · simp [hlive]

/-- After 31 of them, the scan still covers the table. -/
theorem thirty_one_creates_covered :
    ∃ ls s, Lts.Run LowestStep (.fresh 0 0 none) ls s ∧ (ls.flatMap CallRec.created).length = 31 ∧ ScanCovers s.db := by
  obtain ⟨ls, s, hrun, hlen, -⟩ := cycles 31 (Nat.le_refl 31)
  exact ⟨ls, s, hrun, hlen, (scan_covers_iff hrun).mpr (Nat.le_of_eq hlen) ls s (List.prefix_refl ls) hrun⟩

/-- After 32, the count is past the table. -/
theorem thirty_two_creates_overrun :
    ¬ ∀ d n a ls s, Lts.Run LowestStep (.fresh d n a) ls s → ScanCovers s.db := by
  intro h
  obtain ⟨ls, s, hrun, hlen, hlive⟩ := cycles 31 (Nat.le_refl 31)
  obtain ⟨l, hc, hs⟩ := create_five (packed_run hrun (by omega)) hlive
  have hcov := (scan_covers_iff (hrun.append (.single hs))).mp fun pre mid _ hmid => h 0 0 none pre mid hmid
  simp [CallRec.created, hc, hlen] at hcov

end Mcapi
