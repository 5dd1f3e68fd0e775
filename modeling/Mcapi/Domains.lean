/-
  Mcapi.Domains — the registry over whole runs of the system.

  A call writes to the domains only where it creates or deletes an endpoint
  (`TableEffect`), which leaves ids and numbers alone. So in every state of the system
  the registry of the segment satisfies `RegistryInv` and its first node is there
  (`registered_run`).
-/

import Mcapi.Registry
import Mcapi.Processes

namespace Mcapi

variable {E : Env} {w w' : World} {db db' : Database}

/-! ## What a call does to the domains -/

/-- A call leaves the domains alone, or it creates or deletes an endpoint. -/
inductive TableEffect (E : Env) (call : Call) (ret : Ret) (db : Database) : Database → Prop
  | kept (db' : Database) : db'.domains = db.domains → TableEffect E call ret db db'
  | created (i : Fin maxNodes) (k : Slot) (p : U32) (db' : Database) : call = .endpointCreate p →
      transGetNodeIndex .std db (transGetNodeNum db) = .ok (some i) →
      slotOf (E.drv .create (createPkt p)).pkt.sessionIdx = .ok k →
      (((db.domains 0).nodes i).endpoints k).valid = false →
      ret = .value (endpointHandle (transGetNodeNum db) p) .success →
      db' = db.setNode i (((db.domains 0).nodes i).create k p) → TableEffect E call ret db db'
  | deleted (i : Fin maxNodes) (k : Slot) (e : U32) (db' : Database) : call = .endpointDelete e →
      transGetNodeIndex .std db ((transDecodeHandleInternal e).nodeId.setWidth 32) = .ok (some i) →
      lookup db e = .ok (some k) →
      db' = db.setNode i (((db.domains 0).nodes i).delete k) → TableEffect E call ret db db'

theorem issue_domains {i : Issuer} {q : Option U32} {x : Issue} (h : i.exec .std E w q = .ok (x, w')) :
    w'.db.domains = w.db.domains := by
  cases issue_cases h with
  | refused => rfl
  | found w' _ hdb => rw [hdb]
  | limit => rfl
  | missing => rfl
  | noBuffer id w' _ _ _ hdb => rw [hdb]; rfl
  | command id c p w' _ _ _ hdb => rw [hdb]; rfl

theorem dropped_domains (db : Database) (r : Req) : (dropped db r).domains = db.domains := by
  unfold dropped
  split <;> rfl

theorem test_domains {v : U32} {size : Option U32} {d : Done} (h : test .std E w v size = .ok (d, w')) :
    w'.db.domains = w.db.domains := by
  cases test_cases h with
  | refused => rfl
  | ended => rfl
  | pending r t d w' _ _ _ _ _ _ _ hdb => rw [hdb]
  | done r t d w' size _ _ _ _ _ _ hdb => rw [hdb]; rfl

theorem wait_domains {v timeout : U32} {size : Option U32} {d : Done} (h : wait .std E w v size timeout = .ok (d, w')) :
    w'.db.domains = w.db.domains := by
  cases wait_cases h with
  | refused => rfl
  | gone => rfl
  | already r d w' _ _ _ _ _ hdb => rw [hdb, dropped_domains]
  | failed r t d w' _ _ _ _ _ _ _ hdb => rw [hdb, dropped_domains]
  | done r t d w' rec _ _ _ _ _ _ _ hdb => rw [hdb, dropped_domains]; rfl

theorem exec_table {c : Call} {x : Ret} (h : c.exec .std E w = .ok (x, w')) : TableEffect E c x w.db w'.db := by
  cases c with
  | domainIdGet => cases h; exact .kept _ rfl
  | nodeIdGet => cases h; exact .kept _ rfl
  | endpointCreate p =>
    obtain ⟨⟨⟨v, st⟩, w1⟩, hx, h⟩ := bind_eq_ok.mp h
    cases h
    cases create_cases hx with
    | notInit => exact .kept _ rfl
    | created i k w' hi hk hfree hdb _ => exact .created i k p _ rfl hi hk hfree rfl hdb
  | endpointGetI d n p e q =>
    obtain ⟨y, -, hx⟩ := issue_exec (i := .endpointGetI d n p e) h
    exact .kept _ (issue_domains hx)
  | endpointGet d n p t =>
    obtain ⟨⟨⟨v, st⟩, w1⟩, hx, h⟩ := bind_eq_ok.mp h
    cases h
    exact .kept _ (congrArg _ (get_db hx))
  | endpointDelete e =>
    obtain ⟨⟨st, w1⟩, hx, h⟩ := bind_eq_ok.mp h
    cases h
    cases delete_cases hx with
    | refused => exact .kept _ rfl
    | deleted i k w' _ hi hk hdb _ => exact .deleted i k e _ rfl hi hk hdb
  | endpointGetAttribute e =>
    obtain ⟨⟨st, w1⟩, hx, h⟩ := bind_eq_ok.mp h
    cases h
    exact .kept _ (congrArg _ (getAttribute_db hx))
  | msgSendI s r b n p q =>
    obtain ⟨y, -, hx⟩ := issue_exec (i := .msgSendI s r b n p) h
    exact .kept _ (issue_domains hx)
  | msgSend s r b n p =>
    obtain ⟨⟨st, w1⟩, hx, h⟩ := bind_eq_ok.mp h
    cases h
    exact .kept _ (congrArg _ (send_db hx))
  | msgRecvI r b n q =>
    obtain ⟨y, -, hx⟩ := issue_exec (i := .msgRecvI r b n) h
    exact .kept _ (issue_domains hx)
  | msgRecv r b n m =>
    obtain ⟨⟨⟨st, v⟩, w1⟩, hx, h⟩ := bind_eq_ok.mp h
    cases h
    exact .kept _ (congrArg _ (recv_db hx))
  | msgAvailable r =>
    obtain ⟨⟨⟨v, st⟩, w1⟩, hx, h⟩ := bind_eq_ok.mp h
    cases h
    exact .kept _ (congrArg _ (available_db hx))
  | test v size =>
    obtain ⟨⟨d, w1⟩, hx, h⟩ := bind_eq_ok.mp h
    cases h
    exact .kept _ (test_domains hx)
  | wait v size timeout =>
    obtain ⟨⟨d, w1⟩, hx, h⟩ := bind_eq_ok.mp h
    cases h
    exact .kept _ (wait_domains hx)

theorem CallStep.table {l : CallRec} (hs : CallStep db l db') : TableEffect l.env l.call l.ret db db' := by
  obtain ⟨rfl, rfl, -, h⟩ := hs
  exact exec_table h

/-! ## The registry -/

/-- The same domains and nodes, whatever their endpoints. -/
structure SameRegistry (db db' : Database) : Prop where
  valid : ∀ i, (db'.domains i).valid = (db.domains i).valid
  ids : ∀ i, (db'.domains i).domainId = (db.domains i).domainId
  numNodes : ∀ i, (db'.domains i).numNodes = (db.domains i).numNodes
  nodes : ∀ i j, ((db'.domains i).nodes j).valid = ((db.domains i).nodes j).valid
  numbers : ∀ i j, ((db'.domains i).nodes j).nodeNum = ((db.domains i).nodes j).nodeNum

theorem SameRegistry.of_eq (h : db'.domains = db.domains) : SameRegistry db db' := by
  refine ⟨?_, ?_, ?_, ?_, ?_⟩ <;> · rw [h]; intros; rfl

theorem SameRegistry.setNode {i : Fin maxNodes} {x : NodeEntry} (hv : x.valid = ((db.domains 0).nodes i).valid)
    (hn : x.nodeNum = ((db.domains 0).nodes i).nodeNum) : SameRegistry db (db.setNode i x) := by
  have hother (m : Fin maxDomains) (hm : m ≠ 0) : (db.setNode i x).domains m = db.domains m :=
    Function.update_of_ne hm ..
  have hself : (db.setNode i x).domains 0 =
      { db.domains 0 with nodes := Function.update (db.domains 0).nodes i x } := by
    simp [Database.setNode]
  refine ⟨fun m => ?_, fun m => ?_, fun m => ?_, fun m j => ?_, fun m j => ?_⟩
  all_goals
    by_cases hm : m = 0
    · rw [hm, hself]
      try
        by_cases hj : j = i
        · rw [hj]; simp [hv, hn]
        · simp [hj]
    · rw [hother m hm]

theorem TableEffect.sameRegistry {c : Call} {x : Ret} (h : TableEffect E c x db db') : SameRegistry db db' := by
  cases h with
  | kept db' hd => exact .of_eq hd
  | created i k p db' _ _ _ _ _ hdb => rw [hdb]; exact .setNode rfl rfl
  | deleted i k e db' _ _ _ hdb => rw [hdb]; exact .setNode rfl rfl

theorem DomainInv.congr {x y : DomainEntry} (h : DomainInv x) (hc : y.numNodes = x.numNodes)
    (hv : ∀ j, (y.nodes j).valid = (x.nodes j).valid) (hn : ∀ j, (y.nodes j).nodeNum = (x.nodes j).nodeNum) :
    DomainInv y := by
  refine ⟨?_, ?_, ?_⟩
  · intro j
    rw [hc]
    dsimp only
    rw [hv j]
    exact h.filled j
  · rw [hc]
    exact h.bound
  · intro i j hi hj he
    rw [hv] at hi hj
    rw [hn, hn] at he
    exact h.distinct i j hi hj he

theorem RegistryInv.congr (h : RegistryInv db) (hs : SameRegistry db db') : RegistryInv db' := by
  refine ⟨?_, fun i j hi hj he => ?_, fun i => (h.nodes i).congr (hs.numNodes i) (hs.nodes i) (hs.numbers i),
    fun i hi => ?_⟩
  · obtain ⟨k, hk⟩ := h.filled
    refine ⟨k, fun i => ?_⟩
    dsimp only
    rw [hs.valid i]
    exact hk i
  · rw [hs.valid] at hi hj
    rw [hs.ids, hs.ids] at he
    exact h.distinct i j hi hj he
  · rw [hs.valid] at hi
    rw [hs.ids, hs.numNodes]
    exact h.unused i hi

/-! ## The registry in runs of the system -/

/-- The registry is in order, and its first node is there. -/
structure Registered (db : Database) : Prop where
  inv : RegistryInv db
  domain0 : (db.domains 0).valid = true
  node0 : db.node0.valid = true

theorem Registered.congr (h : Registered db) (hs : SameRegistry db db') : Registered db' :=
  ⟨h.inv.congr hs, (hs.valid 0).trans h.domain0, (hs.nodes 0 0).trans h.node0⟩

/-- The first registration goes to the first entry. -/
theorem registers_first (h : db.domains = zeroed.domains) (d n : U32) : Registers db d n 0 0 := by
  have hunused : (List.finRange maxDomains).find? (fun i => !(db.domains i).valid) = some 0 := by rw [h]; decide
  refine ⟨by rw [h]; decide, ?_, ?_, by rw [h]; decide⟩
  · unfold domainSlot
    by_cases hd : d = 0
    · have hid : (List.finRange maxDomains).find? (fun i => (db.domains i).domainId == d) = some 0 := by
        rw [h, hd]; decide
      rw [hid, Option.some_or]
    · have hid : (List.finRange maxDomains).find? (fun i => (db.domains i).domainId == d) = none := by
        rw [h]
        exact Tables.find_eq_none_iff.mpr fun i => beq_eq_false_iff_ne.mpr fun he => hd he.symm
      rw [hid, Option.none_or, hunused]
  · rintro ⟨j, hj, -⟩
    rw [h] at hj
    cases hj

theorem Registers.unique {d n : U32} {i i' : Fin maxDomains} {j j' : Fin maxNodes} (h : Registers db d n i j)
    (h' : Registers db d n i' j') : i = i' ∧ j = j' := by
  have hi : i = i' := Option.some.inj (h.slot.symm.trans h'.slot)
  subst hi
  exact ⟨rfl, Option.some.inj (h.free.symm.trans h'.free)⟩

/-- A registration leaves what is valid valid. -/
theorem addNode_valid {i m : Fin maxDomains} {j k : Fin maxNodes} {d : U32} {y : NodeEntry} (hy : y.valid = true)
    (h : (m = i ∧ k = j) ∨ ((db.domains m).valid = true ∧ ((db.domains m).nodes k).valid = true)) :
    ((db.addNode i j d y).domains m).valid = true ∧ (((db.addNode i j d y).domains m).nodes k).valid = true := by
  by_cases hm : m = i
  · by_cases hk : k = j
    · simp [Database.addNode, hm, hk, hy]
    · have hv := (h.resolve_left fun he => hk he.2).2
      rw [hm] at hv
      simpa [Database.addNode, hm, hk] using hv
  · have hv := h.resolve_left fun he => hm he.1
    simpa [Database.addNode, hm] using hv

theorem Registered.addNode (h : db.domains = zeroed.domains ∨ Registered db) (d n : U32) (a : Option NodeAttributes) :
    Registered (transAddNode db d n a).2 := by
  have hinv : RegistryInv db := h.elim (fun he => zeroed_registry.congr (.of_eq he)) Registered.inv
  have hstep : RegistryInv (transAddNode db d n a).2 := hinv.step (c := ⟨d, n, a⟩) rfl
  have hcases := addNode_cases db d n a
  generalize transAddNode db d n a = x at hcases hstep ⊢
  cases hcases with
  | refused hno =>
    rcases h with he | h
    · exact absurd (registers_first he d n) (hno 0 0)
    · exact h
  | added i j attributes hr =>
    have hfirst : ((0 : Fin maxDomains) = i ∧ (0 : Fin maxNodes) = j) ∨
        ((db.domains 0).valid = true ∧ ((db.domains 0).nodes 0).valid = true) := by
      rcases h with he | h
      · exact .inl ((registers_first he d n).unique hr)
      · exact .inr ⟨h.domain0, h.node0⟩
    obtain ⟨hd, hn⟩ := addNode_valid (d := d) (y := ⟨n, true, attributes, 1, fun _ => {}⟩) rfl hfirst
    exact ⟨hstep, hd, hn⟩

theorem registered_run {s : Sys} (h : Lts.Reachable SysStep Sys.init s) : ∀ g, s.seg = some g → Registered g.db := by
  refine h.invariant (I := fun s => ∀ g, s.seg = some g → Registered g.db) (fun g hg => nomatch hg) ?_
  intro s l s' ih hs
  refine segment_keeps ih hs ?_ fun db c db' hc h => h.congr hc.table.sameRegistry
  intro p d n a o db _ _ hdb
  refine .addNode ?_ d n a
  rcases hdb with rfl | ⟨g, hg, rfl⟩
  · exact .inl rfl
  · exact .inr ((ih g hg).congr (.of_eq rfl))

theorem Reached.registered (h : Reached db) : Registered db := by
  obtain ⟨s, g, ⟨ls, hs⟩, hg, rfl⟩ := h
  exact registered_run ⟨ls, hs.of_guarded⟩ g hg

end Mcapi
