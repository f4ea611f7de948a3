import DsSqlDps.Config.RoundTrip

/-!
# Offers for one dataset id

When a dataset id is seeded more than once, permissions of different offers have the same place.
The rows of two such permissions may be mixed by a sort, so that the loop over the rows makes more
entries than there are permissions.
-/

namespace DsSqlDps
open Rdf Sparql Vocab

/-! ## Permissions with one place -/

/-- The permissions of all offers for the dataset. -/
def permissionsOf (os : List FileOffer) (d : String) : List PermissionSpec :=
  (os.filter fun o => o.datasetId = d).flatMap (·.permissions)

/-- Rows of the two permissions cannot be mixed: if one has several constraints, the other has
none. -/
def Separate (p q : PermissionSpec) : Prop :=
  (2 ≤ p.constraints.length → q.constraints = []) ∧
    (2 ≤ q.constraints.length → p.constraints = [])

instance (p q : PermissionSpec) : Decidable (Separate p q) := inferInstanceAs (Decidable (_ ∧ _))

/-- Of any two offers for the dataset, the permissions at the same place are separate. -/
def Unmixed (os : List FileOffer) (d : String) : Prop :=
  (os.filter fun o => o.datasetId = d).Pairwise fun o o' =>
    ∀ pq ∈ o.permissions.zip o'.permissions, Separate pq.1 pq.2

instance (os : List FileOffer) (d : String) : Decidable (Unmixed os d) :=
  inferInstanceAs (Decidable (List.Pairwise _ _))

theorem nodesOf_spec (ss : List Seeding) (d : String) :
    (nodesOf ss d).map (·.spec) = permissionsOf (ss.map (·.offer)) d := by
  rw [permissionsOf, nodesOf, List.filter_map, List.flatMap_map, List.map_flatMap]
  exact List.flatMap_congr fun σ _ => σ.nodes_spec

theorem order_of_getElem? {i id k : ℕ} {ps : List PermissionSpec} {n : PermissionNode}
    (h : (permissionNodes i id ps)[k]? = some n) : n.order = i + k := by
  induction ps generalizing i id k with
  | nil => cases h
  | cons p ps ih =>
    cases k with
    | zero =>
      obtain rfl := Option.some.inj h
      rfl
    | succ k =>
      have hk := ih (i := i + 1) (k := k) h
      omega

theorem Seeding.mem_zip_nodes {σ τ : Seeding} {n m : PermissionNode} :
    (n, m) ∈ σ.nodes.zip τ.nodes ↔ n ∈ σ.nodes ∧ m ∈ τ.nodes ∧ n.order = m.order := by
  constructor
  · intro h
    obtain ⟨k, hk⟩ := List.mem_iff_getElem?.mp h
    obtain ⟨hn, hm⟩ := List.getElem?_zip_eq_some.mp hk
    refine ⟨List.mem_of_getElem? hn, List.mem_of_getElem? hm, ?_⟩
    rw [order_of_getElem? hn, order_of_getElem? hm]
  · rintro ⟨hn, hm, he⟩
    obtain ⟨k, hk⟩ := List.mem_iff_getElem?.mp hn
    obtain ⟨j, hj⟩ := List.mem_iff_getElem?.mp hm
    rw [order_of_getElem? hk, order_of_getElem? hj, Nat.zero_add, Nat.zero_add] at he
    rw [← he] at hj
    exact List.mem_iff_getElem?.mpr ⟨k, List.getElem?_zip_eq_some.mpr ⟨hk, hj⟩⟩

theorem forall_zip_permissions {σ τ : Seeding} :
    (∀ pq ∈ σ.offer.permissions.zip τ.offer.permissions, Separate pq.1 pq.2) ↔
      ∀ n ∈ σ.nodes, ∀ m ∈ τ.nodes, n.order = m.order → Separate n.spec m.spec := by
  rw [← σ.nodes_spec, ← τ.nodes_spec, List.zip_map]
  constructor
  · intro h n hn m hm he
    exact h _ (List.mem_map_of_mem (Seeding.mem_zip_nodes.mpr ⟨hn, hm, he⟩))
  · intro h pq hpq
    obtain ⟨⟨n, m⟩, hnm, rfl⟩ := List.mem_map.mp hpq
    obtain ⟨hn, hm, he⟩ := Seeding.mem_zip_nodes.mp hnm
    exact h n hn m hm he

theorem constraints_spec_eq_nil {n : PermissionNode} :
    n.spec.constraints = [] ↔ n.constraints = [] := List.map_eq_nil_iff

theorem separate_spec_iff {n m : PermissionNode} : Separate n.spec m.spec ↔
    (2 ≤ n.constraints.length → m.constraints = []) ∧
      (2 ≤ m.constraints.length → n.constraints = []) := by
  simp only [Separate, constraints_spec_eq_nil]
  simp [PermissionNode.spec]

/-- The nodes that were seeded are apart exactly if the permissions are. -/
theorem Ledger.apart_iff {g : ConfigGraph} {ss : List Seeding} (h : Ledger g ss) (d : String) :
    Apart (nodesOf ss d) ↔ Unmixed (ss.map (·.offer)) d := by
  have hu : Unmixed (ss.map (·.offer)) d ↔ (ss.filter fun σ => σ.offer.datasetId = d).Pairwise
      fun σ τ => ∀ n ∈ σ.nodes, ∀ m ∈ τ.nodes, n.order = m.order → Separate n.spec m.spec := by
    rw [Unmixed, List.filter_map, List.pairwise_map]
    simp only [forall_zip_permissions]
    rfl
  have hdisj : (ss.filter fun σ => σ.offer.datasetId = d).Pairwise
      fun σ τ => σ.ids.Disjoint τ.ids :=
    (List.nodup_flatMap.mp h.nodup).2.sublist List.filter_sublist
  have hid {σ : Seeding} {n : PermissionNode} (hn : n ∈ σ.nodes) : n.id ∈ σ.ids :=
    List.mem_flatMap.mpr ⟨n, hn, List.mem_cons_self⟩
  rw [hu]
  constructor
  · intro ha
    refine hdisj.imp_of_mem fun {σ τ} hσ hτ hst n hn m hm he => ?_
    have hne : n.id ≠ m.id := fun hi => hst (hid hn) (hi ▸ hid hm)
    have hmem {ρ : Seeding} (hρ : ρ ∈ ss.filter fun σ => σ.offer.datasetId = d)
        {k : PermissionNode} (hk : k ∈ ρ.nodes) : k ∈ nodesOf ss d :=
      List.mem_flatMap.mpr ⟨ρ, hρ, hk⟩
    exact separate_spec_iff.mpr ⟨ha n (hmem hσ hn) m (hmem hτ hm) he hne,
      ha m (hmem hτ hm) n (hmem hσ hn) he.symm hne.symm⟩
  · intro hp n hn m hm he hne hl
    obtain ⟨σ, hσ, hn⟩ := List.mem_flatMap.mp hn
    obtain ⟨τ, hτ, hm⟩ := List.mem_flatMap.mp hm
    by_cases hst : σ = τ
    · -- within one seeding, the place tells the permission
      subst hst
      have hs : Std.Symm fun n n' : PermissionNode => n.order ≠ n'.order := ⟨fun _ _ h => h.symm⟩
      have hinc := (permissionNodes_increasing 0 σ.base σ.offer.permissions).imp
        fun hlt => Nat.ne_of_lt hlt
      have hnm : n ≠ m := fun hnm => hne (congrArg _ hnm)
      exact absurd he (hinc.forall hn hm hnm)
    · have hs : Std.Symm fun σ τ : Seeding => ∀ n ∈ σ.nodes, ∀ m ∈ τ.nodes, n.order = m.order →
          Separate n.spec m.spec :=
        ⟨fun _ _ h n hn m hm he => (h m hm n hn he.symm).symm⟩
      exact (separate_spec_iff.mp (hp.forall hσ hτ hst n hn m hm he)).1 hl

/-! ## Rows in a chosen order -/

theorem policyRows_reference (tie : Solution → ℕ) (s : Store) {d e : String}
    (hd : '>' ∉ d.toList) (hs : spelled d = some e) :
    policyRows (.reference tie) s d =
      .ok (((rowsPattern (policyIri e)).answer tie s).map
        (Solution.project (rowsPattern (policyIri e)).select)) := by
  have hi : readIri (policyIri d).toList = some (policyIri e).toList := by
    rw [readIri_policyIri, hs, Option.map_some]
  refine select_rows ?_
  simp only [Engine.reference, readQuery_rowsQuery hd, openVerdict, hi, String.ofList_toList]

theorem head_order {i id : ℕ} {ps : List PermissionSpec} {n : PermissionNode}
    (h : n ∈ permissionNodes i id ps) {c : ConstraintNode} {cs : List ConstraintNode}
    (hc : n.constraints = c :: cs) : c.order = 0 := by
  induction ps generalizing i id with
  | nil => exact absurd h List.not_mem_nil
  | cons p ps ih =>
    rcases List.mem_cons.mp h with rfl | h
    · dsimp only at hc
      cases hp : p.constraints with
      | nil =>
        rw [hp] at hc
        cases hc
      | cons c' cs' =>
        rw [hp, constraintNodes] at hc
        injection hc with hc
        rw [← hc]
    · exact ih h

/-- A row of one node, one of another and a second one of the first, if the sort puts the first
row of the first node before the row of the other. -/
theorem exists_mixed {ss : List Seeding} {d : String} (hn : ¬ Apart (nodesOf ss d)) :
    ∃ a b c : Row, (∀ r ∈ [a, b, c], r ∈ (nodesOf ss d).flatMap (·.rows)) ∧
      nodeId a = nodeId c ∧ nodeId b ≠ nodeId a ∧ RowLE a b ∧ RowLE b a ∧ ¬ RowLE c b := by
  unfold Apart at hn
  push Not at hn
  obtain ⟨n, hn, m, hm, he, hne, hl, hnil⟩ := hn
  obtain ⟨c₀, c₁, cs, hcs⟩ : ∃ c₀ c₁ cs, n.constraints = c₀ :: c₁ :: cs := by
    rcases hc : n.constraints with _ | ⟨c₀, _ | ⟨c₁, cs⟩⟩
    · simp [hc] at hl
    · simp [hc] at hl
    · exact ⟨c₀, c₁, cs, rfl⟩
  obtain ⟨c', cs', hcs'⟩ := List.exists_cons_of_ne_nil hnil
  have hrow {k : PermissionNode} (hk : k ∈ nodesOf ss d) {c : ConstraintNode}
      (hc : c ∈ k.constraints) : (k, some c) ∈ (nodesOf ss d).flatMap (·.rows) :=
    List.mem_flatMap.mpr ⟨k, hk, mem_rows.mpr ⟨rfl, Or.inr ⟨c, hc, rfl⟩⟩⟩
  obtain ⟨σ, -, -, hnσ⟩ := Ledger.mem_nodesOf.mp hn
  obtain ⟨τ, -, -, hmτ⟩ := Ledger.mem_nodesOf.mp hm
  -- all constraints are counted from 0, so the first rows of both nodes are tied
  have h₀ : c₀.order = 0 := head_order hnσ hcs
  have h' : c'.order = 0 := head_order hmτ hcs'
  have h₁ : c₀.order < c₁.order := by
    have hp := σ.increasing n hnσ
    rw [hcs] at hp
    exact (List.pairwise_cons.mp hp).1 c₁ List.mem_cons_self
  refine ⟨(n, some c₀), (m, some c'), (n, some c₁), ?_, rfl, hne.symm, ?_, ?_, ?_⟩
  · simp only [List.forall_mem_cons]
    exact ⟨hrow hn (by simp [hcs]), hrow hm (by simp [hcs']), hrow hn (by simp [hcs]), by simp⟩
  all_goals
    simp only [RowLE, rowRank, Option.map_some, Option.getD_some]
    omega

/-- Where permissions are not apart, some order of the tied rows makes too many entries. -/
theorem FullLedger.exists_split {g : ConfigGraph} {ss : List Seeding} (h : FullLedger g ss)
    {d : String} {σ : Seeding} (hσ : σ ∈ ss) (hd : '>' ∉ d.toList)
    (hs : DsSqlDps.spelled d = some σ.offer.datasetId)
    (hn : ¬ Apart (nodesOf ss σ.offer.datasetId)) :
    ∃ tie p t a entries,
      policyJsonld (.reference tie) g.store d = .ok (policyObject p t a entries) ∧
        (nodesOf ss σ.offer.datasetId).length < entries.length := by
  obtain ⟨a, b, c, hmem, hac, hba, hab, hle, hcb⟩ := exists_mixed hn
  -- the row `a` goes before all rows that are tied with it
  let tie : Solution → ℕ := fun μ => if μ = rowSolution a then 0 else 1
  obtain ⟨τ, hτ, hτd, l', -, hp⟩ := h.exists_policyJsonld (.reference tie) hσ hd hs
  obtain ⟨t, as, rows, -, hr, hdoc⟩ := policyJsonld_eq_ok _ hp
  refine ⟨tie, _, t, as, permissionEntries rows, by rw [hp, hdoc], ?_⟩
  rw [policyRows_reference tie g.store hd hs] at hr
  -- the rows as the engine sorts them, ties included
  obtain ⟨l, hl, hsols⟩ := (h.toLedger.roles σ.offer.datasetId).exists_rows
    (Query.answer_perm (rowsPattern (policyIri σ.offer.datasetId)) tie g.store)
  have hpair := Query.answer_sorted (rowsPattern (policyIri σ.offer.datasetId)) tie g.store
  rw [hsols, List.pairwise_map] at hpair
  rw [hsols, List.map_map] at hr
  obtain rfl := Except.ok.inj hr
  have hsorted : l.Pairwise RowLE :=
    hpair.imp fun hle => (key_le_iff _ _ _).mp (Engine.key_le_of_append hle)
  have hrows := h.toLedger.sortedRows hl hsorted
  rw [Ledger.shownNodes_eq fun τ hτ _ => h.complete τ hτ] at hl hrows
  have hin {r : Row} (hr : r ∈ [a, b, c]) : r ∈ l := hl.mem_iff.mpr (hmem r hr)
  have hne {r : Row} (hr : nodeId r = nodeId a) : r ≠ b := by
    rintro rfl
    exact hba hr
  -- `a` comes before `b` by the tie, and `b` before `c` by the sort
  have hsublist : [a, b, c].Sublist l := by
    refine Runs.sublist_of_pairwise hpair (hin (by simp)) (hin (by simp)) (hin (by simp))
      (hne rfl) (fun hba' => ?_) (hne hac.symm).symm
      fun hcb' => hcb ((key_le_iff _ _ _).mp (Engine.key_le_of_append hcb'))
    have hkey := le_antisymm ((key_le_iff (policyIri σ.offer.datasetId) _ _).mpr hab)
      ((key_le_iff _ _ _).mpr hle)
    have hb : rowSolution b ≠ rowSolution a := fun hs =>
      hba (congrArg Prod.fst (rowId_of_rowSolution hs))
    rw [hkey, show tie (rowSolution b) = 1 from if_neg hb, show tie (rowSolution a) = 0 from
      if_pos rfl, key_rowSolution] at hba'
    exact absurd hba' (not_le.mpr (by simp [List.cons_lt_cons_iff]))
  -- with as many entries as nodes, no node would be interrupted
  by_contra hlen
  exact hba (hrows.uninterrupted_of_length (not_lt.mp hlen) a b c hsublist hac)

/-! ## The result -/

/-- Every entry of the policy is a permission of an offer for the dataset, complete and in order,
and there are as many entries as permissions. -/
def Intact (os : List FileOffer) (d : String) (doc : Json.Value) : Prop :=
  ∃ entries, doc.field? "permission" = some (.arr entries) ∧
    (∀ e ∈ entries, ∃ p ∈ permissionsOf os d, e = p.json) ∧
    entries.length = (permissionsOf os d).length

theorem field?_policyObject (p t a : String) (entries : List Json.Value) :
    (policyObject p t a entries).field? "permission" = some (.arr entries) := by
  unfold policyObject
  simp [Json.Value.field?, List.lookup_cons]

theorem intact_policyObject {os : List FileOffer} {d p t a : String} {entries : List Json.Value} :
    Intact os d (policyObject p t a entries) ↔
      (∀ e ∈ entries, ∃ p ∈ permissionsOf os d, e = p.json) ∧
        entries.length = (permissionsOf os d).length := by
  rw [Intact, field?_policyObject]
  constructor
  · rintro ⟨es, he, h⟩
    obtain rfl := Json.Value.arr.inj (Option.some.inj he)
    exact h
  · intro h
    exact ⟨entries, rfl, h⟩

section
variable {g : ConfigGraph} {ss : List Seeding} {σ : Seeding} {d : String}

/-- Permissions that are apart come back complete, each once, in whatever order. -/
theorem FullLedger.exists_perm (h : FullLedger g ss) (hσ : σ ∈ ss) (hd : '>' ∉ d.toList)
    (hs : DsSqlDps.spelled d = some σ.offer.datasetId)
    (ha : Apart (nodesOf ss σ.offer.datasetId)) (ox : Engine) :
    ∃ p t a, ∃ specs : List PermissionSpec,
      specs.Perm (permissionsOf (ss.map (·.offer)) σ.offer.datasetId) ∧
        policyJsonld ox g.store d = .ok (policyObject p t a (specs.map (·.json))) := by
  obtain ⟨τ, -, -, l, hl, hp⟩ := h.exists_policyJsonld ox hσ hd hs
  obtain ⟨ks, hks, he⟩ := hl.exists_entries ha
  refine ⟨_, _, _, ks.map (·.spec), ?_, by rw [hp, he, List.map_map]; rfl⟩
  rw [← nodesOf_spec]
  exact hks.map _

/-- The policy of a dataset, read by its id. -/
theorem FullLedger.intact_iff (h : FullLedger g ss) (hσ : σ ∈ ss) :
    (∀ (ox : Engine) (doc : Json.Value), policyJsonld ox g.store σ.offer.datasetId = .ok doc →
      Intact (ss.map (·.offer)) σ.offer.datasetId doc) ↔
      Unmixed (ss.map (·.offer)) σ.offer.datasetId := by
  rw [← h.toLedger.apart_iff]
  constructor
  · intro hall
    by_contra hn
    obtain ⟨tie, p, t, a, entries, hp, hlt⟩ := h.exists_split hσ (h.gt_not_mem hσ) (h.spelled hσ) hn
    have hcount := (intact_policyObject.mp (hall _ _ hp)).2
    rw [← nodesOf_spec, List.length_map] at hcount
    exact absurd hcount hlt.ne'
  · intro ha ox doc hdoc
    obtain ⟨p, t, a, specs, hperm, hp⟩ := h.exists_perm hσ (h.gt_not_mem hσ) (h.spelled hσ) ha ox
    rw [hp] at hdoc
    obtain rfl := Except.ok.inj hdoc
    refine intact_policyObject.mpr ⟨fun e he => ?_, by rw [List.length_map, hperm.length_eq]⟩
    obtain ⟨q, hq, rfl⟩ := List.mem_map.mp he
    exact ⟨q, hperm.mem_iff.mp hq, rfl⟩

theorem permissionsOf_of_not_mem {os : List FileOffer} (h : ∀ o ∈ os, o.datasetId ≠ d) :
    permissionsOf os d = [] ∧ Unmixed os d := by
  have hf : os.filter (fun o => o.datasetId = d) = [] :=
    List.filter_eq_nil_iff.mpr fun o ho => by simpa using h o ho
  exact ⟨by rw [permissionsOf, hf]; rfl, by rw [Unmixed, hf]; exact List.Pairwise.nil⟩

/-- A text that spells a seeded id and is no id itself: its policy has to be empty. -/
theorem FullLedger.intact_of_spelled_iff (h : FullLedger g ss) (hσ : σ ∈ ss)
    (hd : '>' ∉ d.toList) (hs : DsSqlDps.spelled d = some σ.offer.datasetId)
    (hne : ∀ o ∈ ss.map (·.offer), o.datasetId ≠ d) :
    (∀ (ox : Engine) (doc : Json.Value), policyJsonld ox g.store d = .ok doc →
      Intact (ss.map (·.offer)) d doc) ↔
      permissionsOf (ss.map (·.offer)) σ.offer.datasetId = [] := by
  rw [← nodesOf_spec, List.map_eq_nil_iff]
  constructor
  · intro hall
    obtain ⟨τ, -, -, l, hl, hp⟩ := h.exists_policyJsonld plainEngine hσ hd hs
    have hcount := (intact_policyObject.mp (hall _ _ hp)).2
    rw [(permissionsOf_of_not_mem hne).1] at hcount
    have hle := hl.length_le_entries
    rw [hcount] at hle
    exact List.length_eq_zero_iff.mp (Nat.le_zero.mp hle)
  · intro hnil ox doc hdoc
    have ha : Apart (nodesOf ss σ.offer.datasetId) := by
      rw [hnil]
      exact fun n hn => absurd hn List.not_mem_nil
    obtain ⟨p, t, a, specs, hperm, hp⟩ := h.exists_perm hσ hd hs ha ox
    rw [← nodesOf_spec, hnil] at hperm
    rw [hp, List.perm_nil.mp hperm] at hdoc
    obtain rfl := Except.ok.inj hdoc
    refine intact_policyObject.mpr ⟨fun e he => absurd he List.not_mem_nil, ?_⟩
    rw [(permissionsOf_of_not_mem hne).1]
    rfl

/-- A seeded id spells itself, so a text that spells other ids at most was not seeded. -/
theorem FullLedger.not_seeded (h : FullLedger g ss)
    (hd : ∀ o ∈ ss.map (·.offer), DsSqlDps.spelled d = some o.datasetId → o.datasetId ≠ d) :
    ∀ o ∈ ss.map (·.offer), o.datasetId ≠ d := by
  rintro o ho rfl
  obtain ⟨σ, hσ, rfl⟩ := List.mem_map.mp ho
  exact hd _ ho (h.spelled hσ) rfl

/-- There is no policy for a text that spells no seeded id. -/
theorem FullLedger.policyJsonld_ne_ok (h : FullLedger g ss) (hd : ¬ ClosesIri d)
    (hs : ¬ SpellsSeeded ss d) (ox : Engine) (doc : Json.Value) :
    policyJsonld ox g.store d ≠ .ok doc := by
  intro hdoc
  by_cases hgt : '>' ∈ d.toList
  · obtain ⟨-, -, e, he⟩ := lookups_unreadable ox g.store hgt hd
    rw [he] at hdoc
    cases hdoc
  · exact absurd ((policyJsonld_isOk_iff ox h hgt).mp (by rw [hdoc]; rfl)) hs

end

/-- Whatever was seeded, every way to sort tied rows gives back whole permissions, exactly if those
of different offers at one place are separate and the text spells no other id than itself. -/
theorem policy_intact_iff {ox : Engine} {os : List FileOffer} {g : ConfigGraph}
    (h : SeedRun ox os g) {d : String} (hd : ¬ ClosesIri d) :
    (∀ (ox : Engine) (doc : Json.Value), policyJsonld ox g.store d = .ok doc → Intact os d doc) ↔
      Unmixed os d ∧ ∀ o ∈ os, spelled d = some o.datasetId →
        o.datasetId = d ∨ o.permissions = [] := by
  obtain ⟨ss, hl, rfl⟩ := h.exists_ledger
  by_cases hs : SpellsSeeded ss d
  · obtain ⟨σ, hσ, hs⟩ := hs
    have hgt : '>' ∉ d.toList := fun hm => by
      rw [spelled_of_mem_gt hm] at hs
      cases hs
    have hone : ∀ o : FileOffer, spelled d = some o.datasetId → σ.offer.datasetId = o.datasetId :=
      fun o hso => Option.some.inj (hs.symm.trans hso)
    by_cases he : σ.offer.datasetId = d
    · -- `d` was seeded itself and spells no other id
      subst he
      rw [hl.intact_iff hσ]
      exact (and_iff_left fun o _ hso => Or.inl (hone o hso).symm).symm
    · -- the policy that is read is that of another id
      have hne := hl.not_seeded fun o _ hso hod => he ((hone o hso).trans hod)
      rw [hl.intact_of_spelled_iff hσ hgt hs hne, permissionsOf, List.flatMap_eq_nil_iff]
      constructor
      · intro hnil
        refine ⟨(permissionsOf_of_not_mem hne).2, fun o ho hso => Or.inr (hnil o ?_)⟩
        exact List.mem_filter.mpr ⟨ho, decide_eq_true (hone o hso).symm⟩
      · rintro ⟨-, hnil⟩ o ho
        obtain ⟨ho, hid⟩ := List.mem_filter.mp ho
        exact (hnil o ho (by rw [hs, of_decide_eq_true hid])).resolve_left (hne o ho)
  · -- nothing is read, so nothing was seeded for `d`
    have hno : ∀ o ∈ ss.map (·.offer), spelled d ≠ some o.datasetId := by
      rintro o ho hso
      obtain ⟨τ, hτ, rfl⟩ := List.mem_map.mp ho
      exact hs ⟨τ, hτ, hso⟩
    have hne := hl.not_seeded fun o ho hso => absurd hso (hno o ho)
    exact ⟨fun _ => ⟨(permissionsOf_of_not_mem hne).2, fun o ho hso => absurd hso (hno o ho)⟩,
      fun _ ox doc hdoc => absurd hdoc (hl.policyJsonld_ne_ok hd hs ox doc)⟩

/-- The sample offer, seeded twice. -/
def twiceSeeded : ConfigGraph :=
  (seedOffer plainEngine noFaults
    (seedOffer plainEngine noFaults .openInMemory sampleOffer).2 sampleOffer).2

theorem seedRun_twiceSeeded : SeedRun plainEngine [sampleOffer, sampleOffer] twiceSeeded :=
  .seeded (.seeded .fresh (seedOffer_eq plainEngine _ accepts_sampleOffer))
    (seedOffer_eq plainEngine _ accepts_sampleOffer)

theorem policy_intact_iff_primary :
    (∀ (ox : Engine) (doc : Json.Value), policyJsonld ox twiceSeeded.store "primary" = .ok doc →
      Intact [sampleOffer, sampleOffer] "primary" doc) ↔
      Unmixed [sampleOffer, sampleOffer] "primary" ∧ ∀ o ∈ [sampleOffer, sampleOffer],
        spelled "primary" = some o.datasetId → o.datasetId = "primary" ∨ o.permissions = [] :=
  policy_intact_iff seedRun_twiceSeeded (by decide +kernel)

/-- An offer whose permission holds between two dates. -/
def betweenOffer : FileOffer :=
  { sampleOffer with permissions := [⟨"use", [⟨"dateTime", "gteq", "2026-01-01T00:00:00Z"⟩,
    ⟨"dateTime", "lteq", "2026-12-31T23:59:59Z"⟩]⟩] }

/-- Seeded twice, its policy may have more entries than permissions. -/
theorem not_policy_intact :
    ¬ ∀ (ox : Engine) (os : List FileOffer) (g : ConfigGraph) (d : String), SeedRun ox os g →
      ∀ (ox' : Engine) (doc : Json.Value), policyJsonld ox' g.store d = .ok doc →
        Intact os d doc := by
  intro hall
  have ha : accepts betweenOffer.datasetId = true := accepts_primary
  have hrun := SeedRun.seeded (.seeded .fresh (seedOffer_eq plainEngine .openInMemory ha))
    (seedOffer_eq plainEngine _ ha)
  obtain ⟨ss, hl, hss⟩ := hrun.exists_ledger
  obtain ⟨σ, hσ, hσo⟩ := List.mem_map.mp (hss ▸ List.mem_cons_self :
    betweenOffer ∈ ss.map (·.offer))
  have hx := (hl.intact_iff hσ).mp (by
    rw [hss]
    exact hall plainEngine _ _ _ hrun)
  rw [hss, hσo] at hx
  exact absurd hx (by decide +kernel)

end DsSqlDps
