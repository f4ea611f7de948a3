import DsSqlDps.Config.Entries

/-!
# The ledger of a graph

Every quad of a graph comes from one of the seedings that were begun on it, and no two seedings
share a blank node. What a read returns then follows from the seedings of its dataset.
-/

namespace DsSqlDps
open Rdf Sparql Vocab

/-- The quads of the graph come from the seedings `ss`. A seeding need not have all its quads in
the graph. -/
structure Ledger (g : ConfigGraph) (ss : List Seeding) : Prop where
  mem : ∀ q ∈ g.store, ∃ σ ∈ ss, q ∈ σ.quads
  nodup : (ss.flatMap (·.ids)).Nodup
  lt : ∀ σ ∈ ss, ∀ i ∈ σ.ids, i < g.fresh

/-- The blank nodes that are objects of the graph have been drawn. -/
def ConfigGraph.Drawn (g : ConfigGraph) : Prop :=
  ∀ q ∈ g.store, ∀ i, q.object = .blank i → i < g.fresh

theorem drawn_openInMemory : ConfigGraph.openInMemory.Drawn := fun q hq =>
  absurd hq (Store.not_mem_empty q)

/-- The objects of a seeding's quads that are blank nodes are among its own. -/
theorem Seeding.mem_ids_of_object {σ : Seeding} {q : Quad} (hq : q ∈ σ.quads) {i : ℕ}
    (hi : q.object = .blank i) : i ∈ σ.ids := by
  rw [Seeding.ids, List.mem_flatMap]
  rcases Seeding.mem_quads.mp hq with hq | ⟨n, hn, hq | ⟨c, hc, hq⟩⟩
  · -- the objects of these quads are IRIs and literals
    simp only [FileOffer.quads, List.mem_cons, List.not_mem_nil, or_false] at hq
    rcases hq with rfl | rfl | rfl | rfl | rfl | rfl | rfl | rfl | rfl <;> cases hi
  · refine ⟨n, hn, ?_⟩
    simp only [PermissionNode.heads, List.mem_cons, List.not_mem_nil, or_false] at hq
    rcases hq with rfl | rfl | rfl | rfl <;> cases hi
    exact List.mem_cons_self
  · refine ⟨n, hn, List.mem_cons_of_mem _ (List.mem_map.mpr ⟨c, hc, ?_⟩)⟩
    simp only [ConstraintNode.quads, List.mem_cons, List.not_mem_nil, or_false] at hq
    rcases hq with rfl | rfl | rfl | rfl | rfl <;> cases hi
    rfl

/-- All quads of the seeding are in the store. -/
def Seeding.Complete (σ : Seeding) (s : Store) : Prop := ∀ q ∈ σ.quads, q ∈ s

instance (σ : Seeding) (s : Store) : Decidable (σ.Complete s) :=
  inferInstanceAs (Decidable (∀ q ∈ σ.quads, q ∈ s))

/-- The permissions that were seeded for the dataset `d`. -/
def nodesOf (ss : List Seeding) (d : String) : List PermissionNode :=
  (ss.filter fun σ => σ.offer.datasetId = d).flatMap (·.nodes)

namespace Ledger
variable {g : ConfigGraph} {ss : List Seeding}

theorem openInMemory : Ledger .openInMemory [] where
  mem q hq := absurd hq (Store.not_mem_empty q)
  nodup := List.nodup_nil
  lt _ hσ := absurd hσ List.not_mem_nil

/-- The blank nodes of a new seeding are drawn before any of its quads is inserted. -/
theorem start (h : Ledger g ss) (offer : FileOffer) :
    Ledger ⟨g.store, g.fresh + offer.blanks⟩ (ss ++ [⟨offer, g.fresh⟩]) where
  mem q hq := by
    obtain ⟨σ, hσ, hm⟩ := h.mem q hq
    exact ⟨σ, List.mem_append_left _ hσ, hm⟩
  nodup := by
    rw [List.flatMap_append, List.flatMap_singleton, Seeding.ids_eq]
    refine List.nodup_append.mpr ⟨h.nodup, List.nodup_range', fun i hi j hj hij => ?_⟩
    obtain ⟨σ, hσ, hm⟩ := List.mem_flatMap.mp hi
    have hlt := h.lt σ hσ i hm
    have hle := (List.mem_range'_1.mp hj).1
    dsimp only at hle
    omega
  lt σ hσ i hi := by
    rcases List.mem_append.mp hσ with hσ | hσ
    · exact Nat.lt_add_right _ (h.lt σ hσ i hi)
    · rw [List.mem_singleton.mp hσ, Seeding.ids_eq] at hi
      exact (List.mem_range'_1.mp hi).2

theorem insertAll (h : Ledger g ss) {σ : Seeding} {qs : List Quad} (hσ : σ ∈ ss)
    (hq : ∀ q ∈ qs, q ∈ σ.quads) : Ledger ⟨g.store.insertAll qs, g.fresh⟩ ss where
  mem p hp := by
    rcases Store.mem_insertAll.mp hp with hp | hp
    · exact h.mem p hp
    · exact ⟨σ, hσ, hq p hp⟩
  nodup := h.nodup
  lt := h.lt

theorem drawn (h : Ledger g ss) : g.Drawn := by
  intro q hq i hi
  obtain ⟨σ, hσ, hm⟩ := h.mem q hq
  exact h.lt σ hσ i (Seeding.mem_ids_of_object hm hi)

/-! ## Whose a quad is -/

theorem mem_filePath (h : Ledger g ss) {d : String} {o : Term}
    (ho : distributionQuad d (ds "filePath") o ∈ g.store) :
    ∃ σ ∈ ss, σ.offer.datasetId = d ∧ o = .simple σ.offer.filePath.toStringLossy := by
  obtain ⟨σ, hσ, hq⟩ := h.mem _ ho
  obtain ⟨hs, rfl⟩ := Seeding.mem_filePath.mp hq
  exact ⟨σ, hσ, (distributionIri_injective (Term.iri.inj hs)).symm, rfl⟩

theorem mem_mediaType (h : Ledger g ss) {d : String} {o : Term}
    (ho : distributionQuad d (dcat "mediaType") o ∈ g.store) :
    ∃ σ ∈ ss, σ.offer.datasetId = d ∧ o = .simple σ.offer.mediaType := by
  obtain ⟨σ, hσ, hq⟩ := h.mem _ ho
  obtain ⟨hs, rfl⟩ := Seeding.mem_mediaType.mp hq
  exact ⟨σ, hσ, (distributionIri_injective (Term.iri.inj hs)).symm, rfl⟩

theorem mem_target (h : Ledger g ss) {d : String} {o : Term}
    (ho : policyQuad d (odrl "target") o ∈ g.store) :
    ∃ σ ∈ ss, σ.offer.datasetId = d ∧ o = .iri (datasetIri d) := by
  obtain ⟨σ, hσ, hq⟩ := h.mem _ ho
  obtain ⟨hs, rfl⟩ := Seeding.mem_target.mp hq
  obtain rfl := policyIri_injective (Term.iri.inj hs)
  exact ⟨σ, hσ, rfl, rfl⟩

theorem mem_assigner (h : Ledger g ss) {d : String} {o : Term}
    (ho : policyQuad d (odrl "assigner") o ∈ g.store) :
    ∃ σ ∈ ss, σ.offer.datasetId = d ∧ o = .simple σ.offer.assigner := by
  obtain ⟨σ, hσ, hq⟩ := h.mem _ ho
  obtain ⟨hs, rfl⟩ := Seeding.mem_assigner.mp hq
  exact ⟨σ, hσ, (policyIri_injective (Term.iri.inj hs)).symm, rfl⟩

/-- Blank nodes belong to one node only. -/
theorem eq_of_ids (h : Ledger g ss) {σ τ : Seeding} {n m : PermissionNode} {i : ℕ} (hσ : σ ∈ ss)
    (hτ : τ ∈ ss) (hn : n ∈ σ.nodes) (hm : m ∈ τ.nodes) (hi : i ∈ n.ids) (hi' : i ∈ m.ids) :
    n = m := by
  have hnd : ((ss.flatMap (·.nodes)).flatMap (·.ids)).Nodup := by
    rw [List.flatMap_assoc]
    exact h.nodup
  have hs : Std.Symm fun n m : PermissionNode => n.ids.Disjoint m.ids := ⟨fun _ _ h => h.symm⟩
  by_contra hne
  exact (List.nodup_flatMap.mp hnd).2.forall (List.mem_flatMap.mpr ⟨σ, hσ, hn⟩)
    (List.mem_flatMap.mpr ⟨τ, hτ, hm⟩) hne hi hi'

theorem ids_nodup (h : Ledger g ss) {σ : Seeding} {n : PermissionNode} (hσ : σ ∈ ss)
    (hn : n ∈ σ.nodes) : n.ids.Nodup :=
  (List.nodup_flatMap.mp ((List.nodup_flatMap.mp h.nodup).1 σ hσ)).1 n hn

theorem mem_nodesOf {d : String} {n : PermissionNode} :
    n ∈ nodesOf ss d ↔ ∃ σ ∈ ss, σ.offer.datasetId = d ∧ n ∈ σ.nodes := by
  simp only [nodesOf, List.mem_flatMap, List.mem_filter, decide_eq_true_eq, and_assoc]

theorem ids_of_constraint {n : PermissionNode} {c : ConstraintNode} (hc : c ∈ n.constraints) :
    c.id ∈ n.ids := List.mem_cons_of_mem _ (List.mem_map_of_mem hc)

theorem eq_of_term (h : Ledger g ss) {σ τ : Seeding} {n m : PermissionNode} (hσ : σ ∈ ss)
    (hτ : τ ∈ ss) (hn : n ∈ σ.nodes) (hm : m ∈ τ.nodes) (ht : n.term = m.term) : n = m := by
  have hi : n.id = m.id := Term.blank.inj ht
  exact h.eq_of_ids hσ hτ hn hm List.mem_cons_self (hi ▸ List.mem_cons_self)

/-- A constraint belongs to one permission, and to one place in it. -/
theorem constraint_eq_of_term (h : Ledger g ss) {σ τ : Seeding} {n m : PermissionNode}
    {b c : ConstraintNode} (hσ : σ ∈ ss) (hτ : τ ∈ ss) (hn : n ∈ σ.nodes) (hm : m ∈ τ.nodes)
    (hb : b ∈ n.constraints) (hc : c ∈ m.constraints) (ht : b.term = c.term) : b = c := by
  have hi : b.id = c.id := Term.blank.inj ht
  obtain rfl := h.eq_of_ids hσ hτ hn hm (ids_of_constraint hb) (hi ▸ ids_of_constraint hc)
  exact List.inj_on_of_nodup_map (List.nodup_cons.mp (h.ids_nodup hσ hn)).2 hb hc hi

/-- A permission is not a constraint. -/
theorem term_ne (h : Ledger g ss) {σ τ : Seeding} {n m : PermissionNode} {c : ConstraintNode}
    (hσ : σ ∈ ss) (hτ : τ ∈ ss) (hn : n ∈ σ.nodes) (hm : m ∈ τ.nodes)
    (hc : c ∈ m.constraints) : n.term ≠ c.term := by
  intro ht
  have hi : n.id = c.id := Term.blank.inj ht
  obtain rfl := h.eq_of_ids hσ hτ hn hm List.mem_cons_self (hi ▸ ids_of_constraint hc)
  apply (List.nodup_cons.mp (h.ids_nodup hσ hn)).1
  rw [hi]
  exact List.mem_map_of_mem hc

theorem roles (h : Ledger g ss) (d : String) : Roles g.store d (nodesOf ss d) := by
  -- a triple about a node is from the seeding that made the node
  have hperm {n : PermissionNode} (hn : n ∈ nodesOf ss d) {τ : Seeding} (hτ : τ ∈ ss)
      {m : PermissionNode} (hm : m ∈ τ.nodes) (ht : n.term = m.term) : n = m := by
    obtain ⟨σ, hσ, -, hn⟩ := mem_nodesOf.mp hn
    exact h.eq_of_term hσ hτ hn hm ht
  have hcons {n : PermissionNode} (hn : n ∈ nodesOf ss d) {b : ConstraintNode}
      (hb : b ∈ n.constraints) {τ : Seeding} (hτ : τ ∈ ss) {m : PermissionNode} (hm : m ∈ τ.nodes)
      {c : ConstraintNode} (hc : c ∈ m.constraints) (ht : b.term = c.term) : b = c := by
    obtain ⟨σ, hσ, -, hn⟩ := mem_nodesOf.mp hn
    exact h.constraint_eq_of_term hσ hτ hn hm hb hc ht
  constructor
  case link =>
    intro o ho
    obtain ⟨σ, hσ, hq⟩ := h.mem _ ho
    obtain ⟨n, hn, hs, rfl⟩ := Seeding.mem_permission.mp hq
    exact ⟨n, mem_nodesOf.mpr ⟨σ, hσ, (policyIri_injective (Term.iri.inj hs)).symm, hn⟩, rfl⟩
  case order =>
    intro n hn o ho
    obtain ⟨τ, hτ, hq⟩ := h.mem _ ho
    -- permissions and constraints both have a `ds:order`
    obtain ⟨m, hm, ⟨ht, rfl⟩ | ⟨c, hc, ht, -⟩⟩ := Seeding.mem_order.mp hq
    · rw [hperm hn hτ hm ht]
    · obtain ⟨σ, hσ, -, hn⟩ := mem_nodesOf.mp hn
      exact absurd ht (h.term_ne hσ hτ hn hm hc)
  case action =>
    intro n hn o ho
    obtain ⟨τ, hτ, hq⟩ := h.mem _ ho
    obtain ⟨m, hm, ht, rfl⟩ := Seeding.mem_action.mp hq
    rw [hperm hn hτ hm ht]
  case constraint =>
    intro n hn o ho
    obtain ⟨τ, hτ, hq⟩ := h.mem _ ho
    obtain ⟨m, hm, c, hc, ht, rfl⟩ := Seeding.mem_constraint.mp hq
    obtain rfl := hperm hn hτ hm ht
    exact ⟨c, hc, rfl⟩
  case corder =>
    intro n hn b hb o ho
    obtain ⟨τ, hτ, hq⟩ := h.mem _ ho
    obtain ⟨m, hm, ⟨ht, -⟩ | ⟨c, hc, ht, rfl⟩⟩ := Seeding.mem_order.mp hq
    · obtain ⟨σ, hσ, -, hn⟩ := mem_nodesOf.mp hn
      exact absurd ht.symm (h.term_ne hτ hσ hm hn hb)
    · rw [hcons hn hb hτ hm hc ht]
  case leftOperand =>
    intro n hn b hb o ho
    obtain ⟨τ, hτ, hq⟩ := h.mem _ ho
    obtain ⟨m, hm, c, hc, ht, rfl⟩ := Seeding.mem_leftOperand.mp hq
    rw [hcons hn hb hτ hm hc ht]
  case operator =>
    intro n hn b hb o ho
    obtain ⟨τ, hτ, hq⟩ := h.mem _ ho
    obtain ⟨m, hm, c, hc, ht, rfl⟩ := Seeding.mem_operator.mp hq
    rw [hcons hn hb hτ hm hc ht]
  case rightOperand =>
    intro n hn b hb o ho
    obtain ⟨τ, hτ, hq⟩ := h.mem _ ho
    obtain ⟨m, hm, c, hc, ht, rfl⟩ := Seeding.mem_rightOperand.mp hq
    rw [hcons hn hb hτ hm hc ht]
  case nodup =>
    have hs : (nodesOf ss d).Sublist (ss.flatMap (·.nodes)) := List.filter_sublist.flatMap _
    have hnd : ((ss.flatMap (·.nodes)).flatMap (·.ids)).Nodup := by
      rw [List.flatMap_assoc]
      exact h.nodup
    exact hnd.sublist (hs.flatMap _)

/-! ## What the reads return -/

theorem sortedRows (h : Ledger g ss) {d : String} {l : List Row}
    (hp : l.Perm ((shownNodes g.store d (nodesOf ss d)).flatMap (·.rows)))
    (hs : l.Pairwise RowLE) : SortedRows (shownNodes g.store d (nodesOf ss d)) l := by
  refine ⟨(h.roles d).shown_nodup, fun n hn => ?_, hp, hs⟩
  simp only [shownNodes, List.mem_map, List.mem_filter] at hn
  obtain ⟨m, ⟨hm, -⟩, rfl⟩ := hn
  obtain ⟨σ, -, -, hm⟩ := mem_nodesOf.mp hm
  exact (σ.increasing m hm).sublist List.filter_sublist

section
variable (ox : Engine) {d e : String} (hd : '>' ∉ d.toList) (hs : spelled d = some e)
  (ha : accepts e = true)
include hd hs ha

/-- What the query sees of the permissions of a dataset is sorted out by its answer. -/
theorem policyRows_sorted (h : Ledger g ss) :
    ∃ l, SortedRows (shownNodes g.store e (nodesOf ss e)) l ∧
      policyRows ox g.store d = .ok (l.map selectedRow) := by
  obtain ⟨rows, hr, hans⟩ := policyRows_answers ox g.store hd hs ha
  obtain ⟨l, hp, hsorted, rfl⟩ := (h.roles e).rows_of_answers hans
  exact ⟨l, h.sortedRows hp hsorted, hr⟩

/-- The path read is that of some seeding whose path has been inserted. -/
theorem filePath_cases (h : Ledger g ss) :
    (filePath ox g.store d = .error (.notFound d) ∧
      ∀ o, distributionQuad e (ds "filePath") o ∉ g.store) ∨
    ∃ σ ∈ ss, σ.offer.datasetId = e ∧
      filePath ox g.store d = .ok (.ofString σ.offer.filePath.toStringLossy) := by
  rcases DsSqlDps.filePath_cases ox g.store hd hs ha with hn | ⟨o, ho, hf⟩
  · exact Or.inl hn
  · obtain ⟨σ, hσ, hσd, rfl⟩ := h.mem_filePath ho
    exact Or.inr ⟨σ, hσ, hσd, hf⟩

theorem mediaType_cases (h : Ledger g ss) :
    (mediaType ox g.store d = .error (.notFound d) ∧
      ∀ o, distributionQuad e (dcat "mediaType") o ∉ g.store) ∨
    ∃ σ ∈ ss, σ.offer.datasetId = e ∧ mediaType ox g.store d = .ok σ.offer.mediaType := by
  rcases DsSqlDps.mediaType_cases ox g.store hd hs ha with hn | ⟨o, ho, hf⟩
  · exact Or.inl hn
  · obtain ⟨σ, hσ, hσd, rfl⟩ := h.mem_mediaType ho
    exact Or.inr ⟨σ, hσ, hσd, hf⟩

theorem policyHeader_cases (h : Ledger g ss) :
    (policyHeader ox g.store d = .error (.notFound d) ∧
      ∀ t a, policyQuad e (odrl "target") t ∈ g.store →
        policyQuad e (odrl "assigner") a ∉ g.store) ∨
    ∃ σ ∈ ss, σ.offer.datasetId = e ∧
      policyHeader ox g.store d = .ok (datasetIri e, σ.offer.assigner) := by
  rcases DsSqlDps.policyHeader_cases ox g.store hd hs ha with
    hn | ⟨t, a, ht, ha, hf⟩
  · exact Or.inl hn
  · obtain ⟨-, -, -, rfl⟩ := h.mem_target ht
    obtain ⟨σ, hσ, hσd, rfl⟩ := h.mem_assigner ha
    exact Or.inr ⟨σ, hσ, hσd, hf⟩

end

end Ledger

/-! ## Complete seedings -/

namespace Seeding
variable {σ : Seeding} {s : Store}

theorem Complete.mono {s' : Store} (h : σ.Complete s) (hm : ∀ q ∈ s, q ∈ s') : σ.Complete s' :=
  fun q hq => hm q (h q hq)

theorem complete_insertAll (σ : Seeding) (s : Store) : σ.Complete (s.insertAll σ.quads) :=
  fun _ hq => Store.mem_insertAll.mpr (Or.inr hq)

theorem Complete.filePath (h : σ.Complete s) :
    distributionQuad σ.offer.datasetId (ds "filePath")
      (.simple σ.offer.filePath.toStringLossy) ∈ s := h _ (mem_filePath.mpr ⟨rfl, rfl⟩)

theorem Complete.mediaType (h : σ.Complete s) :
    distributionQuad σ.offer.datasetId (dcat "mediaType") (.simple σ.offer.mediaType) ∈ s :=
  h _ (mem_mediaType.mpr ⟨rfl, rfl⟩)

theorem Complete.target (h : σ.Complete s) :
    policyQuad σ.offer.datasetId (odrl "target") (.iri (datasetIri σ.offer.datasetId)) ∈ s :=
  h _ (mem_target.mpr ⟨rfl, rfl⟩)

theorem Complete.assigner (h : σ.Complete s) :
    policyQuad σ.offer.datasetId (odrl "assigner") (.simple σ.offer.assigner) ∈ s :=
  h _ (mem_assigner.mpr ⟨rfl, rfl⟩)

theorem Complete.shown (h : σ.Complete s) {n : PermissionNode} (hn : n ∈ σ.nodes) :
    n.Shown s σ.offer.datasetId ∧ n.shown s = n := by
  refine ⟨⟨h _ (mem_permission.mpr ⟨n, hn, rfl, rfl⟩),
    h _ (mem_order.mpr ⟨n, hn, Or.inl ⟨rfl, rfl⟩⟩), h _ (mem_action.mpr ⟨n, hn, rfl, rfl⟩)⟩, ?_⟩
  have hf : n.constraints.filter (fun c => decide (c.Shown s n.term)) = n.constraints :=
    List.filter_eq_self.mpr fun c hc => decide_eq_true fun q hq =>
      h q (mem_quads.mpr (Or.inr ⟨n, hn, Or.inr ⟨c, hc, hq⟩⟩))
  rw [PermissionNode.shown, hf]

end Seeding

/-- A ledger whose seedings are all complete, of ids that `seed_offer` accepts. -/
structure FullLedger (g : ConfigGraph) (ss : List Seeding) : Prop extends Ledger g ss where
  complete : ∀ σ ∈ ss, σ.Complete g.store
  accepts : ∀ σ ∈ ss, DsSqlDps.accepts σ.offer.datasetId = true

/-- The entries of a seeding whose rows are alone. -/
theorem Seeding.entries_eq {σ : Seeding} {l : List Row} (h : SortedRows σ.nodes l) :
    permissionEntries (l.map selectedRow) = σ.offer.permissions.map (·.json) := by
  rw [h.entries_eq (permissionNodes_increasing 0 σ.base σ.offer.permissions), ← σ.nodes_spec,
    List.map_map]
  rfl

theorem nodesOf_of_filter {ss : List Seeding} {σ : Seeding} {d : String}
    (h : ss.filter (fun τ => τ.offer.datasetId = d) = [σ]) : nodesOf ss d = σ.nodes := by
  rw [nodesOf, h]
  exact List.append_nil _

theorem Ledger.shownNodes_eq {g : ConfigGraph} {ss : List Seeding} {d : String}
    (hc : ∀ σ ∈ ss, σ.offer.datasetId = d → σ.Complete g.store) :
    shownNodes g.store d (nodesOf ss d) = nodesOf ss d := by
  have hn {n : PermissionNode} (h : n ∈ nodesOf ss d) :
      n.Shown g.store d ∧ n.shown g.store = n := by
    obtain ⟨σ, hσ, rfl, hn⟩ := mem_nodesOf.mp h
    exact (hc σ hσ rfl).shown hn
  rw [shownNodes, List.filter_eq_self.mpr fun n h => decide_eq_true (hn h).1]
  exact (List.map_congr_left fun n h => (hn h).2).trans (List.map_id _)

namespace FullLedger
variable {g : ConfigGraph} {ss : List Seeding} {σ : Seeding}

theorem openInMemory : FullLedger .openInMemory [] where
  toLedger := .openInMemory
  complete _ hσ := absurd hσ List.not_mem_nil
  accepts _ hσ := absurd hσ List.not_mem_nil

theorem spelled (h : FullLedger g ss) (hσ : σ ∈ ss) :
    DsSqlDps.spelled σ.offer.datasetId = some σ.offer.datasetId :=
  spelled_of_accepts (h.accepts σ hσ)

theorem gt_not_mem (h : FullLedger g ss) (hσ : σ ∈ ss) : '>' ∉ σ.offer.datasetId.toList :=
  gt_not_mem_of_accepts (h.accepts σ hσ)

/-- The policy of a dataset that was seeded, once or more often, read by a text that spells it. -/
theorem exists_policyJsonld (h : FullLedger g ss) (ox : Engine) {d : String} (hσ : σ ∈ ss)
    (hd : '>' ∉ d.toList) (hs : DsSqlDps.spelled d = some σ.offer.datasetId) :
    ∃ τ ∈ ss, τ.offer.datasetId = σ.offer.datasetId ∧
      ∃ l, SortedRows (nodesOf ss σ.offer.datasetId) l ∧
        policyJsonld ox g.store d =
          .ok (policyObject (policyIri d) (datasetIri σ.offer.datasetId) τ.offer.assigner
            (permissionEntries (l.map selectedRow))) := by
  obtain ⟨l, hl, hr⟩ := h.toLedger.policyRows_sorted ox hd hs (h.accepts σ hσ)
  rw [Ledger.shownNodes_eq fun τ hτ _ => h.complete τ hτ] at hl
  rcases h.toLedger.policyHeader_cases ox hd hs (h.accepts σ hσ) with
    ⟨-, hn⟩ | ⟨τ, hτ, hτd, hh⟩
  · exact absurd (h.complete σ hσ).assigner (hn _ _ (h.complete σ hσ).target)
  · exact ⟨τ, hτ, hτd, l, hl, by rw [policyJsonld, hh, hr]; rfl⟩

theorem exists_filePath (h : FullLedger g ss) (ox : Engine) {d : String} (hσ : σ ∈ ss)
    (hd : '>' ∉ d.toList) (hs : DsSqlDps.spelled d = some σ.offer.datasetId) :
    ∃ τ ∈ ss, τ.offer.datasetId = σ.offer.datasetId ∧
      filePath ox g.store d = .ok (.ofString τ.offer.filePath.toStringLossy) := by
  rcases h.toLedger.filePath_cases ox hd hs (h.accepts σ hσ) with ⟨-, hn⟩ | hf
  · exact absurd (h.complete σ hσ).filePath (hn _)
  · exact hf

theorem exists_mediaType (h : FullLedger g ss) (ox : Engine) {d : String} (hσ : σ ∈ ss)
    (hd : '>' ∉ d.toList) (hs : DsSqlDps.spelled d = some σ.offer.datasetId) :
    ∃ τ ∈ ss, τ.offer.datasetId = σ.offer.datasetId ∧
      mediaType ox g.store d = .ok τ.offer.mediaType := by
  rcases h.toLedger.mediaType_cases ox hd hs (h.accepts σ hσ) with ⟨-, hn⟩ | hf
  · exact absurd (h.complete σ hσ).mediaType (hn _)
  · exact hf

/-- The reads of a dataset that was seeded once. -/
theorem reads (h : FullLedger g ss) (ox : Engine) (hσ : σ ∈ ss)
    (hu : ss.filter (fun τ => τ.offer.datasetId = σ.offer.datasetId) = [σ]) :
    policyJsonld ox g.store σ.offer.datasetId = .ok σ.offer.document ∧
      filePath ox g.store σ.offer.datasetId =
        .ok (.ofString σ.offer.filePath.toStringLossy) ∧
      mediaType ox g.store σ.offer.datasetId = .ok σ.offer.mediaType := by
  have huniq {τ : Seeding} (hτ : τ ∈ ss) (hd : τ.offer.datasetId = σ.offer.datasetId) : τ = σ := by
    have hm : τ ∈ [σ] := by
      rw [← hu]
      exact List.mem_filter.mpr ⟨hτ, decide_eq_true hd⟩
    exact List.mem_singleton.mp hm
  refine ⟨?_, ?_, ?_⟩
  · obtain ⟨τ, hτ, hd, l, hl, hp⟩ := h.exists_policyJsonld ox hσ (h.gt_not_mem hσ) (h.spelled hσ)
    rw [nodesOf_of_filter hu] at hl
    rw [hp, huniq hτ hd, σ.entries_eq hl]
    rfl
  · obtain ⟨τ, hτ, hd, hf⟩ := h.exists_filePath ox hσ (h.gt_not_mem hσ) (h.spelled hσ)
    rw [hf, huniq hτ hd]
  · obtain ⟨τ, hτ, hd, hf⟩ := h.exists_mediaType ox hσ (h.gt_not_mem hσ) (h.spelled hσ)
    rw [hf, huniq hτ hd]

end FullLedger

/-! ## Which texts are read -/

section
variable {ox : Engine} {g : ConfigGraph} {ss : List Seeding} {d : String}

/-- The text spells the dataset id of a seeded offer. -/
def SpellsSeeded (ss : List Seeding) (d : String) : Prop :=
  ∃ σ ∈ ss, spelled d = some σ.offer.datasetId

variable (ox) in
theorem filePath_isOk_iff (h : FullLedger g ss) (hd : '>' ∉ d.toList) :
    (filePath ox g.store d).isOk = true ↔ SpellsSeeded ss d := by
  constructor
  · intro hok
    cases hf : filePath ox g.store d with
    | error e =>
      rw [hf] at hok
      cases hok
    | ok path =>
      obtain ⟨e, o, he, ho, -⟩ := exists_of_filePath hd hf
      obtain ⟨σ, hσ, rfl, -⟩ := h.toLedger.mem_filePath ho
      exact ⟨σ, hσ, he⟩
  · rintro ⟨σ, hσ, hs⟩
    obtain ⟨τ, -, -, hf⟩ := h.exists_filePath ox hσ hd hs
    rw [hf]
    rfl

variable (ox) in
theorem mediaType_isOk_iff (h : FullLedger g ss) (hd : '>' ∉ d.toList) :
    (mediaType ox g.store d).isOk = true ↔ SpellsSeeded ss d := by
  constructor
  · intro hok
    cases hf : mediaType ox g.store d with
    | error e =>
      rw [hf] at hok
      cases hok
    | ok media =>
      obtain ⟨e, o, he, ho, -⟩ := exists_of_mediaType hd hf
      obtain ⟨σ, hσ, rfl, -⟩ := h.toLedger.mem_mediaType ho
      exact ⟨σ, hσ, he⟩
  · rintro ⟨σ, hσ, hs⟩
    obtain ⟨τ, -, -, hf⟩ := h.exists_mediaType ox hσ hd hs
    rw [hf]
    rfl

variable (ox) in
theorem policyJsonld_isOk_iff (h : FullLedger g ss) (hd : '>' ∉ d.toList) :
    (policyJsonld ox g.store d).isOk = true ↔ SpellsSeeded ss d := by
  constructor
  · intro hok
    cases hf : policyHeader ox g.store d with
    | error e =>
      rw [policyJsonld, hf] at hok
      cases hok
    | ok header =>
      obtain ⟨e, t, a, he, ht, -, -⟩ := exists_of_policyHeader hd hf
      obtain ⟨σ, hσ, rfl, -⟩ := h.toLedger.mem_target ht
      exact ⟨σ, hσ, he⟩
  · rintro ⟨σ, hσ, hs⟩
    obtain ⟨τ, -, -, l, -, hp⟩ := h.exists_policyJsonld ox hσ hd hs
    rw [hp]
    rfl

end

end DsSqlDps
