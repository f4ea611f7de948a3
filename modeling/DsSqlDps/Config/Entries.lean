import DsSqlDps.Config.Rows

/-!
# From rows to permissions

The loop over the rows makes one permission of each run of rows with the same node. When no two
nodes compete for the same places of the order, the runs are the permissions that were seeded.
-/

namespace DsSqlDps
open Rdf Sparql Vocab

/-! ## The documents that were meant -/

def ConstraintSpec.json (c : ConstraintSpec) : Json.Value :=
  .obj [("leftOperand", .str c.leftOperand), ("operator", .str c.operator),
    ("rightOperand", .str c.rightOperand)]

/-- A permission without constraints has no `constraint` key. -/
def PermissionSpec.json (p : PermissionSpec) : Json.Value :=
  .obj (("action", .str p.action) ::
    if p.constraints = [] then [] else [("constraint", .arr (p.constraints.map (·.json)))])

/-- The policy of an offer, written directly. -/
def FileOffer.document (offer : FileOffer) : Json.Value :=
  policyObject (policyIri offer.datasetId) (datasetIri offer.datasetId) offer.assigner
    (offer.permissions.map (·.json))

/-! ## The loop -/

section
variable (r : Row)

theorem get_selectedRow {v : String}
    (h : v ∈ ["p", "porder", "action", "corder", "left", "op", "right"]) :
    (selectedRow r).get v = (rowSolution r).get v := Solution.get_project _ _ v h

@[simp] theorem selectedRow_p : (selectedRow r).get "p" = some r.1.term := by
  rw [get_selectedRow r (by simp)]
  obtain ⟨n, c⟩ := r
  cases c <;> simp [rowSolution, PermissionNode.solution, ConstraintNode.solution]

@[simp] theorem selectedRow_action :
    (selectedRow r).get "action" = some (.simple r.1.action) := by
  rw [get_selectedRow r (by simp)]
  obtain ⟨n, c⟩ := r
  cases c <;> simp [rowSolution, PermissionNode.solution, ConstraintNode.solution]

@[simp] theorem selectedRow_left :
    (selectedRow r).get "left" = r.2.map fun c => .simple c.spec.leftOperand := by
  rw [get_selectedRow r (by simp)]
  obtain ⟨n, c⟩ := r
  cases c <;> simp [rowSolution, PermissionNode.solution, ConstraintNode.solution]

@[simp] theorem selectedRow_op :
    (selectedRow r).get "op" = r.2.map fun c => .simple c.spec.operator := by
  rw [get_selectedRow r (by simp)]
  obtain ⟨n, c⟩ := r
  cases c <;> simp [rowSolution, PermissionNode.solution, ConstraintNode.solution]

@[simp] theorem selectedRow_right :
    (selectedRow r).get "right" = r.2.map fun c => .simple c.spec.rightOperand := by
  rw [get_selectedRow r (by simp)]
  obtain ⟨n, c⟩ := r
  cases c <;> simp [rowSolution, PermissionNode.solution, ConstraintNode.solution]

end

/-- The permission that a run of rows spells. -/
def runSpec (g : List Row) : PermissionSpec :=
  ⟨(g.head?.map (·.1.action)).getD "", g.filterMap fun r => r.2.map (·.spec)⟩

/-- The entry that the loop has made of a run. -/
def runEntry (g : List Row) : Term × Json.Value :=
  ((g.head?.map (·.1.term)).getD (.blank 0),
    .obj [("action", .str (runSpec g).action),
      ("constraint", .arr ((runSpec g).constraints.map (·.json)))])

def nodeId (r : Row) : ℕ := r.1.id

def pushConstraint (r : Row) (e : Term × Json.Value) : Term × Json.Value :=
  match r.2 with
  | none => e
  | some c => (e.1, e.2.pushTo "constraint" c.spec.json)

/-- The entry that the loop pushes for the first row of a run. -/
def freshEntry (r : Row) : Term × Json.Value :=
  (r.1.term, .obj [("action", .str r.1.action), ("constraint", .arr [])])

theorem runEntry_singleton (r : Row) : runEntry [r] = pushConstraint r (freshEntry r) := by
  obtain ⟨n, c⟩ := r
  cases c <;> simp [runEntry, runSpec, pushConstraint, freshEntry, Json.Value.pushTo,
    Json.Value.push]

theorem runEntry_append {g : List Row} (hg : g ≠ []) (r : Row) :
    runEntry (g ++ [r]) = pushConstraint r (runEntry g) := by
  obtain ⟨n, c⟩ := r
  cases c with
  | none => simp [runEntry, runSpec, pushConstraint, List.head?_append_of_ne_nil _ hg]
  | some c =>
    simp [runEntry, runSpec, pushConstraint, List.head?_append_of_ne_nil _ hg,
      Json.Value.pushTo, Json.Value.push]

theorem pushRow_selectedRow (es : List (Term × Json.Value)) (r : Row) :
    pushRow es (selectedRow r) =
      (if es.getLast?.map (·.1) = some r.1.term then es else es ++ [freshEntry r]).modifyLast
        (pushConstraint r) := by
  have hlit (s : String) : literalValue (.simple s) = some s := rfl
  obtain ⟨n, c⟩ := r
  unfold pushRow
  simp only [selectedRow_p, selectedRow_action, selectedRow_left, selectedRow_op,
    selectedRow_right, Option.bind_some, hlit, Option.getD_some]
  -- the entries to modify are chosen by the last one, whether or not there is a constraint
  cases es.getLast? with
  | none =>
    cases c with
    | none => exact (Lists.modifyLast_id _).symm
    | some c => rfl
  | some last =>
    simp only [Option.map_some, Option.some.injEq]
    cases c with
    | none => exact (Lists.modifyLast_id _).symm
    | some c => rfl

theorem pushRow_runEntry {gs : List (List Row)} (h : Runs.Cut nodeId gs) (r : Row) :
    pushRow (gs.map runEntry) (selectedRow r) = (Runs.addTo nodeId gs r).map runEntry := by
  rw [pushRow_selectedRow]
  rcases Runs.addTo_cases h r with ⟨init, g, rfl, hk, he⟩ | ⟨hk, he⟩
  · -- the row goes to the last entry
    have hg : g ≠ [] := h.ne_nil g (by simp)
    have ht : (runEntry g).1 = r.1.term := by
      obtain ⟨a, g, rfl⟩ := List.exists_cons_of_ne_nil hg
      exact congrArg Term.blank (hk a List.mem_cons_self)
    rw [he, List.map_append, List.map_append, List.map_singleton, List.map_singleton, if_pos,
      List.modifyLast_concat, runEntry_append hg]
    simp [ht]
  · have hne : (gs.map runEntry).getLast?.map (·.1) ≠ some r.1.term := by
      intro hl
      simp only [List.getLast?_map, Option.map_map, Option.map_eq_some_iff] at hl
      obtain ⟨g, hg, ht⟩ := hl
      obtain ⟨a, g, rfl⟩ := List.exists_cons_of_ne_nil (h.ne_nil g (List.mem_of_getLast? hg))
      exact hk _ hg a List.mem_cons_self (Term.blank.inj ht)
    rw [he, if_neg hne, List.modifyLast_concat, List.map_append, List.map_singleton,
      runEntry_singleton]

/-- The loop computes the entries of the runs. -/
theorem foldl_pushRow (l : List Row) :
    (l.map selectedRow).foldl pushRow [] = (Runs.runs nodeId l).map runEntry := by
  have hstep : ∀ gs : List (List Row), Runs.Cut nodeId gs →
      (l.map selectedRow).foldl pushRow (gs.map runEntry) =
        (l.foldl (Runs.addTo nodeId) gs).map runEntry := by
    induction l with
    | nil => exact fun gs _ => rfl
    | cons r l ih =>
      intro gs h
      rw [List.map_cons, List.foldl_cons, List.foldl_cons, pushRow_runEntry h r]
      exact ih _ (h.addTo r)
  rw [← Runs.foldl_addTo, ← hstep [] Runs.cut_nil]
  rfl

theorem dropEmptyConstraint_runEntry (g : List Row) :
    dropEmptyConstraint (runEntry g).2 = (runSpec g).json := by
  unfold dropEmptyConstraint runEntry PermissionSpec.json
  cases hc : (runSpec g).constraints with
  | nil => simp [Json.Value.field?, Json.Value.isEmptyArray, Json.Value.remove, List.lookup_cons]
  | cons c cs => simp [Json.Value.field?, Json.Value.isEmptyArray, List.lookup_cons]

/-- One entry for each run of rows. -/
theorem permissionEntries_selectedRow (l : List Row) :
    permissionEntries (l.map selectedRow) =
      (Runs.runs nodeId l).map fun g => (runSpec g).json := by
  rw [permissionEntries, foldl_pushRow, List.map_map]
  exact List.map_congr_left fun g _ => dropEmptyConstraint_runEntry g

/-! ## Runs and permissions -/

/-- The rows of the nodes `ns`, sorted. -/
structure SortedRows (ns : List PermissionNode) (l : List Row) : Prop where
  nodup : (ns.flatMap (·.ids)).Nodup
  increasing : ∀ n ∈ ns, n.constraints.Pairwise (·.order < ·.order)
  perm : l.Perm (ns.flatMap (·.rows))
  sorted : l.Pairwise RowLE

/-- Where two nodes have the same place, one with several constraints leaves no room for any
constraint of the other. -/
def Apart (ns : List PermissionNode) : Prop :=
  ∀ n ∈ ns, ∀ n' ∈ ns, n.order = n'.order → n.id ≠ n'.id → 2 ≤ n.constraints.length →
    n'.constraints = []

instance (ns : List PermissionNode) : Decidable (Apart ns) :=
  inferInstanceAs (Decidable (∀ n ∈ ns, ∀ n' ∈ ns, _ → _ → _ → _))

theorem rows_ne_nil (n : PermissionNode) : n.rows ≠ [] := by
  unfold PermissionNode.rows
  split_ifs with h
  · simp
  · simpa using h

theorem runSpec_rows (n : PermissionNode) : runSpec n.rows = n.spec := by
  unfold PermissionNode.rows PermissionNode.spec
  split_ifs with h
  · simp [runSpec, h]
  · obtain ⟨c, cs, hc⟩ := List.exists_cons_of_ne_nil h
    simp [runSpec, hc, List.filterMap_map]

namespace SortedRows
variable {ns : List PermissionNode} {l : List Row}

theorem mem_iff (h : SortedRows ns l) {r : Row} : r ∈ l ↔ r.1 ∈ ns ∧ r ∈ r.1.rows := by
  rw [h.perm.mem_iff, List.mem_flatMap]
  constructor
  · rintro ⟨n, hn, hr⟩
    obtain rfl := (mem_rows.mp hr).1
    exact ⟨hn, hr⟩
  · rintro ⟨hn, hr⟩
    exact ⟨_, hn, hr⟩

theorem ids_nodup (h : SortedRows ns l) : (ns.map (·.id)).Nodup := by
  have hs : (ns.map (·.id)).Sublist (ns.flatMap (·.ids)) := by
    clear h
    induction ns with
    | nil => exact List.Sublist.refl _
    | cons n ns ih =>
      rw [List.map_cons, List.flatMap_cons, PermissionNode.ids, List.cons_append]
      exact (ih.trans (List.sublist_append_right _ _)).cons_cons n.id
  exact h.nodup.sublist hs

theorem eq_of_id (h : SortedRows ns l) {n n' : PermissionNode} (hn : n ∈ ns) (hn' : n' ∈ ns)
    (he : n.id = n'.id) : n = n' := List.inj_on_of_nodup_map h.ids_nodup hn hn' he

theorem nodup_rows (h : SortedRows ns l) : l.Nodup :=
  h.perm.nodup_iff.mpr (List.Nodup.of_map rowId (nodup_rowIds h.nodup))

/-- Two rows of one node are rows of two of its constraints. -/
theorem two_le_of_rows {n : PermissionNode} {r r' : Row} (hr : r ∈ n.rows) (hr' : r' ∈ n.rows)
    (hne : r ≠ r') : 2 ≤ n.constraints.length ∧ 1 ≤ rowRank r := by
  obtain ⟨hn, hc⟩ := mem_rows.mp hr
  obtain ⟨hn', hc'⟩ := mem_rows.mp hr'
  have hd : r.2 ≠ r'.2 := fun he => hne (Prod.ext (hn.trans hn'.symm) he)
  rcases hc with ⟨hnil, hc⟩ | ⟨c, hcm, hc⟩ <;> rcases hc' with ⟨hnil', hc'⟩ | ⟨c', hcm', hc'⟩
  · exact absurd (hc.trans hc'.symm) hd
  · rw [hnil] at hcm'
    exact absurd hcm' List.not_mem_nil
  · rw [hnil'] at hcm
    exact absurd hcm List.not_mem_nil
  · have hcne : c ≠ c' := fun he => hd (by rw [hc, hc', he])
    have hsub : [c, c'] ⊆ n.constraints := by
      intro x hx
      rcases List.mem_pair.mp hx with rfl | rfl <;> assumption
    have hnd : [c, c'].Nodup := by simp [hcne]
    exact ⟨(List.subperm_of_subset hnd hsub).length_le, by simp [rowRank, hc]⟩

theorem rowRank_of_nil {n : PermissionNode} {r : Row} (hr : r ∈ n.rows) (hn : n.constraints = []) :
    rowRank r = 0 := by
  rcases (mem_rows.mp hr).2 with ⟨-, hc⟩ | ⟨c, hc, -⟩
  · simp [rowRank, hc]
  · rw [hn] at hc
    exact absurd hc List.not_mem_nil

theorem uninterrupted (h : SortedRows ns l) (ha : Apart ns) : Runs.Uninterrupted nodeId l := by
  intro a b c hs hac
  have hmem {r : Row} (hr : r ∈ [a, b, c]) : r.1 ∈ ns ∧ r ∈ r.1.rows := h.mem_iff.mp (hs.subset hr)
  obtain ⟨hna, hra⟩ := hmem (r := a) (by simp)
  obtain ⟨hnb, hrb⟩ := hmem (r := b) (by simp)
  obtain ⟨hnc, hrc⟩ := hmem (r := c) (by simp)
  have hn : a.1 = c.1 := h.eq_of_id hna hnc hac
  have hsorted := h.sorted.sublist hs
  simp only [List.pairwise_cons, List.mem_cons, List.not_mem_nil, or_false, forall_eq_or_imp,
    forall_eq] at hsorted
  obtain ⟨⟨hab, -⟩, hbc, -⟩ := hsorted
  by_contra hne
  have hd : a ≠ c := by
    have hnd := h.nodup_rows.sublist hs
    simp only [List.nodup_cons, List.mem_cons, List.not_mem_nil, or_false, not_or] at hnd
    exact hnd.1.2
  obtain ⟨htwo, hrank⟩ := two_le_of_rows hra (hn ▸ hrc) hd
  -- `b` stands between rows of one place, so its node has that place too, and no constraints
  have horder : a.1.order = b.1.order := by
    have he : a.1.order = c.1.order := by rw [hn]
    unfold RowLE at hab hbc
    omega
  have hnil := ha a.1 hna b.1 hnb horder (fun he => hne he.symm) htwo
  have hb : rowRank b = 0 := rowRank_of_nil hrb hnil
  unfold RowLE at hab
  omega

theorem rows_pairwise {n : PermissionNode} (h : n.constraints.Pairwise (·.order < ·.order)) :
    n.rows.Pairwise RowLE := by
  unfold PermissionNode.rows
  split_ifs
  · exact List.pairwise_singleton _ _
  · refine List.pairwise_map.mpr (h.imp fun {c c'} hlt => Or.inr ⟨rfl, ?_⟩)
    simp only [rowRank, Option.map_some, Option.getD_some]
    omega

/-- The rows of a node are told apart by their rank. -/
theorem eq_of_rank {n : PermissionNode} (h : n.constraints.Pairwise (·.order < ·.order))
    {r r' : Row} (hr : r ∈ n.rows) (hr' : r' ∈ n.rows) (he : rowRank r = rowRank r') : r = r' := by
  obtain ⟨rfl, hc⟩ := mem_rows.mp hr
  obtain ⟨hn, hc'⟩ := mem_rows.mp hr'
  refine Prod.ext hn.symm ?_
  rcases hc with ⟨-, hc⟩ | ⟨c, hcm, hc⟩ <;> rcases hc' with ⟨-, hc'⟩ | ⟨c', hcm', hc'⟩
  · rw [hc, hc']
  · simp [rowRank, hc, hc'] at he
  · simp [rowRank, hc, hc'] at he
  · simp only [rowRank, hc, hc', Option.map_some, Option.getD_some, Nat.add_right_cancel_iff] at he
    rw [hc, hc']
    refine congrArg some (by_contra fun hne => ?_)
    have hs : Std.Symm fun c c' : ConstraintNode => c.order ≠ c'.order := ⟨fun _ _ h => h.symm⟩
    exact (h.imp fun hlt => Nat.ne_of_lt hlt).forall hcm hcm' hne he

/-- All rows of a node, in the order of the list, are the rows of the node in their own order. -/
theorem filter_eq_rows (h : SortedRows ns l) {n : PermissionNode} (hn : n ∈ ns) :
    (l.filter fun r => nodeId r = n.id) = n.rows := by
  have hp : (l.filter fun r => nodeId r = n.id).Perm n.rows := by
    refine (List.perm_ext_iff_of_nodup (h.nodup_rows.filter _) ?_).mpr fun r => ?_
    · have hs : n.rows.Sublist (ns.flatMap (·.rows)) := by
        obtain ⟨as, bs, rfl⟩ := List.append_of_mem hn
        rw [List.flatMap_append, List.flatMap_cons]
        exact (List.sublist_append_left _ _).trans (List.sublist_append_right _ _)
      exact (h.perm.nodup_iff.mp h.nodup_rows).sublist hs
    · rw [List.mem_filter, h.mem_iff, decide_eq_true_eq]
      constructor
      · rintro ⟨⟨hr, hrr⟩, he⟩
        rwa [h.eq_of_id hr hn he] at hrr
      · intro hr
        obtain rfl := (mem_rows.mp hr).1
        exact ⟨⟨hn, hr⟩, rfl⟩
  -- both lists are sorted, and no two rows of a node have one rank
  refine hp.eq_of_pairwise ?_ (h.sorted.sublist List.filter_sublist)
    (rows_pairwise (h.increasing n hn))
  intro r r' hr hr' hle hle'
  have hrn := hp.mem_iff.mp hr
  refine eq_of_rank (h.increasing n hn) hrn hr' ?_
  have ho : r.1.order = r'.1.order := by rw [(mem_rows.mp hrn).1, (mem_rows.mp hr').1]
  unfold RowLE at hle hle'
  omega

/-- Nodes that are apart: their runs are their rows, in some order of the nodes. -/
theorem exists_runs (h : SortedRows ns l) (ha : Apart ns) :
    ∃ ks : List PermissionNode, ks.Perm ns ∧ Runs.runs nodeId l = ks.map (·.rows) := by
  have hu := h.uninterrupted ha
  have hc : Runs.Cut nodeId (Runs.runs nodeId l) := Runs.cut_runs l
  -- each run holds all rows of a node
  have hruns : ∀ g ∈ Runs.runs nodeId l, ∃ n, n ∈ ns ∧ g = n.rows := by
    intro g hg
    obtain ⟨a, ham⟩ := List.exists_mem_of_ne_nil g (hc.ne_nil g hg)
    have hal : a ∈ l := by
      rw [← Runs.flatten_runs nodeId l]
      exact List.mem_flatten.mpr ⟨g, hg, ham⟩
    refine ⟨a.1, (h.mem_iff.mp hal).1, ?_⟩
    rw [Runs.run_eq_filter hu hg ham]
    exact h.filter_eq_rows (h.mem_iff.mp hal).1
  obtain ⟨ks, hks, hmem⟩ := Lists.exists_map_of_forall (·.rows) (· ∈ ns) hruns
  refine ⟨ks, ?_, hks⟩
  have hp := Runs.pairwise_of_uninterrupted hc (by rwa [Runs.flatten_runs])
  -- no node has two runs
  have hn : ks.Nodup := by
    rw [hks] at hp
    refine (List.pairwise_map.mp hp).imp fun {n n'} hne he => ?_
    obtain ⟨r, hr⟩ := List.exists_mem_of_ne_nil _ (rows_ne_nil n)
    exact hne r hr r (he ▸ hr) rfl
  refine (List.perm_ext_iff_of_nodup hn (List.Nodup.of_map _ h.ids_nodup)).mpr fun n => ?_
  refine ⟨hmem n, fun hm => ?_⟩
  -- every node has rows, and each of them is in some run
  obtain ⟨r, hr⟩ := List.exists_mem_of_ne_nil _ (rows_ne_nil n)
  have hrl : r ∈ (Runs.runs nodeId l).flatten := by
    rw [Runs.flatten_runs, h.perm.mem_iff]
    exact List.mem_flatMap.mpr ⟨n, hm, hr⟩
  rw [hks] at hrl
  obtain ⟨g, hg, hrg⟩ := List.mem_flatten.mp hrl
  obtain ⟨k, hk, rfl⟩ := List.mem_map.mp hg
  have he : n = k := (mem_rows.mp hr).1.symm.trans (mem_rows.mp hrg).1
  rwa [he]

/-- The permissions come back complete, in some order. -/
theorem exists_entries (h : SortedRows ns l) (ha : Apart ns) :
    ∃ ks : List PermissionNode, ks.Perm ns ∧
      permissionEntries (l.map selectedRow) = ks.map (·.spec.json) := by
  obtain ⟨ks, hp, hr⟩ := h.exists_runs ha
  refine ⟨ks, hp, ?_⟩
  rw [permissionEntries_selectedRow, hr, List.map_map]
  exact List.map_congr_left fun n _ => congrArg PermissionSpec.json (runSpec_rows n)

/-- Nodes with increasing places come back in their order. -/
theorem entries_eq (h : SortedRows ns l) (ho : ns.Pairwise (·.order < ·.order)) :
    permissionEntries (l.map selectedRow) = ns.map (·.spec.json) := by
  have hs : Std.Symm fun n n' : PermissionNode => n.order ≠ n'.order := ⟨fun _ _ h => h.symm⟩
  have hne {n n' : PermissionNode} (hn : n ∈ ns) (hn' : n' ∈ ns) (he : n.order = n'.order) :
      n = n' := by_contra fun hd => (ho.imp fun hlt => Nat.ne_of_lt hlt).forall hn hn' hd he
  have ha : Apart ns := fun n hn n' hn' he hd => absurd (congrArg _ (hne hn hn' he)) hd
  obtain ⟨ks, hp, hr⟩ := h.exists_runs ha
  have hks : ks.Pairwise (·.order ≤ ·.order) := by
    have hl := h.sorted
    rw [← Runs.flatten_runs nodeId l, hr, List.pairwise_flatten] at hl
    refine (List.pairwise_map.mp hl.2).imp fun {n n'} hle => ?_
    obtain ⟨r, hrn⟩ := List.exists_mem_of_ne_nil _ (rows_ne_nil n)
    obtain ⟨r', hrn'⟩ := List.exists_mem_of_ne_nil _ (rows_ne_nil n')
    have hrr := hle r hrn r' hrn'
    rw [RowLE, (mem_rows.mp hrn).1, (mem_rows.mp hrn').1] at hrr
    omega
  have he : ks = ns := hp.eq_of_pairwise
    (fun n n' hn hn' h₁ h₂ => hne (hp.mem_iff.mp hn) hn' (Nat.le_antisymm h₁ h₂)) hks
    (ho.imp fun hlt => Nat.le_of_lt hlt)
  rw [permissionEntries_selectedRow, hr, he, List.map_map]
  exact List.map_congr_left fun n _ => congrArg PermissionSpec.json (runSpec_rows n)

/-- However the rows are sorted, there is an entry for every node at least. -/
theorem length_le_entries (h : SortedRows ns l) :
    ns.length ≤ (permissionEntries (l.map selectedRow)).length := by
  rw [permissionEntries_selectedRow, List.length_map]
  have hle : (ns.map (·.id)).length ≤ (Runs.runs nodeId l).length :=
    Runs.length_le_length_runs h.ids_nodup fun k hk => by
      obtain ⟨n, hn, rfl⟩ := List.mem_map.mp hk
      obtain ⟨r, hr⟩ := List.exists_mem_of_ne_nil _ (rows_ne_nil n)
      refine ⟨r, h.perm.mem_iff.mpr (List.mem_flatMap.mpr ⟨n, hn, hr⟩), ?_⟩
      rw [nodeId, (mem_rows.mp hr).1]
  simpa using hle

/-- As many entries as nodes: then no node is interrupted. -/
theorem uninterrupted_of_length (h : SortedRows ns l)
    (hl : (permissionEntries (l.map selectedRow)).length ≤ ns.length) :
    Runs.Uninterrupted nodeId l := by
  rw [permissionEntries_selectedRow, List.length_map] at hl
  refine Runs.uninterrupted_of_length_le h.ids_nodup (fun k hk => ?_) (by simpa using hl)
  obtain ⟨n, hn, rfl⟩ := List.mem_map.mp hk
  obtain ⟨r, hr⟩ := List.exists_mem_of_ne_nil _ (rows_ne_nil n)
  refine ⟨r, h.perm.mem_iff.mpr (List.mem_flatMap.mpr ⟨n, hn, hr⟩), ?_⟩
  rw [nodeId, (mem_rows.mp hr).1]

end SortedRows

end DsSqlDps
