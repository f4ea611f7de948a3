import DsSqlDps.Config.Seeding
import DsSqlDps.Lib.Runs

/-!
# The rows of a policy

What the query for the rows returns on a store whose blank nodes have the roles that seeding gives
them, be it with all of their quads or only with some.
-/

namespace DsSqlDps
open Rdf Sparql Vocab

/-! ## Roles -/

/-- The permissions of the dataset `d` are among `nodes`, and the quads of each node say what the
node says. Nothing is said of which of these quads are there. -/
structure Roles (g : Store) (d : String) (nodes : List PermissionNode) : Prop where
  link : ∀ o, policyQuad d (odrl "permission") o ∈ g → ∃ n ∈ nodes, o = n.term
  order : ∀ n ∈ nodes, ∀ o, ⟨n.term, .iri (ds "order"), o⟩ ∈ g → o = .integer n.order
  action : ∀ n ∈ nodes, ∀ o, ⟨n.term, .iri (odrl "action"), o⟩ ∈ g → o = .simple n.action
  constraint : ∀ n ∈ nodes, ∀ o, ⟨n.term, .iri (odrl "constraint"), o⟩ ∈ g →
    ∃ c ∈ n.constraints, o = c.term
  corder : ∀ n ∈ nodes, ∀ c ∈ n.constraints, ∀ o,
    ⟨c.term, .iri (ds "order"), o⟩ ∈ g → o = .integer c.order
  leftOperand : ∀ n ∈ nodes, ∀ c ∈ n.constraints, ∀ o,
    ⟨c.term, .iri (odrl "leftOperand"), o⟩ ∈ g → o = .simple c.spec.leftOperand
  operator : ∀ n ∈ nodes, ∀ c ∈ n.constraints, ∀ o,
    ⟨c.term, .iri (odrl "operator"), o⟩ ∈ g → o = .simple c.spec.operator
  rightOperand : ∀ n ∈ nodes, ∀ c ∈ n.constraints, ∀ o,
    ⟨c.term, .iri (odrl "rightOperand"), o⟩ ∈ g → o = .simple c.spec.rightOperand
  nodup : (nodes.flatMap (·.ids)).Nodup

/-- All quads that the query needs of a constraint are there. -/
def ConstraintNode.Shown (g : Store) (p : Term) (c : ConstraintNode) : Prop :=
  ∀ q ∈ c.quads p, q ∈ g

instance (g : Store) (p : Term) (c : ConstraintNode) : Decidable (c.Shown g p) :=
  inferInstanceAs (Decidable (∀ q ∈ c.quads p, q ∈ g))

/-- All quads that the query needs of a permission are there. -/
def PermissionNode.Shown (g : Store) (d : String) (n : PermissionNode) : Prop :=
  policyQuad d (odrl "permission") n.term ∈ g ∧ ⟨n.term, .iri (ds "order"), .integer n.order⟩ ∈ g ∧
    ⟨n.term, .iri (odrl "action"), .simple n.action⟩ ∈ g

instance (g : Store) (d : String) (n : PermissionNode) : Decidable (n.Shown g d) :=
  inferInstanceAs (Decidable (_ ∧ _ ∧ _))

/-- What the query sees of a permission. -/
def PermissionNode.shown (g : Store) (n : PermissionNode) : PermissionNode :=
  { n with constraints := n.constraints.filter fun c => decide (c.Shown g n.term) }

def shownNodes (g : Store) (d : String) (nodes : List PermissionNode) : List PermissionNode :=
  (nodes.filter fun n => decide (n.Shown g d)).map (·.shown g)

/-! ## Rows -/

/-- A permission, with one of its constraints or without any. -/
abbrev Row := PermissionNode × Option ConstraintNode

def PermissionNode.rows (n : PermissionNode) : List Row :=
  if n.constraints = [] then [(n, none)] else n.constraints.map fun c => (n, some c)

def PermissionNode.solution (n : PermissionNode) : Solution :=
  [("action", .simple n.action), ("porder", .integer n.order), ("p", n.term)]

def ConstraintNode.solution (c : ConstraintNode) : Solution :=
  [("right", .simple c.spec.rightOperand), ("op", .simple c.spec.operator),
    ("left", .simple c.spec.leftOperand), ("corder", .integer c.order), ("c", c.term)]

def rowSolution (r : Row) : Solution :=
  (r.2.map (·.solution)).getD [] ++ r.1.solution

section
variable {g : Store} {d : String} {nodes : List PermissionNode}

theorem Roles.mem_required (h : Roles g d nodes) {μ : Solution} :
    μ ∈ bgpFrom g (rowsPattern (policyIri d)).required [] ↔
      ∃ n ∈ nodes, n.Shown g d ∧ μ = n.solution := by
  unfold rowsPattern outTriple
  rw [mem_bgpFrom_object (t := .iri (policyIri d)) rfl rfl]
  constructor
  · rintro ⟨t, ht, hμ⟩
    obtain ⟨n, hn, rfl⟩ := h.link t ht
    rw [mem_bgpFrom_object (t := n.term) (by simp [TermPattern.value]) (by simp)] at hμ
    obtain ⟨o, ho, hμ⟩ := hμ
    rw [mem_bgpFrom_object (t := n.term) (by simp [TermPattern.value]) (by simp)] at hμ
    obtain ⟨a, ha, hμ⟩ := hμ
    have ho' := h.order n hn o ho
    have ha' := h.action n hn a ha
    subst ho' ha'
    exact ⟨n, hn, ⟨ht, ho, ha⟩, mem_bgpFrom_nil.mp hμ⟩
  · rintro ⟨n, hn, ⟨ht, ho, ha⟩, rfl⟩
    refine ⟨n.term, ht, ?_⟩
    rw [mem_bgpFrom_object (t := n.term) (by simp [TermPattern.value]) (by simp)]
    refine ⟨_, ho, ?_⟩
    rw [mem_bgpFrom_object (t := n.term) (by simp [TermPattern.value]) (by simp)]
    exact ⟨_, ha, mem_bgpFrom_nil.mpr rfl⟩

/-- The patterns of the optional part. -/
def constraintPatterns : List TriplePattern :=
  [outTriple (.var "p") (odrl "constraint") "c", outTriple (.var "c") (ds "order") "corder",
    outTriple (.var "c") (odrl "leftOperand") "left", outTriple (.var "c") (odrl "operator") "op",
    outTriple (.var "c") (odrl "rightOperand") "right"]

theorem Roles.mem_optional (h : Roles g d nodes) {n : PermissionNode} (hn : n ∈ nodes)
    {μ : Solution} :
    μ ∈ bgpFrom g constraintPatterns n.solution ↔
      ∃ c ∈ n.constraints, c.Shown g n.term ∧ μ = c.solution ++ n.solution := by
  unfold constraintPatterns outTriple PermissionNode.solution
  rw [mem_bgpFrom_object (t := n.term) (by simp [TermPattern.value]) (by simp)]
  constructor
  · rintro ⟨t, ht, hμ⟩
    obtain ⟨c, hc, rfl⟩ := h.constraint n hn t ht
    rw [mem_bgpFrom_object (t := c.term) (by simp [TermPattern.value]) (by simp)] at hμ
    obtain ⟨o, ho, hμ⟩ := hμ
    rw [mem_bgpFrom_object (t := c.term) (by simp [TermPattern.value]) (by simp)] at hμ
    obtain ⟨l, hl, hμ⟩ := hμ
    rw [mem_bgpFrom_object (t := c.term) (by simp [TermPattern.value]) (by simp)] at hμ
    obtain ⟨op, hop, hμ⟩ := hμ
    rw [mem_bgpFrom_object (t := c.term) (by simp [TermPattern.value]) (by simp)] at hμ
    obtain ⟨r, hr, hμ⟩ := hμ
    obtain rfl := h.corder n hn c hc o ho
    obtain rfl := h.leftOperand n hn c hc l hl
    obtain rfl := h.operator n hn c hc op hop
    obtain rfl := h.rightOperand n hn c hc r hr
    refine ⟨c, hc, ?_, mem_bgpFrom_nil.mp hμ⟩
    simp only [ConstraintNode.Shown, ConstraintNode.quads, List.forall_mem_cons]
    exact ⟨ht, ho, hl, hop, hr, fun q hq => absurd hq List.not_mem_nil⟩
  · rintro ⟨c, hc, hs, rfl⟩
    simp only [ConstraintNode.Shown, ConstraintNode.quads, List.forall_mem_cons] at hs
    obtain ⟨ht, ho, hl, hop, hr, -⟩ := hs
    refine ⟨c.term, ht, ?_⟩
    rw [mem_bgpFrom_object (t := c.term) (by simp [TermPattern.value]) (by simp)]
    refine ⟨_, ho, ?_⟩
    rw [mem_bgpFrom_object (t := c.term) (by simp [TermPattern.value]) (by simp)]
    refine ⟨_, hl, ?_⟩
    rw [mem_bgpFrom_object (t := c.term) (by simp [TermPattern.value]) (by simp)]
    refine ⟨_, hop, ?_⟩
    rw [mem_bgpFrom_object (t := c.term) (by simp [TermPattern.value]) (by simp)]
    exact ⟨_, hr, mem_bgpFrom_nil.mpr rfl⟩

theorem mem_rows {n : PermissionNode} {r : Row} :
    r ∈ n.rows ↔
      r.1 = n ∧ ((n.constraints = [] ∧ r.2 = none) ∨ ∃ c ∈ n.constraints, r.2 = some c) := by
  obtain ⟨n', c'⟩ := r
  unfold PermissionNode.rows
  split_ifs with h
  · simp [h]
  · simp only [List.mem_map, Prod.mk.injEq, h, false_and, false_or]
    constructor
    · rintro ⟨c, hc, rfl, rfl⟩
      exact ⟨rfl, c, hc, rfl⟩
    · rintro ⟨rfl, c, hc, rfl⟩
      exact ⟨c, hc, rfl, rfl⟩

theorem Roles.mem_rows (h : Roles g d nodes) {n : PermissionNode} (hn : n ∈ nodes)
    {μ : Solution} :
    μ ∈ optional g constraintPatterns n.solution ↔ ∃ r ∈ (n.shown g).rows, μ = rowSolution r := by
  have hc : ∀ c, c ∈ (n.shown g).constraints ↔ c ∈ n.constraints ∧ c.Shown g n.term := by
    simp [PermissionNode.shown]
  unfold Sparql.optional
  split_ifs with he
  · -- OPTIONAL keeps the solution if no constraint is seen
    have hnil : (n.shown g).constraints = [] := by
      refine List.eq_nil_iff_forall_not_mem.mpr fun c hcs => ?_
      obtain ⟨hcn, hs⟩ := (hc c).mp hcs
      have hm := (h.mem_optional hn).mpr ⟨c, hcn, hs, rfl⟩
      rw [he] at hm
      exact absurd hm List.not_mem_nil
    rw [List.mem_singleton, PermissionNode.rows, if_pos hnil]
    simp [rowSolution, PermissionNode.solution, PermissionNode.shown, PermissionNode.term]
  · have hne : (n.shown g).constraints ≠ [] := by
      obtain ⟨μ, hμ⟩ := List.exists_mem_of_ne_nil _ he
      obtain ⟨c, hcn, hs, -⟩ := (h.mem_optional hn).mp hμ
      exact List.ne_nil_of_mem ((hc c).mpr ⟨hcn, hs⟩)
    rw [h.mem_optional hn, PermissionNode.rows, if_neg hne]
    simp only [List.mem_map]
    constructor
    · rintro ⟨c, hcn, hs, rfl⟩
      exact ⟨_, ⟨c, (hc c).mpr ⟨hcn, hs⟩, rfl⟩, rfl⟩
    · rintro ⟨_, ⟨c, hcs, rfl⟩, rfl⟩
      exact ⟨c, ((hc c).mp hcs).1, ((hc c).mp hcs).2, rfl⟩

/-- The solutions of the query, in any order: the rows of the permissions that it sees. -/
theorem Roles.mem_solutions (h : Roles g d nodes) {μ : Solution} :
    μ ∈ (rowsPattern (policyIri d)).solutions g ↔
      ∃ r ∈ (shownNodes g d nodes).flatMap (·.rows), μ = rowSolution r := by
  have hs : (rowsPattern (policyIri d)).solutions g =
      (bgpFrom g (rowsPattern (policyIri d)).required []).flatMap
        (optional g constraintPatterns) := rfl
  rw [hs, List.mem_flatMap]
  simp only [List.mem_flatMap, shownNodes, List.mem_map, List.mem_filter, decide_eq_true_eq]
  constructor
  · rintro ⟨ν, hν, hμ⟩
    obtain ⟨n, hn, hshown, rfl⟩ := h.mem_required.mp hν
    obtain ⟨r, hr, rfl⟩ := (h.mem_rows hn).mp hμ
    exact ⟨r, ⟨_, ⟨n, ⟨hn, hshown⟩, rfl⟩, hr⟩, rfl⟩
  · rintro ⟨r, ⟨_, ⟨n, ⟨hn, hshown⟩, rfl⟩, hr⟩, rfl⟩
    exact ⟨n.solution, h.mem_required.mpr ⟨n, hn, hshown, rfl⟩, (h.mem_rows hn).mpr ⟨r, hr, rfl⟩⟩

/-! ## Answers -/

def rowId (r : Row) : ℕ × Option ℕ := (r.1.id, r.2.map (·.id))

theorem rowId_of_rowSolution {r r' : Row} (h : rowSolution r = rowSolution r') :
    rowId r = rowId r' := by
  obtain ⟨n, c⟩ := r
  obtain ⟨n', c'⟩ := r'
  have hp := congrArg (·.get "p") h
  have hc := congrArg (·.get "c") h
  cases c <;> cases c' <;>
    simp_all [rowSolution, PermissionNode.solution, ConstraintNode.solution, rowId,
      PermissionNode.term, ConstraintNode.term]

theorem nodup_rowIds {ns : List PermissionNode} (h : (ns.flatMap (·.ids)).Nodup) :
    ((ns.flatMap (·.rows)).map rowId).Nodup := by
  rw [List.nodup_flatMap] at h
  rw [List.map_flatMap, List.nodup_flatMap]
  refine ⟨fun n hn => ?_, h.2.imp fun {n n'} hd => ?_⟩
  · unfold PermissionNode.rows
    split_ifs
    · exact List.nodup_singleton _
    · have hc := (List.nodup_cons.mp (h.1 n hn)).2
      have hi : Function.Injective fun i : ℕ => (n.id, some i) := fun i j he => by simpa using he
      simpa [Function.comp_def, rowId] using hc.map hi
  · intro x hx hx'
    obtain ⟨r, hr, rfl⟩ := List.mem_map.mp hx
    obtain ⟨r', hr', he⟩ := List.mem_map.mp hx'
    have hid : n'.id = n.id := by
      have h₁ := congrArg Prod.fst he
      rwa [rowId, rowId, (DsSqlDps.mem_rows.mp hr).1, (DsSqlDps.mem_rows.mp hr').1] at h₁
    exact hd List.mem_cons_self (by rw [← hid]; exact List.mem_cons_self)

theorem shownNodes_ids_sublist (g : Store) (d : String) (nodes : List PermissionNode) :
    ((shownNodes g d nodes).flatMap (·.ids)).Sublist (nodes.flatMap (·.ids)) := by
  induction nodes with
  | nil => exact List.Sublist.refl _
  | cons n nodes ih =>
    by_cases hs : n.Shown g d
    · have he : shownNodes g d (n :: nodes) = n.shown g :: shownNodes g d nodes := by
        simp [shownNodes, hs]
      rw [he, List.flatMap_cons, List.flatMap_cons]
      exact ((List.filter_sublist.map _).cons_cons n.id).append ih
    · have he : shownNodes g d (n :: nodes) = shownNodes g d nodes := by simp [shownNodes, hs]
      rw [he, List.flatMap_cons]
      exact ih.trans (List.sublist_append_right _ _)

theorem Roles.shown_nodup (h : Roles g d nodes) :
    ((shownNodes g d nodes).flatMap (·.ids)).Nodup :=
  h.nodup.sublist (shownNodes_ids_sublist g d nodes)

theorem Roles.solutions_perm (h : Roles g d nodes) :
    ((rowsPattern (policyIri d)).solutions g).Perm
      (((shownNodes g d nodes).flatMap (·.rows)).map rowSolution) := by
  have hn : (((shownNodes g d nodes).flatMap (·.rows)).map rowSolution).Nodup :=
    List.pairwise_map.mpr ((List.pairwise_map.mp (nodup_rowIds h.shown_nodup)).imp
      fun hne he => hne (rowId_of_rowSolution he))
  refine (List.perm_ext_iff_of_nodup (Query.solutions_nodup _ g) hn).mpr fun μ => ?_
  rw [h.mem_solutions, List.mem_map]
  exact ⟨fun ⟨r, hr, he⟩ => ⟨r, hr, he.symm⟩, fun ⟨r, hr, he⟩ => ⟨r, hr, he.symm⟩⟩

/-- The rank of a row within its permission: without a constraint it comes first. -/
def rowRank (r : Row) : ℕ := (r.2.map (·.order + 1)).getD 0

/-- The order that `ORDER BY ?porder ?corder` asks for. -/
def RowLE (r r' : Row) : Prop :=
  r.1.order < r'.1.order ∨ r.1.order = r'.1.order ∧ rowRank r ≤ rowRank r'

theorem key_rowSolution (s : String) (r : Row) :
    (rowsPattern s).key (rowSolution r) = [r.1.order + 1, rowRank r] := by
  obtain ⟨n, c⟩ := r
  cases c <;>
    simp [Query.key, rowsPattern, rowSolution, PermissionNode.solution, ConstraintNode.solution,
      rowRank]

theorem isSome_sortRank (r : Row) :
    ∀ v ∈ ["porder", "corder"], (sortRank ((rowSolution r).get v)).isSome = true := by
  obtain ⟨n, c⟩ := r
  cases c <;> simp [rowSolution, PermissionNode.solution, ConstraintNode.solution]

theorem key_le_iff (s : String) (r r' : Row) :
    (rowsPattern s).key (rowSolution r) ≤ (rowsPattern s).key (rowSolution r') ↔ RowLE r r' := by
  rw [key_rowSolution, key_rowSolution, ← not_lt, List.cons_lt_cons_iff, List.cons_lt_cons_iff,
    RowLE]
  simp only [add_lt_add_iff_right, add_left_inj, lt_irrefl, and_false, or_false]
  omega

/-- A row as the query returns it. -/
def selectedRow (r : Row) : Solution :=
  (rowSolution r).project ["p", "porder", "action", "corder", "left", "op", "right"]

/-- The solutions of the query, in any order, are rows of the permissions that it sees. -/
theorem Roles.exists_rows (h : Roles g d nodes) {sols : List Solution}
    (hp : sols.Perm ((rowsPattern (policyIri d)).solutions g)) :
    ∃ l : List Row, l.Perm ((shownNodes g d nodes).flatMap (·.rows)) ∧
      sols = l.map rowSolution := by
  have he := congrFun (congrFun (List.eq_map_comp_perm rowSolution) sols)
    ((shownNodes g d nodes).flatMap (·.rows))
  obtain ⟨l, hl, hperm⟩ := he.mpr (hp.trans h.solutions_perm)
  exact ⟨l, hperm, hl⟩

/-- An answer to the query: the rows of the permissions that it sees, in a sorted order. -/
theorem Roles.rows_of_answers (h : Roles g d nodes) {rows : List Solution}
    (ha : (rowsPattern (policyIri d)).Answers g rows) :
    ∃ l : List Row, l.Perm ((shownNodes g d nodes).flatMap (·.rows)) ∧ l.Pairwise RowLE ∧
      rows = l.map selectedRow := by
  obtain ⟨sols, hp, ho, rfl⟩ := ha
  obtain ⟨l, hl, rfl⟩ := h.exists_rows hp
  refine ⟨l, hl, ?_, by rw [List.map_map]; rfl⟩
  have hpair := List.pairwise_map.mp (ho fun μ hμ v hv => by
    obtain ⟨r, -, rfl⟩ := List.mem_map.mp hμ
    exact isSome_sortRank r v hv)
  exact hpair.imp fun hle => (key_le_iff _ _ _).mp hle

end

end DsSqlDps
