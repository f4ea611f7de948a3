import DsSqlDps.Config.Lookup

/-!
# What a seeding leaves in the store

An offer seeded from a given blank node on: its permission nodes and constraint nodes, the quads
they are written as, and which quad has which predicate.
-/

namespace DsSqlDps
open Rdf Sparql Vocab

/-! ## Nodes -/

structure ConstraintNode where
  id : ℕ
  order : ℕ
  spec : ConstraintSpec
deriving DecidableEq, Repr

structure PermissionNode where
  id : ℕ
  order : ℕ
  action : String
  constraints : List ConstraintNode
deriving DecidableEq, Repr

def ConstraintNode.term (c : ConstraintNode) : Term := .blank c.id

def PermissionNode.term (n : PermissionNode) : Term := .blank n.id

def constraintNodes : ℕ → ℕ → List ConstraintSpec → List ConstraintNode
  | _, _, [] => []
  | j, id, constraint :: rest => ⟨id, j, constraint⟩ :: constraintNodes (j + 1) (id + 1) rest

def permissionNodes : ℕ → ℕ → List PermissionSpec → List PermissionNode
  | _, _, [] => []
  | i, id, permission :: rest =>
    ⟨id, i, permission.action, constraintNodes 0 (id + 1) permission.constraints⟩ ::
      permissionNodes (i + 1) (id + permission.blanks) rest

/-- The quads of a constraint of the permission `p`. -/
def ConstraintNode.quads (p : Term) (c : ConstraintNode) : List Quad :=
  [⟨p, .iri (odrl "constraint"), c.term⟩,
    ⟨c.term, .iri (ds "order"), .integer c.order⟩,
    ⟨c.term, .iri (odrl "leftOperand"), .simple c.spec.leftOperand⟩,
    ⟨c.term, .iri (odrl "operator"), .simple c.spec.operator⟩,
    ⟨c.term, .iri (odrl "rightOperand"), .simple c.spec.rightOperand⟩]

/-- The quads of a permission besides those of its constraints. -/
def PermissionNode.heads (policy : Term) (n : PermissionNode) : List Quad :=
  [⟨policy, .iri (odrl "permission"), n.term⟩,
    ⟨n.term, .iri (rdf "type"), .iri (odrl "Permission")⟩,
    ⟨n.term, .iri (ds "order"), .integer n.order⟩,
    ⟨n.term, .iri (odrl "action"), .simple n.action⟩]

def PermissionNode.quads (policy : Term) (n : PermissionNode) : List Quad :=
  n.heads policy ++ n.constraints.flatMap (·.quads n.term)

/-- The quads of an offer besides those of its permissions. -/
def FileOffer.quads (offer : FileOffer) : List Quad :=
  let dataset := Term.iri (datasetIri offer.datasetId)
  let distribution := Term.iri (distributionIri offer.datasetId)
  let policy := Term.iri (policyIri offer.datasetId)
  [⟨dataset, .iri (rdf "type"), .iri (dcat "Dataset")⟩,
    ⟨dataset, .iri (dcterms "title"), .simple offer.title⟩,
    ⟨dataset, .iri (dcat "distribution"), distribution⟩,
    ⟨distribution, .iri (rdf "type"), .iri (dcat "Distribution")⟩,
    ⟨distribution, .iri (ds "filePath"), .simple offer.filePath.toStringLossy⟩,
    ⟨distribution, .iri (dcat "mediaType"), .simple offer.mediaType⟩,
    ⟨policy, .iri (rdf "type"), .iri (odrl "Offer")⟩,
    ⟨policy, .iri (odrl "target"), dataset⟩,
    ⟨policy, .iri (odrl "assigner"), .simple offer.assigner⟩]

/-- An offer with the first of the blank nodes that its seeding took. -/
structure Seeding where
  offer : FileOffer
  base : ℕ
deriving DecidableEq, Repr

namespace Seeding

def policy (σ : Seeding) : Term := .iri (policyIri σ.offer.datasetId)

def nodes (σ : Seeding) : List PermissionNode := permissionNodes 0 σ.base σ.offer.permissions

def quads (σ : Seeding) : List Quad :=
  σ.offer.quads ++ σ.nodes.flatMap (·.quads σ.policy)

theorem quads_ne_nil (σ : Seeding) : σ.quads ≠ [] := by
  unfold quads FileOffer.quads
  simp

end Seeding

/-! ## What `seed_offer` collects -/

section
variable (ox : Engine)

theorem namedNode_vocabulary {s : String} (h : s ∈ vocabulary) :
    namedNode ox s = .ok (.iri s) := namedNode_of_isOk ox (isOk_vocabulary ox h)

theorem xsd_integer : xsd "integer" = xsdInteger := by decide +kernel

theorem constraintQuads_eq (p : Term) (j fresh : ℕ) (constraints : List ConstraintSpec) :
    constraintQuads ox p j fresh constraints =
      .ok ((constraintNodes j fresh constraints).flatMap (·.quads p)) := by
  have hv {s : String} (h : s ∈ vocabulary) := namedNode_vocabulary ox h
  induction constraints generalizing j fresh with
  | nil => rfl
  | cons constraint rest ih =>
    rw [constraintQuads, ih, hv (s := odrl "constraint") (by simp [vocabulary]),
      hv (s := ds "order") (by simp [vocabulary]),
      hv (s := odrl "leftOperand") (by simp [vocabulary]),
      hv (s := odrl "operator") (by simp [vocabulary]),
      hv (s := odrl "rightOperand") (by simp [vocabulary]), xsd_integer]
    rfl

theorem permissionQuads_eq (policy : Term) (i fresh : ℕ) (permissions : List PermissionSpec) :
    permissionQuads ox policy i fresh permissions =
      .ok ((permissionNodes i fresh permissions).flatMap (·.quads policy)) := by
  have hv {s : String} (h : s ∈ vocabulary) := namedNode_vocabulary ox h
  induction permissions generalizing i fresh with
  | nil => rfl
  | cons permission rest ih =>
    rw [permissionQuads, ih, constraintQuads_eq, hv (s := odrl "permission") (by simp [vocabulary]),
      hv (s := rdf "type") (by simp [vocabulary]),
      hv (s := odrl "Permission") (by simp [vocabulary]),
      hv (s := ds "order") (by simp [vocabulary]),
      hv (s := odrl "action") (by simp [vocabulary]), xsd_integer]
    rfl

theorem isOk_datasetIri_of_accepts {d : String} (h : accepts d = true) :
    (ox.namedNode (datasetIri d)).isOk = true := by
  simp only [accepts, Bool.and_eq_true] at h
  have hd := isOk_datasetIri ox d ""
  rw [String.append_empty] at hd
  rw [hd]
  exact h.1.1

/-- `seed_offer` gets to its insertions exactly with the dataset ids it accepts. -/
theorem offerQuads_of_accepts (fresh : ℕ) {offer : FileOffer}
    (h : accepts offer.datasetId = true) :
    offerQuads ox fresh offer = .ok (Seeding.mk offer fresh).quads := by
  have hv {s : String} (h : s ∈ vocabulary) := namedNode_vocabulary ox h
  unfold offerQuads
  rw [namedNode_of_isOk ox (isOk_datasetIri_of_accepts ox h),
    namedNode_of_isOk ox (isOk_distributionIri h), namedNode_of_isOk ox (isOk_policyIri h),
    hv (s := rdf "type") (by simp [vocabulary]),
    hv (s := dcat "Dataset") (by simp [vocabulary]),
    hv (s := dcterms "title") (by simp [vocabulary]),
    hv (s := dcat "distribution") (by simp [vocabulary]),
    hv (s := dcat "Distribution") (by simp [vocabulary]),
    hv (s := ds "filePath") (by simp [vocabulary]),
    hv (s := dcat "mediaType") (by simp [vocabulary]),
    hv (s := odrl "Offer") (by simp [vocabulary]),
    hv (s := odrl "target") (by simp [vocabulary]),
    hv (s := odrl "assigner") (by simp [vocabulary]),
    hv (s := xsd "integer") (by simp [vocabulary])]
  exact congrArg (fun r : Except ConfigGraphError (List Quad) => do .ok (offer.quads ++ (← r)))
    (permissionQuads_eq ox (.iri (policyIri offer.datasetId)) 0 fresh offer.permissions)

theorem offerQuads_of_not_accepts {offer : FileOffer} (h : accepts offer.datasetId = false) :
    ∃ e, ∀ fresh, offerQuads ox fresh offer = .error (.iri e) := by
  have hd := isOk_datasetIri ox offer.datasetId ""
  rw [String.append_empty] at hd
  unfold offerQuads
  -- the first of the three IRIs that is none makes the error
  cases hi : isDatasetIri offer.datasetId "" with
  | false =>
    rw [hi] at hd
    obtain ⟨e, he⟩ := namedNode_of_not_isOk ox hd
    exact ⟨e, fun _ => by rw [he]; rfl⟩
  | true =>
    rw [hi] at hd
    rw [namedNode_of_isOk ox hd]
    have hr := isOk_datasetIri ox offer.datasetId "#distribution"
    cases hj : isDatasetIri offer.datasetId "#distribution" with
    | false =>
      rw [hj] at hr
      obtain ⟨e, he⟩ := namedNode_of_not_isOk ox hr
      exact ⟨e, fun _ => by rw [distributionIri, he]; rfl⟩
    | true =>
      rw [hj] at hr
      have hp : isDatasetIri offer.datasetId "#policy" = false := by
        simpa [accepts, hi, hj] using h
      have hk := isOk_datasetIri ox offer.datasetId "#policy"
      rw [hp] at hk
      obtain ⟨e, he⟩ := namedNode_of_not_isOk ox hk
      exact ⟨e, fun _ => by rw [distributionIri, namedNode_of_isOk ox hr, policyIri, he]; rfl⟩

end

/-! ## Places -/

theorem constraintNodes_append (j id : ℕ) (cs ds : List ConstraintSpec) :
    constraintNodes j id (cs ++ ds) =
      constraintNodes j id cs ++ constraintNodes (j + cs.length) (id + cs.length) ds := by
  induction cs generalizing j id with
  | nil => rfl
  | cons c cs ih =>
    rw [List.cons_append, constraintNodes, constraintNodes, ih, List.length_cons,
      Nat.add_right_comm j, Nat.add_right_comm id, Nat.add_assoc j, Nat.add_assoc id]
    rfl

theorem permissionNodes_append (i id : ℕ) (ps qs : List PermissionSpec) :
    permissionNodes i id (ps ++ qs) = permissionNodes i id ps ++
      permissionNodes (i + ps.length) (id + (ps.map PermissionSpec.blanks).sum) qs := by
  induction ps generalizing i id with
  | nil => rfl
  | cons p ps ih =>
    rw [List.cons_append, permissionNodes, permissionNodes, ih, List.length_cons, List.map_cons,
      List.sum_cons, Nat.add_right_comm i, Nat.add_assoc i, Nat.add_assoc id]
    rfl

theorem constraintNodes_order {j id : ℕ} {constraints : List ConstraintSpec} {c : ConstraintNode}
    (h : c ∈ constraintNodes j id constraints) : j ≤ c.order := by
  induction constraints generalizing j id with
  | nil => exact absurd h List.not_mem_nil
  | cons constraint rest ih =>
    rcases List.mem_cons.mp h with rfl | h
    · exact le_refl _
    · exact (Nat.le_succ j).trans (ih h)

theorem constraintNodes_increasing (j id : ℕ) (constraints : List ConstraintSpec) :
    (constraintNodes j id constraints).Pairwise (·.order < ·.order) := by
  induction constraints generalizing j id with
  | nil => exact List.Pairwise.nil
  | cons constraint rest ih =>
    exact List.pairwise_cons.mpr ⟨fun c hc => constraintNodes_order hc, ih _ _⟩

theorem permissionNodes_order {i id : ℕ} {permissions : List PermissionSpec} {n : PermissionNode}
    (h : n ∈ permissionNodes i id permissions) : i ≤ n.order := by
  induction permissions generalizing i id with
  | nil => exact absurd h List.not_mem_nil
  | cons permission rest ih =>
    rcases List.mem_cons.mp h with rfl | h
    · exact le_refl _
    · exact (Nat.le_succ i).trans (ih h)

theorem permissionNodes_increasing (i id : ℕ) (permissions : List PermissionSpec) :
    (permissionNodes i id permissions).Pairwise (·.order < ·.order) := by
  induction permissions generalizing i id with
  | nil => exact List.Pairwise.nil
  | cons permission rest ih =>
    exact List.pairwise_cons.mpr ⟨fun n hn => permissionNodes_order hn, ih _ _⟩

theorem constraints_increasing {i id : ℕ} {permissions : List PermissionSpec} {n : PermissionNode}
    (h : n ∈ permissionNodes i id permissions) : n.constraints.Pairwise (·.order < ·.order) := by
  induction permissions generalizing i id with
  | nil => exact absurd h List.not_mem_nil
  | cons permission rest ih =>
    rcases List.mem_cons.mp h with rfl | h
    · exact constraintNodes_increasing _ _ _
    · exact ih h

def PermissionNode.spec (n : PermissionNode) : PermissionSpec :=
  ⟨n.action, n.constraints.map (·.spec)⟩

theorem constraintNodes_spec (j id : ℕ) (constraints : List ConstraintSpec) :
    (constraintNodes j id constraints).map (·.spec) = constraints := by
  induction constraints generalizing j id with
  | nil => rfl
  | cons constraint rest ih => rw [constraintNodes, List.map_cons, ih]

theorem permissionNodes_spec (i id : ℕ) (permissions : List PermissionSpec) :
    (permissionNodes i id permissions).map (·.spec) = permissions := by
  induction permissions generalizing i id with
  | nil => rfl
  | cons permission rest ih =>
    rw [permissionNodes, List.map_cons, ih, PermissionNode.spec, constraintNodes_spec]

namespace Seeding

theorem increasing (σ : Seeding) : ∀ n ∈ σ.nodes, n.constraints.Pairwise (·.order < ·.order) :=
  fun _ hn => constraints_increasing hn

theorem nodes_spec (σ : Seeding) : σ.nodes.map (·.spec) = σ.offer.permissions :=
  permissionNodes_spec 0 σ.base σ.offer.permissions

end Seeding

/-! ## Predicates -/

/-- As many characters of a name as tell its namespace. -/
def nsPrefix (s : String) : List Char := s.toList.take 22

theorem nsPrefix_append {ns : String} {cs : List Char} (h : ns.toList = cs) (hl : 22 ≤ cs.length)
    (a : String) : nsPrefix (ns ++ a) = cs.take 22 := by
  rw [nsPrefix, String.toList_append, h, List.take_append_of_le_length hl]

theorem nsPrefix_rdf (a : String) : nsPrefix (rdf a) = "http://www.w3.org/1999".toList :=
  nsPrefix_append (toList_literal rfl) (by decide) a

theorem nsPrefix_dcat (a : String) : nsPrefix (dcat a) = "http://www.w3.org/ns/d".toList :=
  nsPrefix_append (toList_literal rfl) (by decide) a

theorem nsPrefix_dcterms (a : String) : nsPrefix (dcterms a) = "http://purl.org/dc/ter".toList :=
  nsPrefix_append (toList_literal rfl) (by decide) a

theorem nsPrefix_odrl (a : String) : nsPrefix (odrl a) = "http://www.w3.org/ns/o".toList :=
  nsPrefix_append (toList_literal rfl) (by decide) a

theorem nsPrefix_ds (a : String) : nsPrefix (ds a) = "https://ds42.org/ontol".toList :=
  nsPrefix_append (toList_literal rfl) (by decide) a

theorem ne_of_nsPrefix {x y : String} {cs es : List Char} (hx : nsPrefix x = cs)
    (hy : nsPrefix y = es) (h : cs ≠ es) : x ≠ y := fun he => h (by rw [← hx, ← hy, he])

@[simp] theorem ds_ne (a b : String) :
    ds a ≠ rdf b ∧ ds a ≠ dcterms b ∧ ds a ≠ dcat b ∧ ds a ≠ odrl b :=
  ⟨ne_of_nsPrefix (nsPrefix_ds a) (nsPrefix_rdf b) (by decide +kernel),
    ne_of_nsPrefix (nsPrefix_ds a) (nsPrefix_dcterms b) (by decide +kernel),
    ne_of_nsPrefix (nsPrefix_ds a) (nsPrefix_dcat b) (by decide +kernel),
    ne_of_nsPrefix (nsPrefix_ds a) (nsPrefix_odrl b) (by decide +kernel)⟩

@[simp] theorem dcat_ne (a b : String) :
    dcat a ≠ rdf b ∧ dcat a ≠ dcterms b ∧ dcat a ≠ ds b ∧ dcat a ≠ odrl b :=
  ⟨ne_of_nsPrefix (nsPrefix_dcat a) (nsPrefix_rdf b) (by decide +kernel),
    ne_of_nsPrefix (nsPrefix_dcat a) (nsPrefix_dcterms b) (by decide +kernel),
    ne_of_nsPrefix (nsPrefix_dcat a) (nsPrefix_ds b) (by decide +kernel),
    ne_of_nsPrefix (nsPrefix_dcat a) (nsPrefix_odrl b) (by decide +kernel)⟩

@[simp] theorem odrl_ne (a b : String) :
    odrl a ≠ rdf b ∧ odrl a ≠ dcterms b ∧ odrl a ≠ dcat b ∧ odrl a ≠ ds b :=
  ⟨ne_of_nsPrefix (nsPrefix_odrl a) (nsPrefix_rdf b) (by decide +kernel),
    ne_of_nsPrefix (nsPrefix_odrl a) (nsPrefix_dcterms b) (by decide +kernel),
    ne_of_nsPrefix (nsPrefix_odrl a) (nsPrefix_dcat b) (by decide +kernel),
    ne_of_nsPrefix (nsPrefix_odrl a) (nsPrefix_ds b) (by decide +kernel)⟩

@[simp] theorem ds_inj (a b : String) : ds a = ds b ↔ a = b := String.append_right_inj _

@[simp] theorem dcat_inj (a b : String) : dcat a = dcat b ↔ a = b := String.append_right_inj _

@[simp] theorem odrl_inj (a b : String) : odrl a = odrl b ↔ a = b := String.append_right_inj _

namespace Seeding
variable {σ : Seeding} {q : Quad} {s o : Term}

theorem mem_quads : q ∈ σ.quads ↔ q ∈ σ.offer.quads ∨ ∃ n ∈ σ.nodes,
    q ∈ n.heads σ.policy ∨ ∃ c ∈ n.constraints, q ∈ c.quads n.term := by
  simp only [quads, PermissionNode.quads, List.mem_append, List.mem_flatMap]

theorem mem_filePath : ⟨s, .iri (ds "filePath"), o⟩ ∈ σ.quads ↔
    s = .iri (distributionIri σ.offer.datasetId) ∧
      o = .simple σ.offer.filePath.toStringLossy := by
  simp [mem_quads, FileOffer.quads, PermissionNode.heads, ConstraintNode.quads]

theorem mem_mediaType : ⟨s, .iri (dcat "mediaType"), o⟩ ∈ σ.quads ↔
    s = .iri (distributionIri σ.offer.datasetId) ∧ o = .simple σ.offer.mediaType := by
  simp [mem_quads, FileOffer.quads, PermissionNode.heads, ConstraintNode.quads]

theorem mem_target : ⟨s, .iri (odrl "target"), o⟩ ∈ σ.quads ↔
    s = .iri (policyIri σ.offer.datasetId) ∧ o = .iri (datasetIri σ.offer.datasetId) := by
  simp [mem_quads, FileOffer.quads, PermissionNode.heads, ConstraintNode.quads]

theorem mem_assigner : ⟨s, .iri (odrl "assigner"), o⟩ ∈ σ.quads ↔
    s = .iri (policyIri σ.offer.datasetId) ∧ o = .simple σ.offer.assigner := by
  simp [mem_quads, FileOffer.quads, PermissionNode.heads, ConstraintNode.quads]

theorem mem_permission : ⟨s, .iri (odrl "permission"), o⟩ ∈ σ.quads ↔
    ∃ n ∈ σ.nodes, s = .iri (policyIri σ.offer.datasetId) ∧ o = n.term := by
  simp [mem_quads, FileOffer.quads, PermissionNode.heads, ConstraintNode.quads, policy]

theorem mem_order : ⟨s, .iri (ds "order"), o⟩ ∈ σ.quads ↔ ∃ n ∈ σ.nodes,
    (s = n.term ∧ o = .integer n.order) ∨
      ∃ c ∈ n.constraints, s = c.term ∧ o = .integer c.order := by
  simp [mem_quads, FileOffer.quads, PermissionNode.heads, ConstraintNode.quads]

theorem mem_action : ⟨s, .iri (odrl "action"), o⟩ ∈ σ.quads ↔
    ∃ n ∈ σ.nodes, s = n.term ∧ o = .simple n.action := by
  simp [mem_quads, FileOffer.quads, PermissionNode.heads, ConstraintNode.quads]

theorem mem_constraint : ⟨s, .iri (odrl "constraint"), o⟩ ∈ σ.quads ↔
    ∃ n ∈ σ.nodes, ∃ c ∈ n.constraints, s = n.term ∧ o = c.term := by
  simp [mem_quads, FileOffer.quads, PermissionNode.heads, ConstraintNode.quads]

theorem mem_leftOperand : ⟨s, .iri (odrl "leftOperand"), o⟩ ∈ σ.quads ↔
    ∃ n ∈ σ.nodes, ∃ c ∈ n.constraints, s = c.term ∧ o = .simple c.spec.leftOperand := by
  simp [mem_quads, FileOffer.quads, PermissionNode.heads, ConstraintNode.quads]

theorem mem_operator : ⟨s, .iri (odrl "operator"), o⟩ ∈ σ.quads ↔
    ∃ n ∈ σ.nodes, ∃ c ∈ n.constraints, s = c.term ∧ o = .simple c.spec.operator := by
  simp [mem_quads, FileOffer.quads, PermissionNode.heads, ConstraintNode.quads]

theorem mem_rightOperand : ⟨s, .iri (odrl "rightOperand"), o⟩ ∈ σ.quads ↔
    ∃ n ∈ σ.nodes, ∃ c ∈ n.constraints, s = c.term ∧ o = .simple c.spec.rightOperand := by
  simp [mem_quads, FileOffer.quads, PermissionNode.heads, ConstraintNode.quads]

end Seeding

/-! ## Blank nodes -/

/-- The blank nodes of a permission: its own and those of its constraints. -/
def PermissionNode.ids (n : PermissionNode) : List ℕ := n.id :: n.constraints.map (·.id)

theorem constraintNodes_ids (j id : ℕ) (constraints : List ConstraintSpec) :
    (constraintNodes j id constraints).map (·.id) = List.range' id constraints.length := by
  induction constraints generalizing j id with
  | nil => rfl
  | cons constraint rest ih =>
    rw [constraintNodes, List.map_cons, ih, List.length_cons, List.range'_succ]

theorem permissionNodes_ids (i id : ℕ) (permissions : List PermissionSpec) :
    (permissionNodes i id permissions).flatMap (·.ids) =
      List.range' id (permissions.map PermissionSpec.blanks).sum := by
  induction permissions generalizing i id with
  | nil => rfl
  | cons permission rest ih =>
    rw [permissionNodes, List.flatMap_cons, ih, PermissionNode.ids, constraintNodes_ids,
      List.map_cons, List.sum_cons, PermissionSpec.blanks, Nat.add_comm 1, ← List.range'_succ,
      List.range'_append_1]

namespace Seeding

def ids (σ : Seeding) : List ℕ := σ.nodes.flatMap (·.ids)

theorem ids_eq (σ : Seeding) : σ.ids = List.range' σ.base σ.offer.blanks :=
  permissionNodes_ids 0 σ.base σ.offer.permissions

end Seeding

/-! ## How many quads an offer has -/

/-- The number of insertions of a seeding. -/
def FileOffer.insertions (offer : FileOffer) : ℕ :=
  9 + (offer.permissions.map fun p => 4 + 5 * p.constraints.length).sum

theorem length_constraintNodes_quads (j id : ℕ) (constraints : List ConstraintSpec) (p : Term) :
    ((constraintNodes j id constraints).flatMap (·.quads p)).length = 5 * constraints.length := by
  induction constraints generalizing j id with
  | nil => rfl
  | cons constraint rest ih =>
    rw [constraintNodes, List.flatMap_cons, List.length_append, ih, List.length_cons]
    simp only [ConstraintNode.quads, List.length_cons, List.length_nil]
    omega

theorem length_permissionNodes_quads (i id : ℕ) (permissions : List PermissionSpec) (p : Term) :
    ((permissionNodes i id permissions).flatMap (·.quads p)).length =
      (permissions.map fun p => 4 + 5 * p.constraints.length).sum := by
  induction permissions generalizing i id with
  | nil => rfl
  | cons permission rest ih =>
    rw [permissionNodes, List.flatMap_cons, List.length_append, ih, List.map_cons, List.sum_cons,
      PermissionNode.quads, List.length_append, length_constraintNodes_quads]
    rfl

theorem Seeding.length_quads (σ : Seeding) : σ.quads.length = σ.offer.insertions := by
  rw [Seeding.quads, List.length_append]
  exact congrArg (σ.offer.quads.length + ·) (length_permissionNodes_quads 0 σ.base _ _)

end DsSqlDps
