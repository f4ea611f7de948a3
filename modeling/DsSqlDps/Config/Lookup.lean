import DsSqlDps.Config.Queries

/-!
# What the reads return

The IRIs that pass the check, the outcome of a query on them, and the three reads that need one
solution only.
-/

namespace DsSqlDps
open Rdf Sparql Vocab

/-! ## IRIs -/

/-- The IRIs that `seed_offer` names besides those of the dataset. -/
def vocabulary : List String :=
  [rdf "type", dcat "Dataset", dcterms "title", dcat "distribution", dcat "Distribution",
    ds "filePath", dcat "mediaType", odrl "Offer", odrl "target", odrl "assigner",
    odrl "permission", odrl "Permission", ds "order", odrl "action", odrl "constraint",
    odrl "leftOperand", odrl "operator", odrl "rightOperand", xsd "integer", ODRL, DS, DCAT]

theorem check_vocabulary : ∀ s ∈ vocabulary, Iri.check s.toList = some true := by
  unfold vocabulary rdf dcat dcterms ds odrl xsd RDF DCAT DCTERMS DS ODRL XSD
  simp only [-String.reduceToList, List.forall_mem_cons, String.toList_append]
  rewrite [toList_literal (s := "http://www.w3.org/1999/02/22-rdf-syntax-ns#") rfl,
    toList_literal (s := "http://www.w3.org/ns/dcat#") rfl,
    toList_literal (s := "http://purl.org/dc/terms/") rfl,
    toList_literal (s := "https://ds42.org/ontologies/ds-sql-dps-rs#") rfl,
    toList_literal (s := "http://www.w3.org/ns/odrl/2/") rfl,
    toList_literal (s := "http://www.w3.org/2001/XMLSchema#") rfl]
  refine ⟨?_, ?_, ?_, ?_, ?_, ?_, ?_, ?_, ?_, ?_, ?_, ?_, ?_, ?_, ?_, ?_, ?_, ?_, ?_, ?_, ?_, ?_,
    fun s hs => absurd hs List.not_mem_nil⟩ <;> decide +kernel

theorem check_urn (cs : List Char) (h : cs.head? ≠ some '/') :
    Iri.check ('u' :: 'r' :: 'n' :: ':' :: cs) = some (Iri.scan .path 0 cs) := by
  have ha : Iri.afterScheme ('u' :: 'r' :: 'n' :: ':' :: cs) = some cs := rfl
  unfold Iri.check
  rw [ha]
  match cs, h with
  | [], _ => rfl
  | c :: cs, h =>
    have hc : c ≠ '/' := fun he => h (congrArg some he)
    simp [hc]

/-- The characters of every dataset IRI after `urn:`. -/
def namespaceChars : List Char := "ds-sql-dps-rs:dataset:".toList

/-- Whether the IRI of a dataset, continued by the suffix, is one. -/
def isDatasetIri (d suffix : String) : Bool :=
  Iri.scan .path 0 (namespaceChars ++ d.toList ++ suffix.toList)

/-- Whether `seed_offer` accepts a dataset id: its three IRIs are IRIs. -/
def accepts (d : String) : Bool :=
  isDatasetIri d "" && isDatasetIri d "#distribution" && isDatasetIri d "#policy"

theorem toList_datasetIri (d suffix : String) :
    (datasetIri d ++ suffix).toList =
      'u' :: 'r' :: 'n' :: ':' :: (namespaceChars ++ d.toList ++ suffix.toList) := by
  unfold datasetIri namespaceChars
  rewrite [String.toList_append, String.toList_append,
    toList_literal (s := "urn:ds-sql-dps-rs:dataset:") rfl,
    toList_literal (s := "ds-sql-dps-rs:dataset:") rfl]
  rfl

theorem check_datasetIri (d suffix : String) :
    Iri.check (datasetIri d ++ suffix).toList = some (isDatasetIri d suffix) := by
  rw [toList_datasetIri]
  refine check_urn _ ?_
  unfold namespaceChars
  rewrite [toList_literal (s := "ds-sql-dps-rs:dataset:") rfl]
  simp

/-- What the check of the three IRIs says of the characters of a dataset id. -/
theorem legal_of_accepts {d : String} (h : accepts d = true) :
    d.toList.all isIriChar = true := by
  simp only [accepts, isDatasetIri, Bool.and_eq_true] at h
  have hl := Iri.scan_legal h.1.1
  simp only [List.all_append, Bool.and_eq_true] at hl
  exact hl.1.2

theorem hash_not_mem_of_accepts {d : String} (h : accepts d = true) : '#' ∉ d.toList := by
  simp only [accepts, isDatasetIri, Bool.and_eq_true] at h
  have hd := h.1.2
  rw [toList_literal (s := "#distribution") rfl] at hd
  have hm := Iri.not_mem_hash_of_scan hd
  exact fun hc => hm (List.mem_append_right _ hc)

theorem gt_not_mem_of_accepts {d : String} (h : accepts d = true) : '>' ∉ d.toList := fun hm =>
  absurd (List.all_eq_true.mp (legal_of_accepts h) _ hm) (by decide)

/-- The dataset id that the text pasted into a query spells. -/
def spelled (d : String) : Option String := (readIri d.toList).map String.ofList

theorem spelled_of_accepts {d : String} (h : accepts d = true) : spelled d = some d := by
  rw [spelled, readIri_of_legal (legal_of_accepts h), Option.map_some, String.ofList_toList]

theorem legal_namespace : ('u' :: 'r' :: 'n' :: ':' :: namespaceChars).all isIriChar = true := by
  unfold namespaceChars
  rewrite [toList_literal (s := "ds-sql-dps-rs:dataset:") rfl]
  decide

theorem readIri_datasetIri (d : String) {suffix : String} {cs : List Char}
    (hs : suffix.toList = '#' :: cs) (hc : cs.all isIriChar = true) :
    readIri (datasetIri d ++ suffix).toList =
      (spelled d).map fun e => (datasetIri e ++ suffix).toList := by
  have hp := readIri_pasted d.toList legal_namespace hc
  simp only [List.cons_append] at hp
  rw [toList_datasetIri, hs, hp, spelled, Option.map_map]
  simp only [Function.comp_def, toList_datasetIri, String.toList_ofList, hs]

theorem readIri_distributionIri (d : String) :
    readIri (distributionIri d).toList =
      (spelled d).map fun e => (distributionIri e).toList :=
  readIri_datasetIri d (toList_literal rfl) (by decide)

theorem readIri_policyIri (d : String) :
    readIri (policyIri d).toList = (spelled d).map fun e => (policyIri e).toList :=
  readIri_datasetIri d (toList_literal rfl) (by decide)

section
variable (ox : Engine)

theorem isOk_vocabulary {s : String} (h : s ∈ vocabulary) : (ox.namedNode s).isOk = true :=
  ox.namedNode_check s true (check_vocabulary s h)

theorem isOk_datasetIri (d suffix : String) :
    (ox.namedNode (datasetIri d ++ suffix)).isOk = isDatasetIri d suffix :=
  ox.namedNode_check _ _ (check_datasetIri d suffix)

theorem namedNode_of_isOk {s : String} (h : (ox.namedNode s).isOk = true) :
    namedNode ox s = .ok (.iri s) := by
  unfold namedNode
  cases hn : ox.namedNode s with
  | ok u => rfl
  | error e =>
    rw [hn] at h
    cases h

theorem namedNode_of_not_isOk {s : String} (h : (ox.namedNode s).isOk = false) :
    ∃ e, namedNode ox s = .error (.iri e) := by
  unfold namedNode
  cases hn : ox.namedNode s with
  | ok u =>
    rw [hn] at h
    cases h
  | error e => exact ⟨e, rfl⟩

end

/-! ## The outcome of a query -/

section
variable {ox : Engine} {s : Store} {text : String}

theorem select_rows {rows : List Solution}
    (h : ox.execute s text = .ok (.solutions (rows.map .ok))) : select ox s text = .ok rows := by
  simp only [select, h]
  clear h
  induction rows with
  | nil => rfl
  | cons row rows ih =>
    rw [List.map_cons, List.mapM_cons, ih]
    rfl

theorem select_error {e : QueryError} (h : ox.execute s text = .error e) :
    ∃ e, select ox s text = .error e := by
  cases e with
  | syntaxError e => exact ⟨.syntaxError e, by simp only [select, h]⟩
  | evaluation e => exact ⟨.query e, by simp only [select, h]⟩

variable (ox s) in
/-- A query with an open IRI: an answer to what the IRI spells, or an error. -/
theorem select_cases {query : String → Query} {iris : List String} {body : List Char}
    (h : readQuery text = openVerdict query iris body) :
    (∃ i rows, readIri body = some i ∧ select ox s text = .ok rows ∧
      (query (String.ofList i)).Answers s rows) ∨ ∃ e, select ox s text = .error e := by
  unfold openVerdict at h
  cases hi : readIri body with
  | none =>
    rw [hi] at h
    obtain ⟨e, he⟩ := ox.execute_syntaxError s text h
    exact Or.inr (select_error he)
  | some i =>
    rw [hi] at h
    rcases ox.execute_query s text _ _ h with ⟨rows, hr, ha⟩ | ⟨-, e, he⟩
    · exact Or.inl ⟨i, rows, rfl, select_rows hr, ha⟩
    · exact Or.inr (select_error he)

variable (ox s) in
theorem select_answers {query : String → Query} {iris : List String} {body i : List Char}
    (h : readQuery text = openVerdict query iris body) (hi : readIri body = some i)
    (hv : ∀ j ∈ iris ++ [String.ofList i] ++ (query (String.ofList i)).iris,
      (ox.namedNode j).isOk = true) :
    ∃ rows, select ox s text = .ok rows ∧ (query (String.ofList i)).Answers s rows := by
  unfold openVerdict at h
  rw [hi] at h
  obtain ⟨rows, hr, ha⟩ := ox.execute_of_valid (g := s) h hv
  exact ⟨rows, select_rows hr, ha⟩

end

/-! ## One value -/

section
variable {ox : Engine} {s : Store} {d e : String}

theorem mem_valuePattern {p v i : String} {μ : Solution} :
    μ ∈ (valuePattern p v i).solutions s ↔ ∃ o, ⟨.iri i, .iri p, o⟩ ∈ s ∧ μ = [(v, o)] := by
  unfold valuePattern Query.solutions outTriple
  rw [mem_bgpFrom_object (t := .iri i) rfl rfl]
  simp

/-- The first row of an answer binds one of the values, if there is any. -/
theorem head_value {p v i : String} {rows : List Solution}
    (h : (valuePattern p v i).Answers s rows) :
    (rows.head?.bind (·.get v) = none ∧ ∀ o, ⟨.iri i, .iri p, o⟩ ∉ s) ∨
      ∃ o, ⟨.iri i, .iri p, o⟩ ∈ s ∧ rows.head?.bind (·.get v) = some o := by
  obtain ⟨l, hl, -, rfl⟩ := h
  cases l with
  | nil =>
    refine Or.inl ⟨rfl, fun o ho => ?_⟩
    exact absurd (hl.mem_iff.mpr (mem_valuePattern.mpr ⟨o, ho, rfl⟩)) List.not_mem_nil
  | cons μ l =>
    obtain ⟨o, ho, rfl⟩ := mem_valuePattern.mp (hl.mem_iff.mp List.mem_cons_self)
    refine Or.inr ⟨o, ho, ?_⟩
    simp only [List.map_cons, List.head?_cons, Option.bind_some]
    exact (Solution.get_project [v] _ v List.mem_cons_self).trans (by simp)

theorem isOk_valuePattern {p v i : String} {iris : List String}
    (hi : (ox.namedNode i).isOk = true) (hp : (ox.namedNode p).isOk = true)
    (h : ∀ j ∈ iris, (ox.namedNode j).isOk = true) :
    ∀ j ∈ iris ++ [i] ++ (valuePattern p v i).iris, (ox.namedNode j).isOk = true := by
  simp only [valuePattern, outTriple, Query.iris, TriplePattern.iris, TermPattern.iri?,
    List.mem_append, Option.getD_none, List.append_nil, List.flatMap_cons,
    List.flatMap_nil, List.filterMap_cons, List.filterMap_nil, List.mem_cons, List.not_mem_nil,
    or_false]
  rintro j ((hj | rfl) | rfl | rfl)
  · exact h j hj
  · exact hi
  · exact hi
  · exact hp

theorem isOk_distributionIri (h : accepts d = true) :
    (ox.namedNode (distributionIri d)).isOk = true := by
  simp only [accepts, Bool.and_eq_true] at h
  rw [distributionIri, isOk_datasetIri]
  exact h.1.2

theorem isOk_policyIri (h : accepts d = true) : (ox.namedNode (policyIri d)).isOk = true := by
  simp only [accepts, Bool.and_eq_true] at h
  rw [policyIri, isOk_datasetIri]
  exact h.2

/-- The quad that a distribution's property is. -/
def distributionQuad (d p : String) (o : Term) : Quad := ⟨.iri (distributionIri d), .iri p, o⟩

variable (ox s) in
/-- A read of a text that names the distribution of an accepted dataset id. -/
theorem select_distribution {p v text : String} {iris : List String}
    (h : readQuery text = openVerdict (valuePattern p v) iris (distributionIri d).toList)
    (hs : spelled d = some e) (ha : accepts e = true) (hp : (ox.namedNode p).isOk = true)
    (hiris : ∀ j ∈ iris, (ox.namedNode j).isOk = true) :
    ∃ rows, select ox s text = .ok rows ∧
      ((rows.head?.bind (·.get v) = none ∧ ∀ o, distributionQuad e p o ∉ s) ∨
        ∃ o, distributionQuad e p o ∈ s ∧ rows.head?.bind (·.get v) = some o) := by
  have hi : readIri (distributionIri d).toList = some (distributionIri e).toList := by
    rw [readIri_distributionIri, hs, Option.map_some]
  obtain ⟨rows, hr, hans⟩ := select_answers ox s h hi (by
    rw [String.ofList_toList]
    exact isOk_valuePattern (isOk_distributionIri ha) hp hiris)
  rw [String.ofList_toList] at hans
  exact ⟨rows, hr, head_value hans⟩

/-- A read that succeeds, of whatever text without `>`. -/
theorem select_distribution_ok {p v text : String} {iris : List String} {rows : List Solution}
    (h : readQuery text = openVerdict (valuePattern p v) iris (distributionIri d).toList)
    (hr : select ox s text = .ok rows) :
    ∃ e, spelled d = some e ∧
      ((rows.head?.bind (·.get v) = none ∧ ∀ o, distributionQuad e p o ∉ s) ∨
        ∃ o, distributionQuad e p o ∈ s ∧ rows.head?.bind (·.get v) = some o) := by
  rcases select_cases ox s h with ⟨i, rows', hi, hr', hans⟩ | ⟨e, he⟩
  · rw [hr, Except.ok.injEq] at hr'
    subst hr'
    rw [readIri_distributionIri, Option.map_eq_some_iff] at hi
    obtain ⟨e, he, rfl⟩ := hi
    rw [String.ofList_toList] at hans
    exact ⟨e, he, head_value hans⟩
  · rw [hr] at he
    cases he

/-- What a read of a file path makes of the first value. -/
def pathOf (d : String) (o : Term) : Except ConfigGraphError PathBuf :=
  match literalValue o with
  | some path => .ok (.ofString path)
  | none => .error (.notFound d)

theorem filePath_of_rows {rows : List Solution} {first : Option Term}
    (hr : select ox s (filePathQuery d) = .ok rows)
    (hv : rows.head?.bind (·.get "path") = first) :
    filePath ox s d = first.elim (.error (.notFound d)) (pathOf d) := by
  unfold filePath
  rw [hr]
  simp only [bind, Except.bind]
  change (match (rows.head?.bind (·.get "path")).bind literalValue with
    | some path => Except.ok (PathBuf.ofString path)
    | none => .error (ConfigGraphError.notFound d)) = _
  rw [hv]
  cases first with
  | none => rfl
  | some o =>
    rw [Option.bind_some, Option.elim_some, pathOf]

variable (ox s) in
theorem filePath_cases (hd : '>' ∉ d.toList) (hs : spelled d = some e) (ha : accepts e = true) :
    (filePath ox s d = .error (.notFound d) ∧ ∀ o, distributionQuad e (ds "filePath") o ∉ s) ∨
      ∃ o, distributionQuad e (ds "filePath") o ∈ s ∧ filePath ox s d = pathOf d o := by
  obtain ⟨rows, hr, hv⟩ := select_distribution ox s (readQuery_filePathQuery hd) hs
    ha (isOk_vocabulary ox (by simp [vocabulary]))
    (by simpa using isOk_vocabulary ox (by simp [vocabulary]))
  rcases hv with ⟨hn, ho⟩ | ⟨o, ho, hv⟩
  · exact Or.inl ⟨filePath_of_rows hr hn, ho⟩
  · exact Or.inr ⟨o, ho, filePath_of_rows hr hv⟩

theorem exists_of_filePath {path : PathBuf} (hd : '>' ∉ d.toList)
    (h : filePath ox s d = .ok path) :
    ∃ e o, spelled d = some e ∧ distributionQuad e (ds "filePath") o ∈ s ∧
      pathOf d o = .ok path := by
  cases hr : select ox s (filePathQuery d) with
  | error e =>
    unfold filePath at h
    rw [hr] at h
    cases h
  | ok rows =>
    obtain ⟨e, he, ⟨hn, -⟩ | ⟨o, ho, hv⟩⟩ := select_distribution_ok (readQuery_filePathQuery hd) hr
    · rw [filePath_of_rows hr hn] at h
      cases h
    · rw [filePath_of_rows hr hv] at h
      exact ⟨e, o, he, ho, h⟩

def mediaOf (d : String) (o : Term) : Except ConfigGraphError String :=
  match literalValue o with
  | some media => .ok media
  | none => .error (.notFound d)

theorem mediaType_of_rows {rows : List Solution} {first : Option Term}
    (hr : select ox s (mediaTypeQuery d) = .ok rows)
    (hv : rows.head?.bind (·.get "media") = first) :
    mediaType ox s d = first.elim (.error (.notFound d)) (mediaOf d) := by
  unfold mediaType
  rw [hr]
  simp only [bind, Except.bind]
  change (match (rows.head?.bind (·.get "media")).bind literalValue with
    | some media => Except.ok media
    | none => .error (ConfigGraphError.notFound d)) = _
  rw [hv]
  cases first with
  | none => rfl
  | some o =>
    rw [Option.bind_some, Option.elim_some, mediaOf]

variable (ox s) in
theorem mediaType_cases (hd : '>' ∉ d.toList) (hs : spelled d = some e) (ha : accepts e = true) :
    (mediaType ox s d = .error (.notFound d) ∧ ∀ o, distributionQuad e (dcat "mediaType") o ∉ s) ∨
      ∃ o, distributionQuad e (dcat "mediaType") o ∈ s ∧ mediaType ox s d = mediaOf d o := by
  obtain ⟨rows, hr, hv⟩ := select_distribution ox s (readQuery_mediaTypeQuery hd) hs
    ha (isOk_vocabulary ox (by simp [vocabulary]))
    (by simpa using isOk_vocabulary ox (by simp [vocabulary]))
  rcases hv with ⟨hn, ho⟩ | ⟨o, ho, hv⟩
  · exact Or.inl ⟨mediaType_of_rows hr hn, ho⟩
  · exact Or.inr ⟨o, ho, mediaType_of_rows hr hv⟩

theorem exists_of_mediaType {media : String} (hd : '>' ∉ d.toList)
    (h : mediaType ox s d = .ok media) :
    ∃ e o, spelled d = some e ∧ distributionQuad e (dcat "mediaType") o ∈ s ∧
      mediaOf d o = .ok media := by
  cases hr : select ox s (mediaTypeQuery d) with
  | error e =>
    unfold mediaType at h
    rw [hr] at h
    cases h
  | ok rows =>
    obtain ⟨e, he, ⟨hn, -⟩ | ⟨o, ho, hv⟩⟩ := select_distribution_ok (readQuery_mediaTypeQuery hd) hr
    · rw [mediaType_of_rows hr hn] at h
      cases h
    · rw [mediaType_of_rows hr hv] at h
      exact ⟨e, o, he, ho, h⟩

/-! ## The policy header -/

def policyQuad (d p : String) (o : Term) : Quad := ⟨.iri (policyIri d), .iri p, o⟩

theorem mem_headerPattern {μ : Solution} :
    μ ∈ (headerPattern (policyIri e)).solutions s ↔
      ∃ t a, policyQuad e (odrl "target") t ∈ s ∧ policyQuad e (odrl "assigner") a ∈ s ∧
        μ = [("assigner", a), ("target", t)] := by
  unfold headerPattern Query.solutions outTriple policyQuad
  simp only
  rw [mem_bgpFrom_object (t := .iri (policyIri e)) rfl rfl]
  refine exists_congr fun t => ?_
  rw [mem_bgpFrom_object (t := .iri (policyIri e)) rfl (by simp)]
  simp

/-- The first row of the header, as target and assigner. -/
def headerOf (t a : Term) : String × String :=
  ((literalValue t).getD "", (literalValue a).getD "")

theorem policyHeader_of_rows {rows : List Solution} (hr : select ox s (headerQuery d) = .ok rows)
    (hans : (headerPattern (policyIri e)).Answers s rows) :
    (policyHeader ox s d = .error (.notFound d) ∧
      ∀ t a, policyQuad e (odrl "target") t ∈ s → policyQuad e (odrl "assigner") a ∉ s) ∨
    ∃ t a, policyQuad e (odrl "target") t ∈ s ∧ policyQuad e (odrl "assigner") a ∈ s ∧
      policyHeader ox s d = .ok (headerOf t a) := by
  obtain ⟨l, hl, -, rfl⟩ := hans
  unfold policyHeader
  rw [hr]
  cases l with
  | nil =>
    refine Or.inl ⟨rfl, fun t a ht ha => ?_⟩
    exact absurd (hl.mem_iff.mpr (mem_headerPattern.mpr ⟨t, a, ht, ha, rfl⟩)) List.not_mem_nil
  | cons μ l =>
    obtain ⟨t, a, ht, ha, rfl⟩ := mem_headerPattern.mp (hl.mem_iff.mp List.mem_cons_self)
    refine Or.inr ⟨t, a, ht, ha, ?_⟩
    have hget (v : String) (hv : v ∈ ["target", "assigner"]) :
        Solution.get (Solution.project (headerPattern (policyIri e)).select
          [("assigner", a), ("target", t)]) v = Solution.get [("assigner", a), ("target", t)] v :=
      Solution.get_project ["target", "assigner"] _ v hv
    simp only [bind, Except.bind, List.map_cons, List.head?_cons]
    rw [hget "target" (by simp), hget "assigner" (by simp)]
    simp [headerOf]

theorem isOk_headerPattern (ha : accepts e = true) :
    ∀ j ∈ [ODRL] ++ [policyIri e] ++ (headerPattern (policyIri e)).iris,
      (ox.namedNode j).isOk = true := by
  have hv {j : String} (h : j ∈ [ODRL, odrl "target", odrl "assigner"]) :
      (ox.namedNode j).isOk = true := isOk_vocabulary ox (by
    simp only [List.mem_cons, List.not_mem_nil, or_false] at h
    rcases h with rfl | rfl | rfl <;> simp [vocabulary])
  intro j hj
  have hj : j = policyIri e ∨ j ∈ [ODRL, odrl "target", odrl "assigner"] := by
    simp only [headerPattern, outTriple, Query.iris, TriplePattern.iris, TermPattern.iri?,
      List.mem_append, Option.getD_none, List.append_nil, List.flatMap_cons, List.flatMap_nil,
      List.filterMap_cons, List.filterMap_nil, List.mem_cons, List.not_mem_nil, or_false] at hj
    simp only [List.mem_cons, List.not_mem_nil, or_false]
    tauto
  rcases hj with rfl | hj
  · exact isOk_policyIri ha
  · exact hv hj

variable (ox s) in
theorem policyHeader_cases (hd : '>' ∉ d.toList) (hs : spelled d = some e)
    (ha : accepts e = true) :
    (policyHeader ox s d = .error (.notFound d) ∧
      ∀ t a, policyQuad e (odrl "target") t ∈ s → policyQuad e (odrl "assigner") a ∉ s) ∨
    ∃ t a, policyQuad e (odrl "target") t ∈ s ∧ policyQuad e (odrl "assigner") a ∈ s ∧
      policyHeader ox s d = .ok (headerOf t a) := by
  have hi : readIri (policyIri d).toList = some (policyIri e).toList := by
    rw [readIri_policyIri, hs, Option.map_some]
  obtain ⟨rows, hr, hans⟩ := select_answers ox s (readQuery_headerQuery hd) hi (by
    rw [String.ofList_toList]
    exact isOk_headerPattern ha)
  rw [String.ofList_toList] at hans
  exact policyHeader_of_rows hr hans

theorem exists_of_policyHeader {header : String × String} (hd : '>' ∉ d.toList)
    (h : policyHeader ox s d = .ok header) :
    ∃ e t a, spelled d = some e ∧ policyQuad e (odrl "target") t ∈ s ∧
      policyQuad e (odrl "assigner") a ∈ s ∧ header = headerOf t a := by
  rcases select_cases ox s (readQuery_headerQuery hd) with
    ⟨i, rows, hi, hr, hans⟩ | ⟨err, hr⟩
  · rw [readIri_policyIri, Option.map_eq_some_iff] at hi
    obtain ⟨e, he, rfl⟩ := hi
    rw [String.ofList_toList] at hans
    rcases policyHeader_of_rows hr hans with ⟨hn, -⟩ | ⟨t, a, ht, ha, hok⟩
    · rw [hn] at h
      cases h
    · rw [hok, Except.ok.injEq] at h
      exact ⟨e, t, a, he, ht, ha, h.symm⟩
  · unfold policyHeader at h
    rw [hr] at h
    cases h

/-! ## The policy rows -/

theorem isOk_rowsPattern (ha : accepts e = true) :
    ∀ j ∈ [ODRL, DS] ++ [policyIri e] ++ (rowsPattern (policyIri e)).iris,
      (ox.namedNode j).isOk = true := by
  have hv {j : String} (h : j ∈ [ODRL, DS, odrl "permission", ds "order", odrl "action",
      odrl "constraint", odrl "leftOperand", odrl "operator", odrl "rightOperand"]) :
      (ox.namedNode j).isOk = true := isOk_vocabulary ox (by
    simp only [List.mem_cons, List.not_mem_nil, or_false] at h
    rcases h with rfl | rfl | rfl | rfl | rfl | rfl | rfl | rfl | rfl <;> simp [vocabulary])
  intro j hj
  have hj : j = policyIri e ∨ j ∈ [ODRL, DS, odrl "permission", ds "order", odrl "action",
      odrl "constraint", odrl "leftOperand", odrl "operator", odrl "rightOperand"] := by
    simp only [rowsPattern, outTriple, Query.iris, TriplePattern.iris, TermPattern.iri?,
      Option.getD_some, List.cons_append, List.nil_append, List.flatMap_cons,
      List.flatMap_nil, List.filterMap_cons, List.filterMap_nil, List.mem_cons, List.not_mem_nil,
      or_false] at hj
    simp only [List.mem_cons, List.not_mem_nil, or_false]
    tauto
  rcases hj with rfl | hj
  · exact isOk_policyIri ha
  · exact hv hj

variable (ox s) in
theorem policyRows_answers (hd : '>' ∉ d.toList) (hs : spelled d = some e)
    (ha : accepts e = true) :
    ∃ rows, policyRows ox s d = .ok rows ∧ (rowsPattern (policyIri e)).Answers s rows := by
  have hi : readIri (policyIri d).toList = some (policyIri e).toList := by
    rw [readIri_policyIri, hs, Option.map_some]
  obtain ⟨rows, hr, hans⟩ := select_answers ox s (readQuery_rowsQuery hd) hi (by
    rw [String.ofList_toList]
    exact isOk_rowsPattern ha)
  rw [String.ofList_toList] at hans
  exact ⟨rows, hr, hans⟩

end

/-! ## Texts that leave their brackets -/

/-- The text has a `>`, and what stands before the first one can end an IRI: the query goes on
with what follows it. -/
def ClosesIri (d : String) : Prop :=
  '>' ∈ d.toList ∧ (readIri (d.toList.takeWhile (· ≠ '>'))).isSome = true

instance (d : String) : Decidable (ClosesIri d) := inferInstanceAs (Decidable (_ ∧ _))

theorem readIri_of_not_closesIri {d : String} (hd : '>' ∈ d.toList) (h : ¬ ClosesIri d) :
    readIri (d.toList.takeWhile (· ≠ '>')) = none := by
  by_contra hn
  exact h ⟨hd, Option.isSome_iff_ne_none.mpr hn⟩

section
variable {ox : Engine} {s : Store} {d : String}

theorem spelled_of_mem_gt (h : '>' ∈ d.toList) : spelled d = none := by
  rw [spelled, readIri_of_mem_gt h, Option.map_none]

theorem readQuery_unreadable (t : OpenText) {text suffix : String} {post : List Char}
    (htext : text.toList = t.pre ++ (datasetIri d ++ suffix).toList ++ '>' :: post)
    (hd : '>' ∈ d.toList) (hn : readIri (d.toList.takeWhile (· ≠ '>')) = none) :
    readQuery text = .syntaxError := by
  have hgt : '>' ∉ 'u' :: 'r' :: 'n' :: ':' :: namespaceChars :=
    fun hm => absurd (List.all_eq_true.mp legal_namespace _ hm) (by decide)
  obtain ⟨bs, cs, hbc, hb⟩ := List.eq_append_cons_of_mem hd
  have htake : d.toList.takeWhile (· ≠ '>') = bs := by
    have hall : ∀ c ∈ bs, decide (c ≠ '>') = true := fun c hc =>
      decide_eq_true fun he : c = '>' => hb (he ▸ hc)
    rw [hbc, List.takeWhile_append_of_pos hall]
    simp
  have hbody : readIri ('u' :: 'r' :: 'n' :: ':' :: namespaceChars ++ bs) = none := by
    rw [readIri_append_left legal_namespace, ← htake, hn, Option.map_none]
  have hbgt : '>' ∉ 'u' :: 'r' :: 'n' :: ':' :: namespaceChars ++ bs := fun hm =>
    (List.mem_append.mp hm).elim hgt hb
  have htext' : text.toList = t.pre ++ ('u' :: 'r' :: 'n' :: ':' :: namespaceChars ++ bs) ++
      '>' :: (cs ++ suffix.toList ++ '>' :: post) := by
    rw [htext, toList_datasetIri, hbc]
    simp
  exact t.readQuery_syntaxError htext' hbgt hbody

variable (ox s) in
theorem select_unreadable (t : OpenText) {text suffix : String} {post : List Char}
    (htext : text.toList = t.pre ++ (datasetIri d ++ suffix).toList ++ '>' :: post)
    (hd : '>' ∈ d.toList) (hn : readIri (d.toList.takeWhile (· ≠ '>')) = none) :
    ∃ e, select ox s text = .error e := by
  obtain ⟨e, he⟩ := ox.execute_syntaxError s text (readQuery_unreadable t htext hd hn)
  exact select_error he

variable (ox s) in
/-- If what stands before the first `>` is no IRI, every lookup is an error. -/
theorem lookups_unreadable (hd : '>' ∈ d.toList) (h : ¬ ClosesIri d) :
    (∃ e, filePath ox s d = .error e) ∧ (∃ e, mediaType ox s d = .error e) ∧
      ∃ e, policyJsonld ox s d = .error e := by
  have hn := readIri_of_not_closesIri hd h
  obtain ⟨e, hf⟩ := select_unreadable ox s filePathText (toList_filePathQuery d) hd hn
  obtain ⟨e', hm⟩ := select_unreadable ox s mediaTypeText (toList_mediaTypeQuery d) hd hn
  obtain ⟨e'', hh⟩ := select_unreadable ox s headerText (toList_headerQuery d) hd hn
  refine ⟨⟨e, ?_⟩, ⟨e', ?_⟩, ⟨e'', ?_⟩⟩
  · unfold filePath
    rw [hf]
    rfl
  · unfold mediaType
    rw [hm]
    rfl
  · unfold policyJsonld policyHeader
    rw [hh]
    rfl

/-! ## Texts that name no dataset -/

/-- The text spells a dataset id that `seed_offer` accepts. -/
def names (d : String) : Bool := (spelled d).any accepts

/-- Either IRI with a fragment tells whether `seed_offer` accepts the dataset id. -/
theorem accepts_of_isDatasetIri {suffix : String} {cs : List Char}
    (hs : suffix.toList = '#' :: cs) (h : isDatasetIri d suffix = true) : accepts d = true := by
  rw [isDatasetIri, hs] at h
  obtain ⟨hd, hf⟩ := Iri.scan_append_hash h
  simp only [accepts, isDatasetIri, Bool.and_eq_true]
  refine ⟨⟨?_, ?_⟩, ?_⟩
  · rw [toList_literal (s := "") rfl, List.append_nil]
    exact hd
  · rw [toList_literal (s := "#distribution") rfl]
    exact hf _ (by decide +kernel)
  · rw [toList_literal (s := "#policy") rfl]
    exact hf _ (by decide +kernel)

variable (s) in
/-- A read of a text that names no dataset is a syntax error. -/
theorem select_syntaxError (hox : ox.ParsesFirst) (t : OpenText) {text suffix : String}
    {cs : List Char}
    (htext : text.toList = t.pre ++ (datasetIri d ++ suffix).toList ++ '>' :: t.post)
    (hs : suffix.toList = '#' :: cs) (hc : cs.all isIriChar = true) (hd : ¬ ClosesIri d)
    (hn : names d = false) : ∃ m, select ox s text = .error (.syntaxError m) := by
  have hselect {m : String} (h : ox.execute s text = .error (.syntaxError m)) :
      ∃ m, select ox s text = .error (.syntaxError m) := ⟨m, by simp only [select, h]⟩
  by_cases hgt : '>' ∈ d.toList
  · obtain ⟨m, hm⟩ := hox.text s text
      (readQuery_unreadable t htext hgt (readIri_of_not_closesIri hgt hd))
    exact hselect hm
  have hr : readQuery text = openVerdict t.query t.iris (datasetIri d ++ suffix).toList := by
    refine t.readQuery htext (gt_not_mem_iri hgt fun hm => ?_)
    rw [hs] at hm
    rcases List.mem_cons.mp hm with hm | hm
    · exact absurd hm (by decide)
    · exact absurd (List.all_eq_true.mp hc _ hm) (by decide)
  unfold openVerdict at hr
  rw [readIri_datasetIri d hs hc] at hr
  cases he : spelled d with
  | none =>
    rw [he] at hr
    obtain ⟨m, hm⟩ := hox.text s text hr
    exact hselect hm
  | some e =>
    -- what the text spells is no dataset id, so what the query names is no IRI
    rw [names, he, Option.any_some] at hn
    rw [he] at hr
    simp only [Option.map_some, String.ofList_toList] at hr
    obtain ⟨m, hm⟩ := hox.iri s text _ _ hr (datasetIri e ++ suffix) (by simp) (by
      rw [isOk_datasetIri]
      exact Bool.eq_false_iff.mpr fun hi => by rw [accepts_of_isDatasetIri hs hi] at hn; cases hn)
    exact hselect hm

variable (s) in
theorem lookups_syntaxError (hox : ox.ParsesFirst) (hd : ¬ ClosesIri d) (hn : names d = false) :
    (∃ m, filePath ox s d = .error (.syntaxError m)) ∧
    (∃ m, mediaType ox s d = .error (.syntaxError m)) ∧
      ∃ m, policyJsonld ox s d = .error (.syntaxError m) := by
  have hdist : "#distribution".toList = '#' :: "distribution".toList := toList_literal rfl
  obtain ⟨m, hf⟩ := select_syntaxError s hox filePathText (toList_filePathQuery d) hdist
    (by decide) hd hn
  obtain ⟨m', hm⟩ := select_syntaxError s hox mediaTypeText (toList_mediaTypeQuery d) hdist
    (by decide) hd hn
  have hpolicy : "#policy".toList = '#' :: "policy".toList := toList_literal rfl
  obtain ⟨m'', hh⟩ := select_syntaxError s hox headerText (toList_headerQuery d) hpolicy
    (by decide) hd hn
  refine ⟨⟨m, ?_⟩, ⟨m', ?_⟩, ⟨m'', ?_⟩⟩
  · unfold filePath
    rw [hf]
    rfl
  · unfold mediaType
    rw [hm]
    rfl
  · unfold policyJsonld policyHeader
    rw [hh]
    rfl

end

end DsSqlDps
