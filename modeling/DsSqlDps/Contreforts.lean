import DsSqlDps.Dataplane.Config

/-!
# The Contreforts connector

The configuration graph as Contreforts' connector interface shows it. `get` is told which offer
to show, `pull` always shows the one of the dataset id `primary`.
-/

namespace DsSqlDps

structure EntityKind where
  asStr : String
deriving DecidableEq, Repr

inductive ConnectorError
  | unsupportedKind (connector kind : String)
  | unsupported (connector operation : String)
  | api (message : String)
deriving DecidableEq, Repr

/-- Contreforts' document, over its type `T` of times. -/
structure Document (T : Type) where
  name : String
  remoteId : String
  kind : EntityKind
  source : String
  modified : Option T
  fields : Json.Value

def dataOfferKind : EntityKind := ⟨"ds-sql-dps-rs:data-offer"⟩

def primaryOfferId : String := "primary"

structure FileOfferConnector where
  graph : ConfigGraph

namespace FileOfferConnector
variable {T : Type} (ox : Sparql.Engine)

def sourceName : String := "ds-sql-dps-rs"

def requireDataOfferKind (kind : EntityKind) : Except ConnectorError Unit :=
  if kind.asStr = dataOfferKind.asStr then .ok ()
  else .error (.unsupportedKind sourceName kind.asStr)

def toApiErr {α : Type} : Except ConfigGraphError α → Except ConnectorError α
  | .ok a => .ok a
  | .error e => .error (.api e.toString)

def fields (path : PathBuf) (media : String) (policy : Json.Value) : Json.Value :=
  .obj [("filePath", .str path.toStringLossy), ("mediaType", .str media), ("policy", policy)]

def get (connector : FileOfferConnector) (kind : EntityKind) (remoteId : String) :
    Except ConnectorError (Document T) := do
  requireDataOfferKind kind
  let path ← toApiErr (filePath ox connector.graph.store remoteId)
  let media ← toApiErr (mediaType ox connector.graph.store remoteId)
  let policy ← toApiErr (policyJsonld ox connector.graph.store remoteId)
  .ok {
    name := remoteId
    remoteId := remoteId
    kind := kind
    source := sourceName
    modified := none
    fields := fields path media policy }

def pull (connector : FileOfferConnector) (kind : EntityKind) (_since : Option T) :
    Except ConnectorError (List (Document T)) := do
  requireDataOfferKind kind
  let doc ← connector.get ox kind primaryOfferId
  .ok [doc]

def push (_doc : Document T) : Except ConnectorError (Document T) :=
  .error (.unsupported sourceName "push")

section
variable {ox} {connector : FileOfferConnector} {kind : EntityKind} {remoteId : String}
  {doc : Document T}

/-- A document names the id that it was got by. -/
theorem remoteId_of_get (h : connector.get ox kind remoteId = .ok doc) :
    doc.remoteId = remoteId := by
  unfold get at h
  obtain ⟨-, -, h⟩ := exists_of_bind h
  obtain ⟨path, -, h⟩ := exists_of_bind h
  obtain ⟨media, -, h⟩ := exists_of_bind h
  obtain ⟨policy, -, h⟩ := exists_of_bind h
  rw [← Except.ok.inj h]

theorem pull_eq_get (since : Option T) :
    connector.pull ox kind since = (connector.get ox kind primaryOfferId).map ([·]) := by
  unfold pull get
  cases requireDataOfferKind kind with
  | error e => rfl
  | ok u =>
    cases toApiErr (filePath ox connector.graph.store primaryOfferId) with
    | error e => rfl
    | ok path =>
      cases toApiErr (mediaType ox connector.graph.store primaryOfferId) with
      | error e => rfl
      | ok media =>
        cases toApiErr (policyJsonld ox connector.graph.store primaryOfferId) with
        | error e => rfl
        | ok policy => rfl

/-- What is pulled was got by the fixed id. -/
theorem mem_pull_iff {since : Option T} :
    (∃ docs, connector.pull ox kind since = .ok docs ∧ doc ∈ docs) ↔
      connector.get ox kind primaryOfferId = .ok doc := by
  rw [pull_eq_get]
  cases connector.get ox kind primaryOfferId with
  | error e => simp [Except.map]
  | ok doc' => simp [Except.map, eq_comm]

end

/-- The document of an offer whose dataset id was seeded once. -/
theorem get_of_ledger {g : ConfigGraph} {ss : List Seeding} (h : FullLedger g ss) {σ : Seeding}
    (hσ : σ ∈ ss) (hu : ss.filter (fun τ => τ.offer.datasetId = σ.offer.datasetId) = [σ]) :
    (mk g).get (T := T) ox dataOfferKind σ.offer.datasetId = .ok {
      name := σ.offer.datasetId
      remoteId := σ.offer.datasetId
      kind := dataOfferKind
      source := sourceName
      modified := none
      fields := fields σ.offer.filePath σ.offer.mediaType σ.offer.document } := by
  obtain ⟨hp, hf, hm⟩ := h.reads ox hσ hu
  unfold get
  dsimp only
  rw [hp, hf, hm]
  have hr : requireDataOfferKind dataOfferKind = .ok () := if_pos rfl
  have hl : fields (.ofString σ.offer.filePath.toStringLossy) σ.offer.mediaType σ.offer.document =
      fields σ.offer.filePath σ.offer.mediaType σ.offer.document := by
    rw [fields, PathBuf.toStringLossy_ofString, fields]
  rw [hr, ← hl]
  rfl

end FileOfferConnector

/-! ## The offer being served -/

open FileOfferConnector

/-- `get` shows the offer of the configuration, and whatever is pulled contains that document. -/
def ViewAgrees (T : Type) (ox : Sparql.Engine) (c : Config) (g : ConfigGraph) : Prop :=
  ∃ doc : Document T, (mk g).get ox dataOfferKind c.datasetId = .ok doc ∧
    doc.fields = fields c.filePath c.mediaType c.fileOffer.document ∧
    ∀ since : Option T, ∃ docs, (mk g).pull ox dataOfferKind since = .ok docs ∧ doc ∈ docs

section
variable {T : Type} {ox : Sparql.Engine} {c : Config} {g : ConfigGraph}

theorem get_of_seedRun {os : List FileOffer} (h : SeedRun ox (c.fileOffer :: os) g)
    (hos : ∀ o ∈ os, o.datasetId ≠ c.datasetId) :
    ∃ doc : Document T, (mk g).get ox dataOfferKind c.datasetId = .ok doc ∧
      doc.fields = fields c.filePath c.mediaType c.fileOffer.document := by
  obtain ⟨ss, hl, hss⟩ := h.exists_ledger
  obtain ⟨σ, ss', rfl, hσ, rfl⟩ := List.map_eq_cons_iff.mp hss
  have hu : (σ :: ss').filter (fun τ => τ.offer.datasetId = σ.offer.datasetId) = [σ] := by
    rw [List.filter_cons_of_pos (by simp), List.filter_eq_nil_iff.mpr fun τ hτ => ?_]
    rw [hσ]
    exact decide_eq_false (hos τ.offer (List.mem_map_of_mem hτ)) ▸ Bool.false_ne_true
  have hg := get_of_ledger (T := T) ox hl List.mem_cons_self hu
  rw [hσ] at hg
  exact ⟨_, hg, rfl⟩

theorem primary_of_viewAgrees (h : ViewAgrees T ox c g) : c.datasetId = primaryOfferId := by
  obtain ⟨doc, hg, -, hp⟩ := h
  rw [← remoteId_of_get hg]
  exact remoteId_of_get (mem_pull_iff.mp (hp none))

/-- The offer being served can be got by its id, and is pulled exactly if that id is `primary`. -/
theorem viewAgrees_iff {os : List FileOffer} (h : SeedRun ox (c.fileOffer :: os) g)
    (hos : ∀ o ∈ os, o.datasetId ≠ c.datasetId) :
    (∃ doc : Document T, (mk g).get ox dataOfferKind c.datasetId = .ok doc ∧
      doc.fields = fields c.filePath c.mediaType c.fileOffer.document) ∧
    (ViewAgrees T ox c g ↔ c.datasetId = primaryOfferId) := by
  obtain ⟨doc, hg, hf⟩ := get_of_seedRun (T := T) h hos
  refine ⟨⟨doc, hg, hf⟩, primary_of_viewAgrees, fun hp => ⟨doc, hg, hf, fun since => ?_⟩⟩
  rw [hp] at hg
  exact mem_pull_iff.mpr hg

end

/-- The demo configuration, under a dataset id of its own. -/
def salesConfig : Config where
  datasetId := "sales"
  filePath := .ofString "sample-data/sample.csv"
  mediaType := "text/csv"
  assigner := "ds-sql-dps-rs"
  policyNotAfter := none
  publicPort := 9192
  publicBaseUrl := "http://localhost:9192"
  tckMode := false

theorem accepts_salesConfig : accepts salesConfig.fileOffer.datasetId = true := by decide +kernel

/-- The graph that `build` seeds for it. -/
def salesGraph : ConfigGraph :=
  (seedOffer plainEngine noFaults .openInMemory salesConfig.fileOffer).2

theorem seedRun_salesGraph : SeedRun plainEngine [salesConfig.fileOffer] salesGraph :=
  .seeded .fresh (seedOffer_eq plainEngine _ accepts_salesConfig)

theorem viewAgrees_iff_sales :
    (∃ doc : Document ℕ, (mk salesGraph).get plainEngine dataOfferKind salesConfig.datasetId =
      .ok doc ∧
      doc.fields =
        fields salesConfig.filePath salesConfig.mediaType salesConfig.fileOffer.document) ∧
    (ViewAgrees ℕ plainEngine salesConfig salesGraph ↔ salesConfig.datasetId = primaryOfferId) :=
  viewAgrees_iff seedRun_salesGraph (by simp)

/-- The offer of this configuration cannot be pulled. -/
theorem not_viewAgrees_sales :
    ¬ ∀ (ox : Sparql.Engine) (c : Config) (os : List FileOffer) (g : ConfigGraph),
      SeedRun ox (c.fileOffer :: os) g → (∀ o ∈ os, o.datasetId ≠ c.datasetId) →
        ViewAgrees ℕ ox c g := by
  intro hall
  have h := hall plainEngine salesConfig [] salesGraph seedRun_salesGraph (by simp)
  exact absurd (primary_of_viewAgrees h) (by decide +kernel)

end DsSqlDps
