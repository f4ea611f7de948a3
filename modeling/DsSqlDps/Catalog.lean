import DsSqlDps.Contreforts
import DsSqlDps.Lib.Histories

/-!
# The catalog

What the configuration graph is for: a finite map from dataset ids to offers, which reads a text as
the dataset id that it spells. While no id is seeded twice, the graph and the connector over it
answer every sequence of calls as the map does.
-/

namespace DsSqlDps
open Rdf Sparql Vocab Machine

/-! ## Calls -/

/-- A call of the configuration graph, or of the connector that shows it. -/
inductive GraphCall
  | seedOffer (offer : FileOffer)
  | filePath (datasetId : String)
  | mediaType (datasetId : String)
  | policyJsonld (datasetId : String)
  | get (kind : EntityKind) (remoteId : String)
  | pull (kind : EntityKind)

/-- An error of the configuration graph, without the text that the engine gives it. -/
inductive Failure
  | iri
  | storage
  | query
  | syntaxError
  | notFound (datasetId : String)
deriving DecidableEq, Repr

def ConfigGraphError.failure : ConfigGraphError → Failure
  | .iri _ => .iri
  | .storage _ => .storage
  | .query _ => .query
  | .syntaxError _ => .syntaxError
  | .notFound d => .notFound d

/-- An error of the connector, without the text of the error that it passes on. -/
inductive ConnectorFailure
  | unsupportedKind (connector kind : String)
  | unsupported (connector operation : String)
  | api
deriving DecidableEq, Repr

def ConnectorError.failure : ConnectorError → ConnectorFailure
  | .unsupportedKind connector kind => .unsupportedKind connector kind
  | .unsupported connector operation => .unsupported connector operation
  | .api _ => .api

/-- What a call returns, errors by their constructors. -/
inductive GraphResult (T : Type)
  | seeded (result : Except Failure Unit)
  | path (path : Except Failure PathBuf)
  | media (media : Except Failure String)
  | policy (doc : Except Failure Json.Value)
  | document (doc : Except ConnectorFailure (Document T))
  | documents (docs : Except ConnectorFailure (List (Document T)))

section
variable (T : Type) (ox : Engine)

/-- The graph answers a call; no insertion of an offer fails. -/
def graphCall (g : ConfigGraph) : GraphCall → GraphResult T × ConfigGraph
  | .seedOffer offer =>
    let (result, g) := seedOffer ox noFaults g offer
    (.seeded (result.mapError (·.failure)), g)
  | .filePath d => (.path ((filePath ox g.store d).mapError (·.failure)), g)
  | .mediaType d => (.media ((mediaType ox g.store d).mapError (·.failure)), g)
  | .policyJsonld d => (.policy ((policyJsonld ox g.store d).mapError (·.failure)), g)
  | .get kind d =>
    (.document (((FileOfferConnector.mk g).get ox kind d).mapError (·.failure)), g)
  | .pull kind =>
    (.documents (((FileOfferConnector.mk g).pull ox kind none).mapError (·.failure)), g)

end

/-! ## The map -/

/-- The offers by their dataset ids. -/
abbrev Catalog := String → Option FileOffer

namespace Catalog

/-- The offer of the dataset id that the text spells. -/
def find (cat : Catalog) (d : String) : Option FileOffer := (spelled d).bind cat

/-- A lookup of the text: it may name no dataset at all, or one without an offer. -/
def read (cat : Catalog) (d : String) : Except Failure FileOffer :=
  match cat.find d with
  | some offer => .ok offer
  | none => .error (if names d then .notFound d else .syntaxError)

/-- The policy of the offer, as it is shown by the text `d`. -/
def policy (d : String) (offer : FileOffer) : Json.Value :=
  policyObject (policyIri d) (datasetIri offer.datasetId) offer.assigner
    (offer.permissions.map (·.json))

/-- The path of the offer; it went through a literal of the graph. -/
def path (offer : FileOffer) : PathBuf := .ofString offer.filePath.toStringLossy

section
variable (T : Type)

def get (cat : Catalog) (kind : EntityKind) (d : String) :
    Except ConnectorFailure (Document T) :=
  if kind.asStr = dataOfferKind.asStr then
    match cat.read d with
    | .error _ => .error .api
    | .ok offer => .ok {
      name := d
      remoteId := d
      kind := kind
      source := FileOfferConnector.sourceName
      modified := none
      fields := FileOfferConnector.fields (path offer) offer.mediaType (policy d offer) }
  else .error (.unsupportedKind FileOfferConnector.sourceName kind.asStr)

def call (cat : Catalog) : GraphCall → GraphResult T × Catalog
  | .seedOffer offer =>
    if accepts offer.datasetId = true then
      (.seeded (.ok ()), Function.update cat offer.datasetId (some offer))
    else (.seeded (.error .iri), cat)
  | .filePath d => (.path ((cat.read d).map path), cat)
  | .mediaType d => (.media ((cat.read d).map (·.mediaType)), cat)
  | .policyJsonld d => (.policy ((cat.read d).map (policy d)), cat)
  | .get kind d => (.document (cat.get T kind d), cat)
  | .pull kind => (.documents ((cat.get T kind primaryOfferId).map ([·])), cat)

end

/-- No id is seeded twice, and no text closes its brackets. -/
def Proper (cat : Catalog) : GraphCall → Prop
  | .seedOffer offer => accepts offer.datasetId = true → cat offer.datasetId = none
  | .filePath d | .mediaType d | .policyJsonld d | .get _ d => ¬ ClosesIri d
  | .pull _ => True

/-! ## The simulation -/

/-- The graph holds one complete seeding of each offer of the map, and nothing else. -/
structure Holds (g : ConfigGraph) (cat : Catalog) (ss : List Seeding) : Prop where
  ledger : FullLedger g ss
  nodup : (ss.map fun σ => σ.offer.datasetId).Nodup
  offer : ∀ e o, cat e = some o ↔ ∃ σ ∈ ss, σ.offer.datasetId = e ∧ σ.offer = o

variable {ox : Engine} {g : ConfigGraph} {cat : Catalog} {ss : List Seeding} {d : String}

theorem Holds.openInMemory : Holds .openInMemory (fun _ => none) [] where
  ledger := .openInMemory
  nodup := List.nodup_nil
  offer e o := by simp

theorem Holds.seed (h : Holds g cat ss) {offer : FileOffer}
    (ha : accepts offer.datasetId = true) (hn : cat offer.datasetId = none) :
    Holds ⟨g.store.insertAll (Seeding.mk offer g.fresh).quads, g.fresh + offer.blanks⟩
      (Function.update cat offer.datasetId (some offer)) (ss ++ [⟨offer, g.fresh⟩]) where
  ledger := h.ledger.seedOffer ha
  nodup := by
    rw [List.map_append, List.map_singleton]
    refine List.nodup_append.mpr ⟨h.nodup, List.nodup_singleton _, fun a ham b hb hab => ?_⟩
    -- an id that was seeded has an offer in the map
    obtain ⟨σ, hσ, rfl⟩ := List.mem_map.mp ham
    rw [List.mem_singleton.mp hb] at hab
    have hs := (h.offer _ _).mpr ⟨σ, hσ, hab, rfl⟩
    rw [hn] at hs
    cases hs
  offer e o := by
    simp only [List.mem_append, List.mem_singleton, or_and_right, exists_or, exists_eq_left,
      Function.update_apply]
    split_ifs with he
    · subst he
      constructor
      · exact fun ho => Or.inr ⟨rfl, Option.some.inj ho⟩
      · rintro (hs | ⟨-, rfl⟩)
        · rw [(h.offer _ _).mpr hs] at hn
          cases hn
        · rfl
    · rw [h.offer e o]
      exact (or_iff_left fun ho => he ho.1.symm).symm

/-- A text that spells no seeded id is not read. -/
theorem Holds.reads_none (h : Holds g cat ss) (ox : Engine) (hd : ¬ ClosesIri d)
    (hn : cat.find d = none) :
    (filePath ox g.store d).toOption = none ∧ (mediaType ox g.store d).toOption = none ∧
      (policyJsonld ox g.store d).toOption = none := by
  by_cases hgt : '>' ∈ d.toList
  · obtain ⟨⟨e, hf⟩, ⟨e', hm⟩, e'', hp⟩ := lookups_unreadable ox g.store hgt hd
    rw [hf, hm, hp]
    exact ⟨rfl, rfl, rfl⟩
  · have hs : ¬ SpellsSeeded ss d := by
      rintro ⟨σ, hσ, hspell⟩
      rw [find, hspell, Option.bind_some, (h.offer _ _).mpr ⟨σ, hσ, rfl, rfl⟩] at hn
      cases hn
    have hnone {α : Type} {x : Except ConfigGraphError α} (hx : ¬ x.isOk = true) :
        x.toOption = none := by
      cases x with
      | error e => rfl
      | ok a => exact absurd rfl hx
    exact ⟨hnone (mt (filePath_isOk_iff ox h.ledger hgt).mp hs),
      hnone (mt (mediaType_isOk_iff ox h.ledger hgt).mp hs),
      hnone (mt (policyJsonld_isOk_iff ox h.ledger hgt).mp hs)⟩

/-- A text that spells a seeded id is read as the offer of that id. -/
theorem Holds.reads_some (h : Holds g cat ss) (ox : Engine) {offer : FileOffer}
    (ho : cat.find d = some offer) :
    filePath ox g.store d = .ok (path offer) ∧ mediaType ox g.store d = .ok offer.mediaType ∧
      policyJsonld ox g.store d = .ok (policy d offer) := by
  obtain ⟨e, hs, he⟩ := Option.bind_eq_some_iff.mp ho
  obtain ⟨σ, hσ, rfl, rfl⟩ := (h.offer e offer).mp he
  have hgt : '>' ∉ d.toList := fun hm => by
    rw [spelled_of_mem_gt hm] at hs
    cases hs
  have huniq {τ : Seeding} (hτ : τ ∈ ss) (hd : τ.offer.datasetId = σ.offer.datasetId) : τ = σ :=
    List.inj_on_of_nodup_map h.nodup hτ hσ hd
  obtain ⟨τ, hτ, hτd, hf⟩ := h.ledger.exists_filePath ox hσ hgt hs
  obtain ⟨ρ, hρ, hρd, hm⟩ := h.ledger.exists_mediaType ox hσ hgt hs
  obtain ⟨υ, hυ, hυd, l, hl, hp⟩ := h.ledger.exists_policyJsonld ox hσ hgt hs
  rw [nodesOf_of_filter (filter_eq_singleton hσ h.nodup)] at hl
  rw [huniq hτ hτd] at hf
  rw [huniq hρ hρd] at hm
  rw [huniq hυ hυd, σ.entries_eq hl] at hp
  exact ⟨hf, hm, hp⟩

/-- A text that stays within its brackets is read as the map says. -/
theorem Holds.reads (h : Holds g cat ss) (ox : Engine) (hd : ¬ ClosesIri d) :
    (filePath ox g.store d).toOption = (cat.find d).map path ∧
      (mediaType ox g.store d).toOption = (cat.find d).map (·.mediaType) ∧
      (policyJsonld ox g.store d).toOption = (cat.find d).map (policy d) := by
  cases ho : cat.find d with
  | none => exact h.reads_none ox hd ho
  | some offer =>
    obtain ⟨hf, hm, hp⟩ := h.reads_some ox ho
    rw [hf, hm, hp]
    exact ⟨rfl, rfl, rfl⟩

/-- A text that names a dataset without an offer finds none. -/
theorem Holds.reads_notFound (h : Holds g cat ss) (ox : Engine) (hn : cat.find d = none)
    (hd : names d = true) :
    filePath ox g.store d = .error (.notFound d) ∧ mediaType ox g.store d = .error (.notFound d) ∧
      policyJsonld ox g.store d = .error (.notFound d) := by
  obtain ⟨e, hs, ha⟩ := (Option.any_eq_true _ _).mp hd
  have hgt : '>' ∉ d.toList := fun hm => by
    rw [spelled_of_mem_gt hm] at hs
    cases hs
  have hno : ∀ σ ∈ ss, σ.offer.datasetId ≠ e := by
    intro σ hσ he
    rw [find, hs, Option.bind_some, (h.offer _ _).mpr ⟨σ, hσ, he, rfl⟩] at hn
    cases hn
  have hl := h.ledger.toLedger
  refine ⟨?_, ?_, ?_⟩
  · rcases hl.filePath_cases ox hgt hs ha with ⟨hf, -⟩ | ⟨σ, hσ, he, -⟩
    · exact hf
    · exact absurd he (hno σ hσ)
  · rcases hl.mediaType_cases ox hgt hs ha with ⟨hm, -⟩ | ⟨σ, hσ, he, -⟩
    · exact hm
    · exact absurd he (hno σ hσ)
  · rcases hl.policyHeader_cases ox hgt hs ha with ⟨hh, -⟩ | ⟨σ, hσ, he, -⟩
    · unfold policyJsonld
      rw [hh]
      rfl
    · exact absurd he (hno σ hσ)

variable (hox : ox.ParsesFirst)
include hox

/-- Errors included, a text that stays within its brackets is read as the map says. -/
theorem Holds.read (h : Holds g cat ss) (hd : ¬ ClosesIri d) :
    (filePath ox g.store d).mapError (·.failure) = (cat.read d).map path ∧
      (mediaType ox g.store d).mapError (·.failure) = (cat.read d).map (·.mediaType) ∧
      (policyJsonld ox g.store d).mapError (·.failure) = (cat.read d).map (policy d) := by
  unfold Catalog.read
  cases ho : cat.find d with
  | some offer =>
    obtain ⟨hf, hm, hp⟩ := h.reads_some ox ho
    rw [hf, hm, hp]
    exact ⟨rfl, rfl, rfl⟩
  | none =>
    dsimp only
    split_ifs with hn
    · obtain ⟨hf, hm, hp⟩ := h.reads_notFound ox ho hn
      rw [hf, hm, hp]
      exact ⟨rfl, rfl, rfl⟩
    · obtain ⟨⟨m, hf⟩, ⟨m', hm⟩, m'', hp⟩ :=
        lookups_syntaxError g.store hox hd (Bool.eq_false_iff.mpr hn)
      rw [hf, hm, hp]
      exact ⟨rfl, rfl, rfl⟩

/-- So is the document of the connector. -/
theorem Holds.get (h : Holds g cat ss) {T : Type} (hd : ¬ ClosesIri d) (kind : EntityKind) :
    ((FileOfferConnector.mk g).get (T := T) ox kind d).mapError (·.failure) =
      cat.get T kind d := by
  unfold FileOfferConnector.get Catalog.get FileOfferConnector.requireDataOfferKind
  split_ifs with hk
  · cases ho : cat.find d with
    | some offer =>
      obtain ⟨hf, hm, hp⟩ := h.reads_some ox ho
      rw [Catalog.read, ho]
      dsimp only
      rw [hf, hm, hp]
      rfl
    | none =>
      have hf := (h.read hox hd).1
      rw [Catalog.read, ho] at hf ⊢
      cases hx : filePath ox g.store d with
      | error e => rfl
      | ok path =>
        rw [hx] at hf
        cases hf
  · rfl

end Catalog

/-! ## The result -/

theorem not_closesIri_primaryOfferId : ¬ ClosesIri primaryOfferId := by decide +kernel

section
variable {T : Type} {ox : Engine}

variable (T) in
theorem graphCall_eq (hox : ox.ParsesFirst) {g : ConfigGraph} {cat : Catalog}
    (hr : ∃ ss, Catalog.Holds g cat ss) (call : GraphCall) (hc : cat.Proper call) :
    (graphCall T ox g call).1 = (cat.call T call).1 ∧
      ∃ ss, Catalog.Holds (graphCall T ox g call).2 (cat.call T call).2 ss := by
  obtain ⟨ss, h⟩ := hr
  cases call with
  | seedOffer offer =>
    rw [graphCall, Catalog.call]
    split_ifs with ha
    · rw [seedOffer_of_accepts ox g ha]
      exact ⟨rfl, _, h.seed ha (hc ha)⟩
    · obtain ⟨e, he⟩ := seedOffer_of_not_accepts ox g noFaults (Bool.eq_false_iff.mpr ha)
      rw [he]
      exact ⟨rfl, ss, h⟩
  | filePath d => exact ⟨congrArg GraphResult.path (h.read hox hc).1, ss, h⟩
  | mediaType d => exact ⟨congrArg GraphResult.media (h.read hox hc).2.1, ss, h⟩
  | policyJsonld d => exact ⟨congrArg GraphResult.policy (h.read hox hc).2.2, ss, h⟩
  | get kind d => exact ⟨congrArg GraphResult.document (h.get hox hc kind), ss, h⟩
  | pull kind =>
    refine ⟨congrArg GraphResult.documents ?_, ss, h⟩
    rw [FileOfferConnector.pull_eq_get, ← h.get hox not_closesIri_primaryOfferId kind]
    cases (FileOfferConnector.mk g).get (T := T) ox kind primaryOfferId <;> rfl

variable (T) in
/-- The configuration graph and the connector over it answer every sequence of calls as the finite
map does, errors by their constructors, while no id is seeded twice and no text closes its IRI. -/
theorem graph_refines_catalog (hox : ox.ParsesFirst) {calls : List GraphCall}
    (h : Along (fun cat call => (Catalog.call T cat call).2) Catalog.Proper (fun _ => none) calls) :
    outputs (graphCall T ox) .openInMemory calls =
      outputs (Catalog.call T) (fun _ => none) calls :=
  outputs_eq_of_along (R := fun g cat => ∃ ss, Catalog.Holds g cat ss)
    (fun _ _ call hr hc => graphCall_eq T hox hr call hc) ⟨[], Catalog.Holds.openInMemory⟩ h

end

/-- Two offers that are seeded with reads in between, one that is rejected, and texts that are no
dataset ids. -/
def sampleCalls : List GraphCall := [
  .seedOffer sampleOffer,
  .policyJsonld "other",
  .seedOffer { sampleOffer with datasetId := "two words" },
  .seedOffer otherOffer,
  .filePath "primary",
  .filePath "primar\\u0079",
  .mediaType "two words",
  .filePath "a#b",
  .policyJsonld "other",
  .get dataOfferKind "other",
  .get ⟨"dataset"⟩ "other",
  .pull dataOfferKind]

theorem graph_refines_catalog_sample :
    outputs (graphCall ℕ (.strict fun _ => 0)) .openInMemory sampleCalls =
      outputs (Catalog.call ℕ) (fun _ => none) sampleCalls := by
  apply graph_refines_catalog ℕ (Engine.parsesFirst_strict fun _ => 0)
  have hr : accepts "two words" = false := by decide +kernel
  have hp : ¬ ClosesIri "primary" := by decide +kernel
  have ho : ¬ ClosesIri "other" := by decide +kernel
  have hw : ¬ ClosesIri "two words" := by decide +kernel
  have hh : ¬ ClosesIri "a#b" := by decide +kernel
  have he : ¬ ClosesIri "primar\\u0079" := by decide +kernel
  have hs : sampleOffer.datasetId = "primary" := rfl
  have hs' : otherOffer.datasetId = "other" := rfl
  unfold sampleCalls
  simp [Along, Catalog.Proper, Catalog.call, accepts_other, accepts_primary, hr, hp, ho, hw, hh, he,
    hs, hs']

/-! ## Orders -/

/-- The graph of a run of seedings holds the map of its offers. -/
theorem Catalog.exists_holds {ox : Engine} {os : List FileOffer} {g : ConfigGraph}
    (h : SeedRun ox os g) (hn : (os.map (·.datasetId)).Nodup) (cat : Catalog)
    (hcat : ∀ e o, cat e = some o ↔ o ∈ os ∧ o.datasetId = e) : ∃ ss, Holds g cat ss := by
  obtain ⟨ss, hl, rfl⟩ := h.exists_ledger
  rw [List.map_map] at hn
  refine ⟨ss, hl, hn, fun e o => ?_⟩
  rw [hcat, List.mem_map]
  constructor
  · rintro ⟨⟨σ, hσ, rfl⟩, rfl⟩
    exact ⟨σ, hσ, rfl, rfl⟩
  · rintro ⟨σ, hσ, rfl, rfl⟩
    exact ⟨⟨σ, hσ, rfl⟩, rfl⟩

theorem find?_eq_some_iff {os : List FileOffer} (hn : (os.map (·.datasetId)).Nodup) (e : String)
    (o : FileOffer) :
    os.find? (fun o => o.datasetId = e) = some o ↔ o ∈ os ∧ o.datasetId = e := by
  constructor
  · intro hf
    exact ⟨List.mem_of_find?_eq_some hf, by simpa using List.find?_some hf⟩
  · rintro ⟨ho, rfl⟩
    cases hf : os.find? fun o' => o'.datasetId = o.datasetId with
    | none => exact absurd (decide_eq_true rfl) (List.find?_eq_none.mp hf o ho)
    | some o' =>
      exact congrArg some (List.inj_on_of_nodup_map hn (List.mem_of_find?_eq_some hf) ho
        (by simpa using List.find?_some hf))

/-- What is read depends neither on the order in which offers of different datasets were seeded nor
on the engine that answers the queries. -/
theorem reads_of_perm {ox ox' : Engine} {os os' : List FileOffer} {g g' : ConfigGraph}
    (h : SeedRun ox os g) (h' : SeedRun ox' os' g') (hp : os.Perm os')
    (hn : (os.map (·.datasetId)).Nodup) {d : String} (hd : ¬ ClosesIri d) :
    (filePath ox g.store d).toOption = (filePath ox' g'.store d).toOption ∧
      (mediaType ox g.store d).toOption = (mediaType ox' g'.store d).toOption ∧
      (policyJsonld ox g.store d).toOption = (policyJsonld ox' g'.store d).toOption := by
  have hn' : (os'.map (·.datasetId)).Nodup := (hp.map _).nodup_iff.mp hn
  -- one map for both graphs
  let cat : Catalog := fun e => os.find? fun o => o.datasetId = e
  obtain ⟨ss, hs⟩ := Catalog.exists_holds h hn cat (find?_eq_some_iff hn)
  obtain ⟨ss', hs'⟩ := Catalog.exists_holds h' hn' cat fun e o => by
    rw [find?_eq_some_iff hn, hp.mem_iff]
  obtain ⟨hf, hm, hj⟩ := hs.reads ox hd
  obtain ⟨hf', hm', hj'⟩ := hs'.reads ox' hd
  exact ⟨hf.trans hf'.symm, hm.trans hm'.symm, hj.trans hj'.symm⟩

/-- The graph after two seedings. -/
def seededBoth (o o' : FileOffer) : ConfigGraph :=
  (seedOffer plainEngine noFaults (seedOffer plainEngine noFaults .openInMemory o).2 o').2

theorem seedRun_seededBoth {o o' : FileOffer} (h : accepts o.datasetId = true)
    (h' : accepts o'.datasetId = true) : SeedRun plainEngine [o, o'] (seededBoth o o') :=
  .seeded (.seeded .fresh (seedOffer_eq plainEngine _ h)) (seedOffer_eq plainEngine _ h')

theorem reads_of_perm_other :
    let g := seededBoth sampleOffer otherOffer
    let g' := seededBoth otherOffer sampleOffer
    (filePath plainEngine g.store "other").toOption =
        (filePath plainEngine g'.store "other").toOption ∧
      (mediaType plainEngine g.store "other").toOption =
        (mediaType plainEngine g'.store "other").toOption ∧
      (policyJsonld plainEngine g.store "other").toOption =
        (policyJsonld plainEngine g'.store "other").toOption := by
  intro g g'
  have h : SeedRun plainEngine [sampleOffer, otherOffer] g :=
    seedRun_seededBoth accepts_primary accepts_other
  have h' : SeedRun plainEngine [otherOffer, sampleOffer] g' :=
    seedRun_seededBoth accepts_other accepts_primary
  -- the graphs are not to be evaluated
  clear_value g g'
  exact reads_of_perm h h' (List.Perm.swap _ _ _) (by decide) (by decide +kernel)

end DsSqlDps
