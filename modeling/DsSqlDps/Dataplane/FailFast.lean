import DsSqlDps.Dataplane.Handler

/-!
# Which dataset ids are known

A dataset id is looked up by pasting it into a query. What the pasted text spells decides whether
the lookup finds an offer, and with it whether START hands out a token.
-/

namespace DsSqlDps
open Rdf Sparql Vocab

section
variable {ox : Engine}

/-- Without auto-seeding, START succeeds with the dataset ids whose path can be read, and issues a
token just then. -/
theorem onStart_isOk_iff {uuid : ℕ → String} {faults : Faults} {handler : FileOfferHandler}
    (ht : handler.tckMode = false) (s : ServiceState) (flow : DataFlow) :
    (∃ m, handler.onStart ox uuid faults s flow =
      (.ok m, { s with tokens := (s.tokens.issue uuid flow.id flow.datasetId).2 })) ↔
      (filePath ox s.graph.store flow.datasetId).isOk = true := by
  unfold FileOfferHandler.onStart
  cases hf : filePath ox s.graph.store flow.datasetId with
  | ok path => exact ⟨fun _ => rfl, fun _ => ⟨_, rfl⟩⟩
  | error e =>
    simp only [ht, Bool.false_eq_true, if_false]
    constructor
    · rintro ⟨m, hm⟩
      cases hm
    · intro hok
      cases hok

end

/-! ## Exact lookups -/

/-- All lookups of `d` succeed exactly if an offer of this very dataset id was seeded. -/
def LookupsExact (ox : Engine) (uuid : ℕ → String) (os : List FileOffer) (g : ConfigGraph)
    (d : String) : Prop :=
  ((filePath ox g.store d).isOk = true ↔ ∃ o ∈ os, o.datasetId = d) ∧
  ((mediaType ox g.store d).isOk = true ↔ ∃ o ∈ os, o.datasetId = d) ∧
  ((policyJsonld ox g.store d).isOk = true ↔ ∃ o ∈ os, o.datasetId = d) ∧
  ∀ (handler : FileOfferHandler) (tokens : TokenStore) (flow : DataFlow),
    handler.tckMode = false → flow.datasetId = d →
      ((∃ m, handler.onStart ox uuid noFaults ⟨g, tokens⟩ flow =
        (.ok m, ⟨g, (tokens.issue uuid flow.id flow.datasetId).2⟩)) ↔ ∃ o ∈ os, o.datasetId = d)

theorem lookupsExact_iff_spells {ox : Engine} {uuid : ℕ → String} {ss : List Seeding}
    {g : ConfigGraph} (h : FullLedger g ss) {d : String} (hd : '>' ∉ d.toList) :
    LookupsExact ox uuid (ss.map (·.offer)) g d ↔
      (SpellsSeeded ss d ↔ ∃ o ∈ ss.map (·.offer), o.datasetId = d) := by
  unfold LookupsExact
  rw [filePath_isOk_iff ox h hd, mediaType_isOk_iff ox h hd, policyJsonld_isOk_iff ox h hd]
  refine ⟨fun hx => hx.1, fun hx => ⟨hx, hx, hx, fun handler tokens flow ht hf => ?_⟩⟩
  subst hf
  rw [← hx, ← filePath_isOk_iff ox h hd]
  exact onStart_isOk_iff ht ⟨g, tokens⟩ flow

/-- A text whose query is not read is known to no lookup, and no offer has it as its id. -/
theorem lookupsExact_of_unreadable (ox : Engine) (uuid : ℕ → String) {ss : List Seeding}
    {g : ConfigGraph} (h : FullLedger g ss) {d : String} (hd : '>' ∈ d.toList)
    (hn : ¬ ClosesIri d) : LookupsExact ox uuid (ss.map (·.offer)) g d := by
  have hno : ¬ ∃ o ∈ ss.map (·.offer), o.datasetId = d := by
    rintro ⟨o, ho, rfl⟩
    obtain ⟨σ, hσ, rfl⟩ := List.mem_map.mp ho
    exact h.gt_not_mem hσ hd
  obtain ⟨⟨e, hf⟩, ⟨e', hm⟩, ⟨e'', hp⟩⟩ := lookups_unreadable ox g.store hd hn
  have hfalse {α : Type} {r : Except ConfigGraphError α} {e : ConfigGraphError}
      (he : r = .error e) : r.isOk = true ↔ ∃ o ∈ ss.map (·.offer), o.datasetId = d := by
    rw [he]
    exact ⟨fun hx => (Bool.false_ne_true hx).elim, fun hx => (hno hx).elim⟩
  refine ⟨hfalse hf, hfalse hm, hfalse hp, fun handler tokens flow ht hd => ?_⟩
  subst hd
  rw [← hfalse hf]
  exact onStart_isOk_iff ht ⟨g, tokens⟩ flow

/-- Lookups are exact unless the text closes its IRI or spells another offer's id by escapes. -/
theorem lookupsExact_iff (ox : Engine) (uuid : ℕ → String) {os : List FileOffer}
    {g : ConfigGraph} (h : SeedRun ox os g) {d : String} (hd : ¬ ClosesIri d) :
    LookupsExact ox uuid os g d ↔ ∀ o ∈ os, spelled d = some o.datasetId → o.datasetId = d := by
  obtain ⟨ss, hl, rfl⟩ := h.exists_ledger
  by_cases hgt : '>' ∈ d.toList
  · -- such a text spells no id at all
    refine ⟨fun _ o _ hs => ?_, fun _ => lookupsExact_of_unreadable ox uuid hl hgt hd⟩
    rw [spelled_of_mem_gt hgt] at hs
    cases hs
  · rw [lookupsExact_iff_spells hl hgt]
    constructor
    · intro hx o ho hs
      obtain ⟨σ, hσ, rfl⟩ := List.mem_map.mp ho
      obtain ⟨o', ho', rfl⟩ := hx.mp ⟨σ, hσ, hs⟩
      obtain ⟨τ, hτ, rfl⟩ := List.mem_map.mp ho'
      rw [hl.spelled hτ] at hs
      exact (Option.some.inj hs).symm
    · intro hx
      constructor
      · rintro ⟨σ, hσ, hs⟩
        exact ⟨σ.offer, List.mem_map_of_mem hσ, hx σ.offer (List.mem_map_of_mem hσ) hs⟩
      · rintro ⟨o, ho, rfl⟩
        obtain ⟨σ, hσ, rfl⟩ := List.mem_map.mp ho
        exact ⟨σ, hσ, hl.spelled hσ⟩

def sampleHandler : FileOfferHandler := ⟨"http://localhost:9192", sampleOffer, true⟩

/-- A graph that holds the sample offer alone. -/
def sampleGraph : ConfigGraph := (seedOffer plainEngine noFaults .openInMemory sampleOffer).2

theorem seedRun_sampleGraph : SeedRun plainEngine [sampleOffer] sampleGraph :=
  .seeded .fresh (seedOffer_eq plainEngine _ accepts_sampleOffer)

theorem lookupsExact_iff_primary :
    LookupsExact plainEngine Nat.repr [sampleOffer] sampleGraph "primary" ↔
      ∀ o ∈ [sampleOffer], spelled "primary" = some o.datasetId → o.datasetId = "primary" :=
  lookupsExact_iff plainEngine Nat.repr seedRun_sampleGraph (by decide +kernel)

/-! ## A dataset id with a query of its own -/

/-- A dataset id that closes the IRI, goes on with the rest of the query and turns what follows
into a comment. -/
def injection (d : String) : String := d ++ "#distribution> ds:filePath ?path \x7d #"

def injectedText : OpenText where
  pre := filePathText.pre
  post := " ds:filePath ?path \x7d ##distribution> ds:filePath ?path \x7d".toList
  before := filePathText.before
  after := filePathText.after
  mode := .comment
  last := []
  query := filePathPattern
  iris := [DS]
  lex_pre := filePathText.lex_pre
  lex_post := by
    rewrite [toList_literal
      (s := " ds:filePath ?path \x7d ##distribution> ds:filePath ?path \x7d") rfl]
    decide +kernel
  last_eq := rfl
  parse_eq := filePathText.parse_eq
  iris_eq := filePathText.iris_eq

theorem readQuery_injection {d : String} (h : '>' ∉ d.toList) :
    readQuery (filePathQuery (injection d)) =
      openVerdict filePathPattern [DS] (distributionIri d).toList := by
  refine injectedText.readQuery ?_ (gt_not_mem_distributionIri h)
  rw [toList_filePathQuery]
  unfold injection injectedText filePathText distributionIri datasetIri
  simp only [-String.reduceToList, String.toList_append, List.append_assoc]
  rewrite [toList_literal (s := "#distribution> ds:filePath ?path \x7d #") rfl,
    toList_literal (s := "#distribution") rfl,
    toList_literal (s := " ds:filePath ?path \x7d") rfl,
    toList_literal (s := " ds:filePath ?path \x7d ##distribution> ds:filePath ?path \x7d") rfl]
  rfl

/-- On every engine, the injection of a known dataset id is as known as that id. -/
theorem filePath_injection (ox : Engine) {ss : List Seeding} {g : ConfigGraph}
    (h : FullLedger g ss) {σ : Seeding} (hσ : σ ∈ ss) :
    (filePath ox g.store (injection σ.offer.datasetId)).isOk = true := by
  obtain ⟨rows, hr, hv⟩ := select_distribution ox g.store
    (readQuery_injection (h.gt_not_mem hσ)) (h.spelled hσ) (h.accepts σ hσ)
    (isOk_vocabulary ox (by simp [vocabulary]))
    (by simpa using isOk_vocabulary ox (by simp [vocabulary]))
  rcases hv with ⟨-, hn⟩ | ⟨o, ho, hv⟩
  · exact absurd (h.complete σ hσ).filePath (hn _)
  · obtain ⟨τ, -, -, rfl⟩ := h.toLedger.mem_filePath ho
    rw [filePath_of_rows hr hv]
    rfl

/-- A dataset id that no offer has, but for which START issues a token. -/
theorem not_lookupsExact_injection :
    ¬ ∀ (ox : Engine) (os : List FileOffer) (g : ConfigGraph) (d : String), SeedRun ox os g →
      (os.map (·.datasetId)).Nodup → LookupsExact ox Nat.repr os g d := by
  intro hall
  have hx := hall plainEngine [sampleOffer] sampleGraph (injection "primary") seedRun_sampleGraph
    (by simp)
  obtain ⟨ss, hl, hss⟩ := seedRun_sampleGraph.exists_ledger
  obtain ⟨σ, hσ, hσo⟩ := List.mem_map.mp (hss ▸ List.mem_cons_self : sampleOffer ∈ ss.map (·.offer))
  have hok := filePath_injection plainEngine hl hσ
  rw [hσo] at hok
  obtain ⟨o, ho, hd⟩ := hx.1.mp hok
  rw [List.mem_singleton.mp ho] at hd
  exact absurd hd (by decide +kernel)

end DsSqlDps
