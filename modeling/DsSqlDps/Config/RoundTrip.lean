import DsSqlDps.Config.Ledger

/-!
# Seeding, and reading it back

Any sequence of `seed_offer` calls leaves a ledger of the calls that succeeded, so the reads of a
dataset id that was seeded once return the offer it was seeded with.
-/

namespace DsSqlDps
open Rdf Sparql Vocab

/-! ## One call -/

/-- The loop inserts the quads before the first insertion that fails, or all of them. -/
theorem insertLoop_cases (faults : Faults) (n : ℕ) (qs : List Quad) (s : Store) :
    (∃ k e, k < qs.length ∧ faults (n + k) = some e ∧ (∀ j < k, faults (n + j) = none) ∧
      insertLoop faults n qs s = (.error (.storage e), s.insertAll (qs.take k))) ∨
    (∀ k < qs.length, faults (n + k) = none) ∧
      insertLoop faults n qs s = (.ok (), s.insertAll qs) := by
  induction qs generalizing n s with
  | nil =>
    right
    rw [insertLoop, Store.insertAll_nil]
    exact ⟨fun k hk => absurd hk (Nat.not_lt_zero k), rfl⟩
  | cons q qs ih =>
    rw [insertLoop]
    cases hf : faults n with
    | some e =>
      left
      refine ⟨0, e, Nat.succ_pos _, hf, fun j hj => absurd hj (Nat.not_lt_zero j), ?_⟩
      rw [List.take_zero, Store.insertAll_nil]
    | none =>
      -- the number of an insertion in the tail is one less than in the list
      have hnone {m : ℕ} (h : ∀ j < m, faults (n + 1 + j) = none) :
          ∀ j < m + 1, faults (n + j) = none := by
        intro j hj
        cases j with
        | zero => exact hf
        | succ j =>
          rw [show n + (j + 1) = n + 1 + j by omega]
          exact h j (by omega)
      rcases ih (n + 1) (s.insert q) with ⟨k, e, hk, hfk, hbefore, hs⟩ | ⟨hall, hs⟩
      · left
        refine ⟨k + 1, e, Nat.succ_lt_succ hk, ?_, hnone hbefore, ?_⟩
        · rwa [show n + (k + 1) = n + 1 + k by omega]
        · rw [List.take_succ_cons, Store.insertAll_cons]
          exact hs
      · right
        rw [Store.insertAll_cons]
        exact ⟨hnone hall, hs⟩

section
variable (ox : Engine) (g : ConfigGraph) {offer : FileOffer}

/-- A call is rejected before its insertions, or fails at one of them, or succeeds. -/
theorem seedOffer_cases (faults : Faults) (offer : FileOffer) :
    (accepts offer.datasetId = false ∧ ∃ e, seedOffer ox faults g offer = (.error (.iri e), g)) ∨
    (accepts offer.datasetId = true ∧ ∃ k e, k < offer.insertions ∧ faults k = some e ∧
      (∀ j < k, faults j = none) ∧ seedOffer ox faults g offer = (.error (.storage e),
        ⟨g.store.insertAll ((Seeding.mk offer g.fresh).quads.take k), g.fresh + offer.blanks⟩)) ∨
    accepts offer.datasetId = true ∧ (∀ k < offer.insertions, faults k = none) ∧
      seedOffer ox faults g offer = (.ok (),
        ⟨g.store.insertAll (Seeding.mk offer g.fresh).quads, g.fresh + offer.blanks⟩) := by
  cases ha : accepts offer.datasetId with
  | false =>
    obtain ⟨e, he⟩ := offerQuads_of_not_accepts ox ha
    exact Or.inl ⟨rfl, e, by rw [seedOffer, he]⟩
  | true =>
    have hloop := insertLoop_cases faults 0 (Seeding.mk offer g.fresh).quads g.store
    rw [Seeding.length_quads] at hloop
    simp only [Nat.zero_add] at hloop
    rw [seedOffer, offerQuads_of_accepts ox g.fresh ha]
    rcases hloop with ⟨k, e, hk, hf, hbefore, hs⟩ | ⟨hall, hs⟩
    · refine Or.inr (Or.inl ⟨rfl, k, e, hk, hf, hbefore, ?_⟩)
      simp only [hs]
    · refine Or.inr (Or.inr ⟨rfl, hall, ?_⟩)
      simp only [hs]

/-- A seeding inserts all quads of the offer if no insertion fails. -/
theorem seedOffer_of_none {faults : Faults} (h : accepts offer.datasetId = true)
    (hf : ∀ n < offer.insertions, faults n = none) :
    seedOffer ox faults g offer =
      (.ok (), ⟨g.store.insertAll (Seeding.mk offer g.fresh).quads, g.fresh + offer.blanks⟩) := by
  rcases seedOffer_cases ox g faults offer with ⟨hn, -⟩ | ⟨-, k, e, hk, hfk, -⟩ | ⟨-, -, hs⟩
  · rw [h] at hn
    cases hn
  · rw [hf k hk] at hfk
    cases hfk
  · exact hs

theorem seedOffer_of_accepts (h : accepts offer.datasetId = true) :
    seedOffer ox noFaults g offer =
      (.ok (), ⟨g.store.insertAll (Seeding.mk offer g.fresh).quads, g.fresh + offer.blanks⟩) :=
  seedOffer_of_none ox g h fun _ _ => rfl

theorem seedOffer_eq (h : accepts offer.datasetId = true) :
    seedOffer ox noFaults g offer = (.ok (), (seedOffer ox noFaults g offer).2) := by
  rw [seedOffer_of_accepts ox g h]

theorem seedOffer_of_not_accepts (faults : Faults) (h : accepts offer.datasetId = false) :
    ∃ e, seedOffer ox faults g offer = (.error (.iri e), g) := by
  obtain ⟨e, he⟩ := offerQuads_of_not_accepts ox h
  exact ⟨e, by rw [seedOffer, he]⟩

/-- A seeding that succeeds goes as if no insertion could fail. -/
theorem none_of_seedOffer {faults : Faults} {g' : ConfigGraph}
    (h : seedOffer ox faults g offer = (.ok (), g')) :
    (∀ n < offer.insertions, faults n = none) ∧ seedOffer ox noFaults g offer = (.ok (), g') := by
  rcases seedOffer_cases ox g faults offer with ⟨-, e, hs⟩ | ⟨-, k, e, -, -, -, hs⟩ | ⟨ha, hf, hs⟩
  · rw [h] at hs
    cases hs
  · rw [h] at hs
    cases hs
  · rw [seedOffer_of_accepts ox g ha, ← hs]
    exact ⟨hf, h⟩

theorem accepts_of_seedOffer {faults : Faults} {g' : ConfigGraph}
    (h : seedOffer ox faults g offer = (.ok (), g')) : accepts offer.datasetId = true := by
  by_contra hn
  obtain ⟨e, he⟩ := seedOffer_of_not_accepts ox g faults (Bool.eq_false_iff.mpr hn)
  rw [he] at h
  cases h

end

theorem FullLedger.seedOffer {g : ConfigGraph} {ss : List Seeding} (h : FullLedger g ss)
    {offer : FileOffer} (ha : DsSqlDps.accepts offer.datasetId = true) :
    FullLedger ⟨g.store.insertAll (Seeding.mk offer g.fresh).quads, g.fresh + offer.blanks⟩
      (ss ++ [⟨offer, g.fresh⟩]) where
  toLedger := (h.toLedger.start offer).insertAll (List.mem_append_right _ List.mem_cons_self)
    fun _ hq => hq
  complete σ hσ := by
    dsimp only
    rcases List.mem_append.mp hσ with hσ | hσ
    · exact (h.complete σ hσ).mono fun q hq => Store.mem_insertAll.mpr (Or.inl hq)
    · obtain rfl := List.mem_singleton.mp hσ
      exact Seeding.complete_insertAll ⟨offer, g.fresh⟩ g.store
  accepts σ hσ := by
    rcases List.mem_append.mp hσ with hσ | hσ
    · exact h.accepts σ hσ
    · rw [List.mem_singleton.mp hσ]
      exact ha

theorem filter_append_singleton {ss : List Seeding} {σ : Seeding}
    (hd : ∀ τ ∈ ss, τ.offer.datasetId ≠ σ.offer.datasetId) :
    (ss ++ [σ]).filter (fun τ => τ.offer.datasetId = σ.offer.datasetId) = [σ] := by
  rw [List.filter_append, List.filter_eq_nil_iff.mpr fun τ hτ => by simpa using hd τ hτ,
    List.nil_append, List.filter_singleton, decide_eq_true rfl]
  rfl

/-- The reads of an offer that was just inserted. -/
theorem FullLedger.reads_insertAll {ss : List Seeding} {g : ConfigGraph} (hl : FullLedger g ss)
    {offer : FileOffer} (ha : DsSqlDps.accepts offer.datasetId = true)
    (hd : ∀ τ ∈ ss, τ.offer.datasetId ≠ offer.datasetId) (ox : Engine) :
    let s := g.store.insertAll (Seeding.mk offer g.fresh).quads
    policyJsonld ox s offer.datasetId = .ok offer.document ∧
      filePath ox s offer.datasetId = .ok (.ofString offer.filePath.toStringLossy) := by
  have hr := (hl.seedOffer ha).reads ox (List.mem_append_right _ List.mem_cons_self)
    (filter_append_singleton hd)
  exact ⟨hr.1, hr.2.1⟩

theorem FullLedger.filePath_eq_error {ss : List Seeding} {g : ConfigGraph} (hl : FullLedger g ss)
    {d : String} (ha : DsSqlDps.accepts d = true) (hd : ∀ τ ∈ ss, τ.offer.datasetId ≠ d)
    (ox : Engine) : filePath ox g.store d = .error (.notFound d) := by
  rcases hl.toLedger.filePath_cases ox (gt_not_mem_of_accepts ha) (spelled_of_accepts ha) ha with
    ⟨he, -⟩ | ⟨σ, hσ, hσd, -⟩
  · exact he
  · exact absurd hσd (hd σ hσ)

/-! ## Sequences of calls -/

/-- A fresh graph after any sequence of `seed_offer` calls; the list keeps the offers whose call
succeeded. A call that fails does so with an IRI error. -/
inductive SeedRun (ox : Engine) : List FileOffer → ConfigGraph → Prop
  | fresh : SeedRun ox [] .openInMemory
  | seeded {os : List FileOffer} {g g' : ConfigGraph} {offer : FileOffer} (h : SeedRun ox os g)
      (ho : seedOffer ox noFaults g offer = (.ok (), g')) : SeedRun ox (os ++ [offer]) g'
  | rejected {os : List FileOffer} {g g' : ConfigGraph} {offer : FileOffer} {e : String}
      (h : SeedRun ox os g) (ho : seedOffer ox noFaults g offer = (.error (.iri e), g')) :
      SeedRun ox os g'

theorem SeedRun.exists_ledger {ox : Engine} {os : List FileOffer} {g : ConfigGraph}
    (h : SeedRun ox os g) : ∃ ss, FullLedger g ss ∧ ss.map (·.offer) = os := by
  induction h with
  | fresh => exact ⟨[], .openInMemory, rfl⟩
  | @seeded os g g' offer _ ho ih =>
    obtain ⟨ss, hl, hos⟩ := ih
    have ha := accepts_of_seedOffer ox g ho
    rw [seedOffer_of_accepts ox g ha, Prod.mk.injEq] at ho
    rw [← ho.2]
    exact ⟨_, hl.seedOffer ha, by rw [List.map_append, hos]; rfl⟩
  | @rejected os g g' offer e _ ho ih =>
    have ha : accepts offer.datasetId = false := by
      by_contra hn
      rw [seedOffer_of_accepts ox g (by simpa using hn)] at ho
      cases ho
    obtain ⟨e', he⟩ := seedOffer_of_not_accepts ox g noFaults ha
    rw [he, Prod.mk.injEq] at ho
    rw [← ho.2]
    exact ih

/-- A seeding whose dataset id no other one has. -/
theorem filter_eq_singleton {ss : List Seeding} {σ : Seeding} (hσ : σ ∈ ss)
    (hn : (ss.map fun τ => τ.offer.datasetId).Nodup) :
    ss.filter (fun τ => τ.offer.datasetId = σ.offer.datasetId) = [σ] := by
  have hss : ss.Nodup := List.Nodup.of_map _ hn
  refine (List.perm_singleton.mp ?_)
  refine (List.perm_ext_iff_of_nodup (hss.filter _) (List.nodup_singleton σ)).mpr fun τ => ?_
  rw [List.mem_filter, List.mem_singleton, decide_eq_true_eq]
  constructor
  · rintro ⟨hτ, hd⟩
    exact List.inj_on_of_nodup_map hn hτ hσ hd
  · rintro rfl
    exact ⟨hσ, rfl⟩

theorem SeedRun.reads (ox : Engine) {os : List FileOffer} {g : ConfigGraph}
    (h : SeedRun ox os g) (hn : (os.map (·.datasetId)).Nodup) {offer : FileOffer}
    (ho : offer ∈ os) :
    policyJsonld ox g.store offer.datasetId = .ok offer.document ∧
      filePath ox g.store offer.datasetId = .ok (.ofString offer.filePath.toStringLossy) ∧
      mediaType ox g.store offer.datasetId = .ok offer.mediaType := by
  obtain ⟨ss, hl, rfl⟩ := h.exists_ledger
  obtain ⟨σ, hσ, rfl⟩ := List.mem_map.mp ho
  rw [List.map_map] at hn
  exact hl.reads ox hσ (filter_eq_singleton hσ hn)

/-- Every offer that was seeded comes back as it was, whatever was seeded before or after it. -/
theorem reads_of_seedRun (ox : Engine) {os : List FileOffer} {g : ConfigGraph}
    (h : SeedRun ox os g) (hn : (os.map (·.datasetId)).Nodup) {offer : FileOffer}
    (ho : offer ∈ os) (hp : offer.filePath.IsUtf8) :
    policyJsonld ox g.store offer.datasetId = .ok offer.document ∧
      filePath ox g.store offer.datasetId = .ok offer.filePath ∧
      mediaType ox g.store offer.datasetId = .ok offer.mediaType := by
  have hr := h.reads ox hn ho
  rwa [PathBuf.ofString_toStringLossy hp] at hr

/-- An offer like the one of the demo configuration, with a second permission. -/
def sampleOffer : FileOffer where
  datasetId := "primary"
  title := "sample-data/sample.csv (ds-sql-dps-rs data offer)"
  filePath := .ofString "sample-data/sample.csv"
  mediaType := "text/csv"
  assigner := "ds-sql-dps-rs"
  permissions := [⟨"use", [⟨"dateTime", "lteq", "2026-12-31T23:59:59Z"⟩]⟩, ⟨"use", []⟩]

theorem accepts_primary : accepts "primary" = true := by decide +kernel

theorem accepts_sampleOffer : accepts sampleOffer.datasetId = true := accepts_primary

theorem accepts_other : accepts "other" = true := by decide +kernel

/-- The engine that keeps tied rows in the order of their insertion. -/
def plainEngine : Engine := .reference fun _ => 0

def otherOffer : FileOffer :=
  { sampleOffer with datasetId := "other", mediaType := "application/json" }

/-- A dataset id that closes its IRI. -/
def rejectedOffer : FileOffer := { sampleOffer with datasetId := "a>b" }

/-- Two offers, and a rejected one between them. -/
def mixedGraph : ConfigGraph :=
  let g := (seedOffer plainEngine noFaults .openInMemory sampleOffer).2
  let g' := (seedOffer plainEngine noFaults g rejectedOffer).2
  (seedOffer plainEngine noFaults g' otherOffer).2

theorem seedRun_mixedGraph : SeedRun plainEngine [sampleOffer, otherOffer] mixedGraph := by
  have hr : accepts rejectedOffer.datasetId = false := by decide +kernel
  have hrun : SeedRun plainEngine [sampleOffer]
      (seedOffer plainEngine noFaults .openInMemory sampleOffer).2 :=
    .seeded .fresh (seedOffer_eq plainEngine _ accepts_sampleOffer)
  obtain ⟨e, he⟩ := seedOffer_of_not_accepts plainEngine
    (seedOffer plainEngine noFaults .openInMemory sampleOffer).2 noFaults hr
  exact .seeded (.rejected hrun (he.trans (by rw [he]))) (seedOffer_eq plainEngine _ accepts_other)

theorem reads_of_seedRun_sample :
    (policyJsonld plainEngine mixedGraph.store sampleOffer.datasetId = .ok sampleOffer.document ∧
      filePath plainEngine mixedGraph.store sampleOffer.datasetId = .ok sampleOffer.filePath ∧
      mediaType plainEngine mixedGraph.store sampleOffer.datasetId = .ok sampleOffer.mediaType) ∧
    policyJsonld plainEngine mixedGraph.store otherOffer.datasetId = .ok otherOffer.document ∧
      filePath plainEngine mixedGraph.store otherOffer.datasetId = .ok otherOffer.filePath ∧
      mediaType plainEngine mixedGraph.store otherOffer.datasetId = .ok otherOffer.mediaType := by
  have hn : ([sampleOffer, otherOffer].map (·.datasetId)).Nodup := by
    simp [sampleOffer, otherOffer]
  have hsample : sampleOffer ∈ [sampleOffer, otherOffer] := List.mem_cons_self
  have hother : otherOffer ∈ [sampleOffer, otherOffer] := List.mem_cons_of_mem _ List.mem_cons_self
  exact ⟨reads_of_seedRun plainEngine seedRun_mixedGraph hn hsample ⟨_, rfl⟩,
    reads_of_seedRun plainEngine seedRun_mixedGraph hn hother ⟨_, rfl⟩⟩

end DsSqlDps
