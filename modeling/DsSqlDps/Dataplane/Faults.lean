import DsSqlDps.Dataplane.FailFast

/-!
# Failed seedings

The quads of an offer are inserted one by one, and what was inserted before a failure stays. The
first nine of them follow from the offer alone, and the tenth has a new blank node. So a failed
seeding leaves the store as it was only if it fails within the first ten, and over known quads.
-/

namespace DsSqlDps
open Rdf Sparql

/-! ## The insertion loop -/

/-- Whether the loop fails depends on how many quads there are, and on nothing else of them. -/
theorem insertLoop_fst (faults : Faults) (n : ℕ) {qs qs' : List Quad} (s s' : Store)
    (h : qs.length = qs'.length) :
    (insertLoop faults n qs s).1 = (insertLoop faults n qs' s').1 := by
  induction qs generalizing n qs' s s' with
  | nil => rw [List.length_eq_zero_iff.mp h.symm]; rfl
  | cons q qs ih =>
    cases qs' with
    | nil => cases h
    | cons q' qs' =>
      rw [insertLoop, insertLoop]
      cases faults n with
      | some e => rfl
      | none => exact ih (n + 1) _ _ (Nat.succ.inj h)

/-! ## Drawn blank nodes -/

/-- A seeding, failed or not, leaves no blank node in the graph that has not been drawn. -/
theorem ConfigGraph.Drawn.seedOffer {g : ConfigGraph} (h : g.Drawn) (ox : Engine)
    (faults : Faults) (offer : FileOffer) : (seedOffer ox faults g offer).2.Drawn := by
  have hinsert {qs : List Quad} (hqs : ∀ q ∈ qs, q ∈ (Seeding.mk offer g.fresh).quads) :
      ConfigGraph.Drawn ⟨g.store.insertAll qs, g.fresh + offer.blanks⟩ := by
    intro q hq i hi
    rcases Store.mem_insertAll.mp hq with hq | hq
    · exact Nat.lt_add_right _ (h q hq i hi)
    · have hids := Seeding.mem_ids_of_object (hqs q hq) hi
      rw [Seeding.ids_eq] at hids
      exact (List.mem_range'_1.mp hids).2
  rcases seedOffer_cases ox g faults offer with ⟨-, e, hs⟩ | ⟨-, k, e, -, -, -, hs⟩ | ⟨-, -, hs⟩
  · rwa [hs]
  · rw [hs]
    exact hinsert fun q hq => List.mem_of_mem_take hq
  · rw [hs]
    exact hinsert fun q hq => hq

/-- The tenth quad of a seeding leads to its first blank node. -/
theorem Seeding.exists_blank (σ : Seeding) {k : ℕ} (hk : 9 < k) (hlt : k < σ.offer.insertions) :
    ∃ q ∈ σ.quads.take k, q.object = .blank σ.base := by
  cases hp : σ.offer.permissions with
  | nil =>
    -- an offer without permissions has no tenth quad
    rw [FileOffer.insertions, hp, List.map_nil, List.sum_nil] at hlt
    omega
  | cons permission rest =>
    refine ⟨⟨σ.policy, .iri (Vocab.odrl "permission"), .blank σ.base⟩, ?_, rfl⟩
    obtain ⟨m, rfl⟩ := Nat.exists_eq_add_of_lt hk
    rw [Seeding.quads, Seeding.nodes, hp, show 9 + m + 1 = σ.offer.quads.length + (m + 1) from rfl,
      List.take_length_add_append]
    exact List.mem_append_right _ List.mem_cons_self

/-! ## Seeding -/

/-- The offer is rejected by the IRI check, or its first failing insertion is one of the first ten
and what is inserted before it is in the graph already. -/
def FailsOverKnown (faults : Faults) (g : ConfigGraph) (offer : FileOffer) : Prop :=
  accepts offer.datasetId = false ∨
    ∃ n ≤ 9, faults n ≠ none ∧ (∀ m < n, faults m = none) ∧
      ∀ q ∈ offer.quads.take n, q ∈ g.store

section
variable (ox : Engine)

/-- The quads before the tenth follow from the offer. -/
theorem Seeding.take_quads (σ : Seeding) {n : ℕ} (hn : n ≤ 9) :
    σ.quads.take n = σ.offer.quads.take n :=
  List.take_append_of_le_length hn

/-- A failure over known quads leaves every graph as it was. -/
theorem seedOffer_store_of_failsOverKnown {faults : Faults} {g : ConfigGraph} {offer : FileOffer}
    {e : ConfigGraphError} (h : (seedOffer ox faults g offer).1 = .error e)
    (hk : FailsOverKnown faults g offer) : (seedOffer ox faults g offer).2.store = g.store := by
  rcases seedOffer_cases ox g faults offer with
    ⟨-, e', hs⟩ | ⟨ha, k, e', -, hf, hbefore, hs⟩ | ⟨-, -, hs⟩
  · rw [hs]
  · rcases hk with hn | ⟨n, hn, hfn, hbefore', hq⟩
    · rw [ha] at hn
      cases hn
    · -- both are the first failure
      obtain rfl : k = n := by
        rcases Nat.lt_trichotomy k n with hlt | rfl | hlt
        · rw [hbefore' k hlt] at hf
          cases hf
        · rfl
        · exact absurd (hbefore n hlt) hfn
      rw [hs]
      dsimp only
      rw [Seeding.take_quads _ hn]
      exact Store.insertAll_of_subset hq
  · rw [hs] at h
    cases h

/-- Otherwise something new is left: a quad of the offer, or one that leads to a new node. -/
theorem failsOverKnown_of_mem {faults : Faults} {g : ConfigGraph} {offer : FileOffer}
    {e : ConfigGraphError} (hg : g.Drawn) (h : (seedOffer ox faults g offer).1 = .error e)
    (hmem : ∀ q ∈ (seedOffer ox faults g offer).2.store, q ∈ g.store) :
    FailsOverKnown faults g offer := by
  rcases seedOffer_cases ox g faults offer with
    ⟨ha, -⟩ | ⟨-, k, e', hk, hf, hbefore, hs⟩ | ⟨-, -, hs⟩
  · exact Or.inl ha
  · rw [hs] at hmem
    have hold : ∀ q ∈ (Seeding.mk offer g.fresh).quads.take k, q ∈ g.store := fun q hq =>
      hmem q (Store.mem_insertAll.mpr (Or.inr hq))
    by_cases h9 : k ≤ 9
    · rw [Seeding.take_quads _ h9] at hold
      refine Or.inr ⟨k, h9, ?_, hbefore, hold⟩
      rw [hf]
      exact Option.some_ne_none e'
    · obtain ⟨q, hq, ho⟩ := Seeding.exists_blank ⟨offer, g.fresh⟩ (Nat.lt_of_not_le h9) hk
      exact absurd (hg q (hold q hq) _ ho) (Nat.lt_irrefl g.fresh)
  · rw [hs] at h
    cases h

theorem seedOffer_mem_iff {faults : Faults} {g : ConfigGraph} {offer : FileOffer}
    {e : ConfigGraphError} (hg : g.Drawn) (h : (seedOffer ox faults g offer).1 = .error e) :
    (∀ q, q ∈ (seedOffer ox faults g offer).2.store ↔ q ∈ g.store) ↔
      FailsOverKnown faults g offer := by
  constructor
  · exact fun hall => failsOverKnown_of_mem ox hg h fun q => (hall q).mp
  · intro hk q
    rw [seedOffer_store_of_failsOverKnown ox h hk]

/-- Whether a seeding succeeds does not depend on the graph. -/
theorem seedOffer_fst (faults : Faults) (g g' : ConfigGraph) (offer : FileOffer) :
    (seedOffer ox faults g offer).1 = (seedOffer ox faults g' offer).1 := by
  cases ha : accepts offer.datasetId with
  | false =>
    obtain ⟨e, he⟩ := offerQuads_of_not_accepts ox ha
    rw [seedOffer, seedOffer, he, he]
  | true =>
    rw [seedOffer, seedOffer, offerQuads_of_accepts ox _ ha, offerQuads_of_accepts ox _ ha]
    -- both graphs are given as many quads
    apply insertLoop_fst
    rw [Seeding.length_quads, Seeding.length_quads]

/-! ## START -/

variable (uuid : ℕ → String)

/-- A START that failed and left no trace: the quads and the tokens are as before, and any later
START of the same dataset is answered as if it had not been. -/
def LeftNoTrace (faults : Faults) (handler : FileOfferHandler) (s : ServiceState)
    (flow : DataFlow) : Prop :=
  let s' := (handler.onStart ox uuid faults s flow).2
  s'.graph.store = s.graph.store ∧ s'.tokens = s.tokens ∧
    ∀ (faults' : Faults) (flow' : DataFlow), flow'.datasetId = flow.datasetId →
      (handler.onStart ox uuid faults' s' flow').1 = (handler.onStart ox uuid faults' s flow').1

/-- START is answered by the quads and the tokens. -/
theorem onStart_fst {faults : Faults} {handler : FileOfferHandler} {s s' : ServiceState}
    (flow : DataFlow) (hg : s'.graph.store = s.graph.store) (ht : s'.tokens = s.tokens) :
    (handler.onStart ox uuid faults s' flow).1 = (handler.onStart ox uuid faults s flow).1 := by
  have hseed := seedOffer_fst ox faults s'.graph s.graph (handler.offerFor flow.datasetId)
  unfold FileOfferHandler.onStart
  rw [hg]
  cases filePath ox s.graph.store flow.datasetId with
  | ok path => simp only [FileOfferHandler.issueToken, ht]
  | error e =>
    by_cases hm : handler.tckMode = true
    · simp only [hm, if_true]
      rcases hs : seedOffer ox faults s.graph (handler.offerFor flow.datasetId) with ⟨r, g⟩
      rcases hs' : seedOffer ox faults s'.graph (handler.offerFor flow.datasetId) with ⟨r', g'⟩
      rw [hs, hs'] at hseed
      obtain rfl : r' = r := hseed
      cases r' with
      | error e => rfl
      | ok u => simp only [FileOfferHandler.issueToken, ht]
    · simp only [hm, Bool.false_eq_true, if_false]

/-- What a START that failed has done. -/
theorem onStart_error_cases {faults : Faults} {handler : FileOfferHandler} {s : ServiceState}
    {flow : DataFlow} {e : HandlerError}
    (h : (handler.onStart ox uuid faults s flow).1 = .error e) :
    (handler.tckMode = false ∧ (handler.onStart ox uuid faults s flow).2 = s) ∨
    (handler.tckMode = true ∧
      (∃ e', (seedOffer ox faults s.graph (handler.offerFor flow.datasetId)).1 = .error e') ∧
      (handler.onStart ox uuid faults s flow).2 =
        { s with graph := (seedOffer ox faults s.graph (handler.offerFor flow.datasetId)).2 }) := by
  unfold FileOfferHandler.onStart at h ⊢
  cases hf : filePath ox s.graph.store flow.datasetId with
  | ok path =>
    rw [hf] at h
    cases h
  | error e' =>
    rw [hf] at h
    cases hm : handler.tckMode with
    | false => exact Or.inl ⟨rfl, rfl⟩
    | true =>
      rw [hm] at h
      simp only [if_true] at h ⊢
      rcases hs : seedOffer ox faults s.graph (handler.offerFor flow.datasetId) with ⟨r, g⟩
      rw [hs] at h
      cases r with
      | error e => exact Or.inr ⟨trivial, ⟨e, rfl⟩, rfl⟩
      | ok u => cases h

theorem onStart_of_seedOffer_error {faults : Faults} {handler : FileOfferHandler}
    {s : ServiceState} {flow : DataFlow} {e e' : ConfigGraphError} (ht : handler.tckMode = true)
    (hf : filePath ox s.graph.store flow.datasetId = .error e)
    (hs : (seedOffer ox faults s.graph (handler.offerFor flow.datasetId)).1 = .error e') :
    (handler.onStart ox uuid faults s flow).1 =
      .error (FileOfferHandler.seedFailed flow.datasetId e') := by
  rw [FileOfferHandler.onStart, hf]
  simp only [ht, if_true]
  rcases h : seedOffer ox faults s.graph (handler.offerFor flow.datasetId) with ⟨r, g⟩
  rw [h] at hs
  obtain rfl : r = .error e' := hs
  rfl

theorem leftNoTrace_iff {faults : Faults} {handler : FileOfferHandler} {s : ServiceState}
    {flow : DataFlow} {e : HandlerError} (hg : s.graph.Drawn)
    (h : (handler.onStart ox uuid faults s flow).1 = .error e) :
    LeftNoTrace ox uuid faults handler s flow ↔
      (handler.tckMode = true →
        FailsOverKnown faults s.graph (handler.offerFor flow.datasetId)) := by
  unfold LeftNoTrace
  rcases onStart_error_cases ox uuid h with ⟨hm, hs⟩ | ⟨hm, ⟨e', he⟩, hs⟩
  · rw [hs, hm]
    exact ⟨fun _ ht => absurd ht (by decide), fun _ => ⟨rfl, rfl, fun _ _ _ => rfl⟩⟩
  · rw [hs, hm]
    constructor
    · rintro ⟨hsame, -, -⟩ -
      apply failsOverKnown_of_mem ox hg he
      intro q hq
      rwa [← hsame]
    · intro hk
      have hsame := seedOffer_store_of_failsOverKnown ox he (hk rfl)
      exact ⟨hsame, rfl, fun faults' flow' _ => onStart_fst ox uuid flow' hsame rfl⟩

/-- Failed seedings, and failed STARTs, leave no trace exactly if they fail over known quads. -/
theorem failed_noTrace_iff :
    (∀ (faults : Faults) (g : ConfigGraph) (offer : FileOffer) (e : ConfigGraphError), g.Drawn →
      (seedOffer ox faults g offer).1 = .error e →
        ((∀ q, q ∈ (seedOffer ox faults g offer).2.store ↔ q ∈ g.store) ↔
          FailsOverKnown faults g offer)) ∧
    ∀ (faults : Faults) (handler : FileOfferHandler) (s : ServiceState) (flow : DataFlow)
      (e : HandlerError), s.graph.Drawn → (handler.onStart ox uuid faults s flow).1 = .error e →
        (LeftNoTrace ox uuid faults handler s flow ↔
          (handler.tckMode = true →
            FailsOverKnown faults s.graph (handler.offerFor flow.datasetId))) :=
  ⟨fun _ _ _ _ hg h => seedOffer_mem_iff ox hg h,
    fun _ _ _ _ _ hg h => leftNoTrace_iff ox uuid hg h⟩

end

/-- One insertion fails. -/
def faultAt (n : ℕ) (e : String) : Faults := fun m => if m = n then some e else none

theorem seedOffer_faultAt (ox : Engine) (e : String) (g : ConfigGraph) {offer : FileOffer} {n : ℕ}
    (ha : accepts offer.datasetId = true) (hn : n < offer.insertions) :
    (seedOffer ox (faultAt n e) g offer).1 = .error (.storage e) := by
  have hself : faultAt n e n = some e := if_pos rfl
  rcases seedOffer_cases ox g (faultAt n e) offer with
    ⟨hno, -⟩ | ⟨-, k, e', -, hf, -, hs⟩ | ⟨-, hall, -⟩
  · rw [ha] at hno
    cases hno
  · obtain rfl : k = n := by
      by_contra hkn
      rw [faultAt, if_neg hkn] at hf
      cases hf
    rw [hs, Option.some.inj (hf.symm.trans hself)]
  · rw [hall n hn] at hself
    cases hself

theorem failsOverKnown_faultAt (n : ℕ) (e : String) (g : ConfigGraph) (offer : FileOffer)
    (ha : accepts offer.datasetId = true) :
    FailsOverKnown (faultAt n e) g offer ↔ n ≤ 9 ∧ ∀ q ∈ offer.quads.take n, q ∈ g.store := by
  unfold FailsOverKnown faultAt
  constructor
  · rintro (hn | ⟨k, hk, hf, -, hq⟩)
    · rw [ha] at hn
      cases hn
    · obtain rfl : k = n := by
        by_contra hkn
        exact hf (if_neg hkn)
      exact ⟨hk, hq⟩
  · rintro ⟨hn, hq⟩
    refine Or.inr ⟨n, hn, ?_, fun m hm => if_neg (Nat.ne_of_lt hm), hq⟩
    rw [if_pos rfl]
    exact Option.some_ne_none e

theorem onStart_faultAt (e : String) :
    (sampleHandler.onStart plainEngine Nat.repr (faultAt 5 e) ⟨.openInMemory, .empty⟩
      ⟨"flow", "other"⟩).1 = .error (FileOfferHandler.seedFailed "other" (.storage e)) := by
  have hunknown := FullLedger.openInMemory.filePath_eq_error accepts_other
    (fun σ hσ => absurd hσ List.not_mem_nil) plainEngine
  refine onStart_of_seedOffer_error plainEngine Nat.repr rfl hunknown ?_
  exact seedOffer_faultAt plainEngine e _ accepts_other (by decide)

/-- A second seeding that fails at its tenth insertion leaves no trace, one that fails at its
eleventh does, and so does a START that fails at the sixth insertion of a new dataset. -/
theorem failed_noTrace_iff_sample :
    (∀ q, q ∈ (seedOffer plainEngine (faultAt 9 "disk full") sampleGraph sampleOffer).2.store ↔
      q ∈ sampleGraph.store) ∧
    (¬ ∀ q, q ∈ (seedOffer plainEngine (faultAt 10 "disk full") sampleGraph sampleOffer).2.store ↔
      q ∈ sampleGraph.store) ∧
    ¬ LeftNoTrace plainEngine Nat.repr (faultAt 5 "disk full") sampleHandler
      ⟨.openInMemory, .empty⟩ ⟨"flow", "other"⟩ := by
  obtain ⟨hseed, hstart⟩ := failed_noTrace_iff plainEngine Nat.repr
  have hg : sampleGraph.Drawn := drawn_openInMemory.seedOffer plainEngine noFaults sampleOffer
  have hfail (n : ℕ) (hn : n < sampleOffer.insertions) :=
    seedOffer_faultAt plainEngine "disk full" sampleGraph accepts_sampleOffer hn
  refine ⟨?_, ?_, ?_⟩
  · rw [hseed _ _ _ _ hg (hfail 9 (by decide)), failsOverKnown_faultAt _ _ _ _ accepts_sampleOffer]
    refine ⟨Nat.le_refl 9, fun q hq => ?_⟩
    rw [sampleGraph, seedOffer_of_accepts plainEngine _ accepts_sampleOffer]
    exact Store.mem_insertAll.mpr (Or.inr (List.mem_append_left _ (List.mem_of_mem_take hq)))
  · rw [hseed _ _ _ _ hg (hfail 10 (by decide)), failsOverKnown_faultAt _ _ _ _ accepts_sampleOffer]
    exact fun h => absurd h.1 (by decide)
  · intro h
    have hk := (hstart _ _ _ _ _ drawn_openInMemory (onStart_faultAt "disk full")).mp h rfl
    have hq := ((failsOverKnown_faultAt 5 "disk full" .openInMemory (sampleHandler.offerFor "other")
      accepts_other).mp hk).2
    exact Store.not_mem_empty _ (hq _ List.mem_cons_self)

/-- A seeding that fails at its sixth insertion leaves five quads behind. -/
theorem not_noTrace_sample :
    ¬ ∀ (ox : Engine) (faults : Faults) (g : ConfigGraph) (offer : FileOffer)
      (e : ConfigGraphError), (seedOffer ox faults g offer).1 = .error e →
        ∀ q, q ∈ (seedOffer ox faults g offer).2.store ↔ q ∈ g.store := by
  intro hall
  have hsame := hall plainEngine _ .openInMemory sampleOffer _
    (seedOffer_faultAt plainEngine "disk full" _ accepts_sampleOffer (n := 5) (by decide))
  obtain ⟨-, hq⟩ := (failsOverKnown_faultAt 5 "disk full" _ _ accepts_sampleOffer).mp
    ((seedOffer_mem_iff plainEngine drawn_openInMemory
      (seedOffer_faultAt plainEngine "disk full" _ accepts_sampleOffer (by decide))).mp hsame)
  exact Store.not_mem_empty _ (hq _ List.mem_cons_self)

end DsSqlDps
