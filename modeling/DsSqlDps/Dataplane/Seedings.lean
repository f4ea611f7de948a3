import DsSqlDps.Dataplane.Steps

/-!
# Seedings under way

What the interleaved requests leave in the graph: the seedings that were there at the start and
those that a START has begun, each with the quads that were inserted so far.
-/

namespace DsSqlDps
open Rdf Sparql

/-! ## Seedings in the log -/

def Event.begun? : Event → Option Seeding
  | .begun σ => some σ
  | _ => none

/-- The seedings that were begun. -/
def begun (log : List Event) : List Seeding := log.filterMap Event.begun?

section
variable {log events : List Event} {σ : Seeding}

@[simp] theorem begun_append (log events : List Event) :
    begun (log ++ events) = begun log ++ begun events := List.filterMap_append

theorem mem_begun : σ ∈ begun log ↔ .begun σ ∈ log := by
  unfold begun
  rw [List.mem_filterMap]
  constructor
  · rintro ⟨e, he, hσ⟩
    cases e <;> simp_all [Event.begun?]
  · exact fun h => ⟨_, h, rfl⟩

theorem begun_of_not_ofSeeding (h : ∀ e ∈ events, ¬ e.OfSeeding) : begun events = [] := by
  refine List.eq_nil_iff_forall_not_mem.mpr fun σ hσ => ?_
  exact h _ (mem_begun.mp hσ) trivial

theorem not_finished_of_not_ofSeeding (h : ∀ e ∈ events, ¬ e.OfSeeding) :
    .finished σ ∉ events := fun hσ => h _ hσ trivial

end

/-! ## What a step does to the graph -/

/-- The seeding of a START whose blank nodes start at `base`. -/
def FileOfferHandler.seeding (h : FileOfferHandler) (flow : DataFlow) (base : ℕ) : Seeding :=
  ⟨h.offerFor flow.datasetId, base⟩

@[simp] theorem seeding_datasetId (h : FileOfferHandler) (flow : DataFlow) (base : ℕ) :
    (h.seeding flow base).offer.datasetId = flow.datasetId := rfl

section
variable (ox : Engine) (h : FileOfferHandler) (grain : Grain) (env : Env) (s : ServiceState)
  (flow : DataFlow)

theorem stepSeed_insert (ha : accepts flow.datasetId = true) :
    stepSeed ox h .insert s flow = (.insert s.graph.fresh (h.seeding flow s.graph.fresh).quads,
      { s with graph := ⟨s.graph.store, s.graph.fresh + (h.offerFor flow.datasetId).blanks⟩ },
      [.begun (h.seeding flow s.graph.fresh)]) := by
  have ha' : accepts (h.offerFor flow.datasetId).datasetId = true := ha
  rw [stepSeed, offerQuads_of_accepts ox s.graph.fresh ha']
  rcases inserting_cases (h.seeding flow s.graph.fresh) (h.seeding flow s.graph.fresh).quads
    with ⟨hn, -⟩ | ⟨-, hi⟩
  · exact absurd hn (Seeding.quads_ne_nil _)
  · unfold FileOfferHandler.seeding at hi ⊢
    dsimp only
    rw [hi]

theorem stepSeed_call (ha : accepts flow.datasetId = true) :
    stepSeed ox h .call s flow = (.issue,
      { s with graph := ⟨s.graph.store.insertAll (h.seeding flow s.graph.fresh).quads,
        s.graph.fresh + (h.offerFor flow.datasetId).blanks⟩ },
      [.begun (h.seeding flow s.graph.fresh), .finished (h.seeding flow s.graph.fresh)]) := by
  have ha' : accepts (h.offerFor flow.datasetId).datasetId = true := ha
  rw [stepSeed, seedOffer_of_accepts ox s.graph ha']
  rfl

theorem stepSeed_of_not_accepts (ha : accepts flow.datasetId = false) :
    ∃ e, stepSeed ox h grain s flow = (.done (.error e), s, []) := by
  have ha' : accepts (h.offerFor flow.datasetId).datasetId = false := ha
  cases grain with
  | call =>
    obtain ⟨e, he⟩ := seedOffer_of_not_accepts ox s.graph noFaults ha'
    exact ⟨_, by rw [stepSeed, he]⟩
  | insert =>
    obtain ⟨e, he⟩ := offerQuads_of_not_accepts ox ha'
    exact ⟨_, by rw [stepSeed, he]⟩

/-- An insertion fails, or it is the last one, or others follow. -/
theorem stepInsert_cases (base : ℕ) (q : Quad) (quads : List Quad) :
    (∃ e, stepInsert h env s flow base (q :: quads) = (.done (.error e), s, [])) ∨
    (quads = [] ∧ stepInsert h env s flow base (q :: quads) =
      (.issue, { s with graph := ⟨s.graph.store.insert q, s.graph.fresh⟩ },
        [.finished (h.seeding flow base)])) ∨
    stepInsert h env s flow base (q :: quads) =
      (.insert base quads, { s with graph := ⟨s.graph.store.insert q, s.graph.fresh⟩ }, []) := by
  rw [stepInsert]
  cases env.insertError with
  | some e => exact Or.inl ⟨_, rfl⟩
  | none =>
    rcases inserting_cases (h.seeding flow base) quads with ⟨hn, hi⟩ | ⟨-, hi⟩
    · refine Or.inr (Or.inl ⟨hn, ?_⟩)
      unfold FileOfferHandler.seeding at hi ⊢
      dsimp only
      rw [hi]
    · refine Or.inr (Or.inr ?_)
      unfold FileOfferHandler.seeding at hi
      dsimp only
      rw [hi]

end

/-! ## The graph -/

/-- The graph of a service that was started with the seedings `ss`. -/
structure Seeded (h : FileOfferHandler) (ss : List Seeding) (g : ConfigGraph) (log : List Event) :
    Prop where
  ledger : Ledger g (ss ++ begun log)
  accepts : ∀ σ ∈ ss ++ begun log, accepts σ.offer.datasetId = true
  offer : ∀ σ ∈ begun log, σ.offer = h.offerFor σ.offer.datasetId
  disjoint : ∀ σ ∈ ss, ∀ τ ∈ begun log, σ.offer.datasetId ≠ τ.offer.datasetId
  complete : ∀ σ ∈ ss, σ.Complete g.store
  finished : ∀ σ, .finished σ ∈ log → σ.Complete g.store

namespace Seeded
variable {h : FileOfferHandler} {ss : List Seeding} {g : ConfigGraph} {log : List Event}

theorem start (hg : FullLedger g ss) : Seeded h ss g [] where
  ledger := by simpa [begun] using hg.toLedger
  accepts σ hσ := hg.accepts σ (by simpa [begun] using hσ)
  offer σ hσ := absurd hσ List.not_mem_nil
  disjoint _ _ τ hτ := absurd hτ List.not_mem_nil
  complete := hg.complete
  finished σ hσ := absurd hσ List.not_mem_nil

theorem quiet (hs : Seeded h ss g log) {events : List Event}
    (hq : ∀ e ∈ events, ¬ e.OfSeeding) : Seeded h ss g (log ++ events) := by
  have hb : begun (log ++ events) = begun log := by
    rw [begun_append, begun_of_not_ofSeeding hq, List.append_nil]
  refine ⟨?_, ?_, ?_, ?_, hs.complete, fun σ hσ => ?_⟩
  · rw [hb]
    exact hs.ledger
  · rw [hb]
    exact hs.accepts
  · rw [hb]
    exact hs.offer
  · rw [hb]
    exact hs.disjoint
  · rcases List.mem_append.mp hσ with hσ | hσ
    · exact hs.finished σ hσ
    · exact absurd hσ (not_finished_of_not_ofSeeding hq)

/-- Every offer is one of the handler's if those at the start are. -/
theorem offers (hs : Seeded h ss g log)
    (hos : ∀ σ ∈ ss, σ.offer = h.offerFor σ.offer.datasetId) :
    ∀ σ ∈ ss ++ begun log, σ.offer = h.offerFor σ.offer.datasetId := by
  intro σ hσ
  rcases List.mem_append.mp hσ with hσ | hσ
  · exact hos σ hσ
  · exact hs.offer σ hσ

/-- The blank nodes of a seeding are drawn. -/
theorem begins (hs : Seeded h ss g log) {flow : DataFlow}
    (ha : DsSqlDps.accepts flow.datasetId = true)
    (hd : ∀ σ ∈ ss, σ.offer.datasetId ≠ flow.datasetId) :
    Seeded h ss ⟨g.store, g.fresh + (h.offerFor flow.datasetId).blanks⟩
      (log ++ [.begun (h.seeding flow g.fresh)]) := by
  have hb : begun (log ++ [.begun (h.seeding flow g.fresh)]) =
      begun log ++ [h.seeding flow g.fresh] := begun_append _ _
  refine ⟨?_, fun σ hσ => ?_, fun σ hσ => ?_, fun σ hσ τ hτ => ?_, hs.complete, fun σ hσ => ?_⟩
  · rw [hb, ← List.append_assoc]
    exact hs.ledger.start (h.offerFor flow.datasetId)
  · rw [hb, ← List.append_assoc] at hσ
    rcases List.mem_append.mp hσ with hσ | hσ
    · exact hs.accepts σ hσ
    · rw [List.mem_singleton.mp hσ]
      exact ha
  · rw [hb] at hσ
    rcases List.mem_append.mp hσ with hσ | hσ
    · exact hs.offer σ hσ
    · rw [List.mem_singleton.mp hσ]
      rfl
  · rw [hb] at hτ
    rcases List.mem_append.mp hτ with hτ | hτ
    · exact hs.disjoint σ hσ τ hτ
    · rw [List.mem_singleton.mp hτ]
      exact hd σ hσ
  · rcases List.mem_append.mp hσ with hσ | hσ
    · exact hs.finished σ hσ
    · cases List.mem_singleton.mp hσ

theorem insertAll (hs : Seeded h ss g log) {σ : Seeding} (hσ : σ ∈ begun log) {quads : List Quad}
    (hq : ∀ q ∈ quads, q ∈ σ.quads) : Seeded h ss ⟨g.store.insertAll quads, g.fresh⟩ log where
  ledger := hs.ledger.insertAll (List.mem_append_right _ hσ) hq
  accepts := hs.accepts
  offer := hs.offer
  disjoint := hs.disjoint
  complete σ hσ := (hs.complete σ hσ).mono fun _ hq => Store.mem_insertAll.mpr (Or.inl hq)
  finished σ hσ := (hs.finished σ hσ).mono fun _ hq => Store.mem_insertAll.mpr (Or.inl hq)

theorem finish (hs : Seeded h ss g log) {σ : Seeding} (hc : σ.Complete g.store) :
    Seeded h ss g (log ++ [.finished σ]) := by
  have hb : begun (log ++ [.finished σ]) = begun log := by
    rw [begun_append]
    exact List.append_nil _
  refine ⟨?_, ?_, ?_, ?_, hs.complete, fun τ hτ => ?_⟩
  · rw [hb]
    exact hs.ledger
  · rw [hb]
    exact hs.accepts
  · rw [hb]
    exact hs.offer
  · rw [hb]
    exact hs.disjoint
  · rcases List.mem_append.mp hτ with hτ | hτ
    · exact hs.finished τ hτ
    · injection List.mem_singleton.mp hτ with hτ
      rw [hτ]
      exact hc

/-- A whole seeding. -/
theorem seeds (hs : Seeded h ss g log) {flow : DataFlow}
    (ha : DsSqlDps.accepts flow.datasetId = true)
    (hd : ∀ σ ∈ ss, σ.offer.datasetId ≠ flow.datasetId) {σ : Seeding}
    (hσ : h.seeding flow g.fresh = σ) :
    Seeded h ss ⟨g.store.insertAll σ.quads, g.fresh + (h.offerFor flow.datasetId).blanks⟩
      (log ++ [.begun σ, .finished σ]) := by
  have hb := hs.begins ha hd
  rw [hσ] at hb
  have hm : σ ∈ begun (log ++ [.begun σ]) := mem_begun.mpr (by simp)
  have hall := hb.insertAll hm fun _ hq => hq
  dsimp only at hall
  have hf := hall.finish (σ.complete_insertAll g.store)
  rw [List.append_assoc, List.singleton_append] at hf
  exact hf

end Seeded

/-! ## The requests -/

/-- Some seeding is of the dataset id that the text spells. -/
def Known (ss : List Seeding) (d : String) : Prop :=
  '>' ∉ d.toList → ∃ σ ∈ ss, spelled d = some σ.offer.datasetId

/-- What is known of a START: once it may seed, its dataset id was not there at the start; while it
seeds, what is not still to be inserted is in the store; once it may issue a token, its dataset id
is known. -/
def Placed (h : FileOfferHandler) (ss : List Seeding) (s : Store) (log : List Event) :
    Thread → Prop
  | .start flow .seed => ∀ σ ∈ ss, σ.offer.datasetId ≠ flow.datasetId
  | .start flow (.insert base quads) => h.seeding flow base ∈ begun log ∧
      ∃ inserted, (h.seeding flow base).quads = inserted ++ quads ∧ ∀ q ∈ inserted, q ∈ s
  | .start flow .issue => Known (ss ++ begun log) flow.datasetId
  | .start flow (.done (.ok _)) => Known (ss ++ begun log) flow.datasetId
  | _ => True

section
variable {h : FileOfferHandler} {ss : List Seeding} {log : List Event} {flow : DataFlow}
  {base : ℕ}

theorem Known.append {d : String} (hk : Known (ss ++ begun log) d) (events : List Event) :
    Known (ss ++ begun (log ++ events)) d := by
  intro hd
  obtain ⟨σ, hσ, hs⟩ := hk hd
  refine ⟨σ, ?_, hs⟩
  rw [begun_append, ← List.append_assoc]
  exact List.mem_append_left _ hσ

/-- More quads in the store and more events in the log change nothing for a request. -/
theorem Placed.mono {s s' : Store} {thread : Thread} (hp : Placed h ss s log thread)
    (hs : ∀ q ∈ s, q ∈ s') (events : List Event) : Placed h ss s' (log ++ events) thread := by
  cases thread with
  | start flow stage =>
    cases stage with
    | seed => exact hp
    | insert base quads =>
      obtain ⟨hb, inserted, he, hi⟩ := hp
      refine ⟨?_, inserted, he, fun q hq => hs q (hi q hq)⟩
      rw [begun_append]
      exact List.mem_append_left _ hb
    | issue => exact Known.append hp events
    | done result =>
      cases result with
      | ok m => exact Known.append hp events
      | error e => trivial
    | check => trivial
  | terminate | get => trivial

theorem Seeded.known {g : ConfigGraph} (hs : Seeded h ss g log) {σ : Seeding}
    (hb : σ ∈ begun log) : Known (ss ++ begun log) σ.offer.datasetId := by
  have hm : σ ∈ ss ++ begun log := List.mem_append_right _ hb
  exact fun _ => ⟨σ, hm, spelled_of_accepts (hs.accepts σ hm)⟩

/-- What a step keeps: the graph, what is known of the request, and the quads already there. -/
def Kept (h : FileOfferHandler) (ss : List Seeding) (log : List Event) (s : Store)
    (result : Thread × ServiceState × List Event) : Prop :=
  Seeded h ss result.2.1.graph (log ++ result.2.2) ∧
    Placed h ss result.2.1.graph.store (log ++ result.2.2) result.1 ∧
    ∀ q ∈ s, q ∈ result.2.1.graph.store

section
variable {ox : Engine} {uuid : ℕ → String} {grain : Grain} {env : Env} {s : ServiceState}

/-- A step that changes neither the graph nor the seedings. -/
theorem Seeded.kept_quiet (hs : Seeded h ss s.graph log)
    {result : Thread × ServiceState × List Event} (hg : result.2.1.graph = s.graph)
    (hq : ∀ e ∈ result.2.2, ¬ e.OfSeeding)
    (hp : Placed h ss s.graph.store (log ++ result.2.2) result.1) :
    Kept h ss log s.graph.store result := by
  unfold Kept
  rw [hg]
  exact ⟨hs.quiet hq, hp, fun _ hq => hq⟩

variable (ox uuid grain env) in
theorem Seeded.kept_check (hs : Seeded h ss s.graph log) :
    let result := stepStart ox uuid h grain env s flow .check
    Kept h ss log s.graph.store (.start flow result.1, result.2) := by
  rw [stepStart]
  cases hf : filePath ox s.graph.store flow.datasetId with
  | ok path =>
    refine hs.kept_quiet rfl (by simp) fun hd => ?_
    obtain ⟨e, o, he, ho, -⟩ := exists_of_filePath hd hf
    obtain ⟨σ, hσ, rfl, -⟩ := hs.ledger.mem_filePath ho
    rw [List.append_nil]
    exact ⟨σ, hσ, he⟩
  | error e =>
    dsimp only
    split_ifs
    · refine hs.kept_quiet rfl (by simp) fun σ hσ hd => ?_
      -- an offer that was there at the start would have been found
      have ha := hs.accepts σ (List.mem_append_left _ hσ)
      rw [← hd] at hf
      rcases hs.ledger.filePath_cases ox (gt_not_mem_of_accepts ha) (spelled_of_accepts ha) ha
        with ⟨-, hn⟩ | ⟨τ, -, -, hok⟩
      · exact hn _ (hs.complete σ hσ).filePath
      · rw [hok] at hf
        cases hf
    · exact hs.kept_quiet rfl (by simp) trivial

variable (ox uuid grain env) in
theorem Seeded.kept_seed (hs : Seeded h ss s.graph log)
    (hd : ∀ σ ∈ ss, σ.offer.datasetId ≠ flow.datasetId) :
    let result := stepStart ox uuid h grain env s flow .seed
    Kept h ss log s.graph.store (.start flow result.1, result.2) := by
  rw [stepStart]
  generalize hσ : h.seeding flow s.graph.fresh = σ
  have hf : flow.datasetId = σ.offer.datasetId := by rw [← hσ, seeding_datasetId]
  cases ha : DsSqlDps.accepts flow.datasetId with
  | false =>
    obtain ⟨e, he⟩ := stepSeed_of_not_accepts ox h grain s flow ha
    rw [he]
    exact hs.kept_quiet rfl (by simp) trivial
  | true =>
    cases grain with
    | insert =>
      -- nothing is inserted by this step, and all quads are left
      have hb := hs.begins ha hd
      have he := stepSeed_insert ox h s flow ha
      rw [hσ] at hb he
      rw [he]
      refine ⟨hb, ⟨?_, [], ?_, by simp⟩, fun _ hq => hq⟩
      · rw [hσ]
        exact mem_begun.mpr (by simp)
      · rw [hσ]
        rfl
    | call =>
      have hb := hs.seeds ha hd hσ
      have he := stepSeed_call ox h s flow ha
      rw [hσ] at he
      rw [he]
      refine ⟨hb, ?_, fun q hq => Store.mem_insertAll.mpr (Or.inl hq)⟩
      have hm : σ ∈ begun (log ++ [.begun σ, .finished σ]) := mem_begun.mpr (by simp)
      have hk := hb.known hm
      rw [← hf] at hk
      exact hk

variable (ox uuid grain env) in
theorem Seeded.kept_insert (hs : Seeded h ss s.graph log) {quads : List Quad}
    (hp : Placed h ss s.graph.store log (.start flow (.insert base quads))) :
    let result := stepStart ox uuid h grain env s flow (.insert base quads)
    Kept h ss log s.graph.store (.start flow result.1, result.2) := by
  rw [stepStart]
  generalize hσ : h.seeding flow base = σ
  have hf : flow.datasetId = σ.offer.datasetId := by rw [← hσ, seeding_datasetId]
  obtain ⟨hb, inserted, hq, hi⟩ := hp
  rw [hσ] at hb hq
  cases quads with
  | nil =>
    refine hs.kept_quiet rfl (by simp [stepInsert]) ⟨?_, inserted, by rw [hσ, hq], hi⟩
    rw [hσ, begun_append]
    exact List.mem_append_left _ hb
  | cons q quads =>
    -- the quad is one of the seeding, so the graph stays that of the seedings
    have hall : Seeded h ss ⟨s.graph.store.insert q, s.graph.fresh⟩ log := by
      rw [← Store.insertAll_singleton]
      refine hs.insertAll hb fun p hp => ?_
      rw [hq, List.mem_singleton.mp hp]
      simp
    have hmono : ∀ p ∈ s.graph.store, p ∈ s.graph.store.insert q :=
      fun p hp => Store.mem_insert.mpr (Or.inl hp)
    have hins : ∀ p ∈ inserted ++ [q], p ∈ s.graph.store.insert q := by
      intro p hp
      rcases List.mem_append.mp hp with hp | hp
      · exact hmono p (hi p hp)
      · exact Store.mem_insert.mpr (Or.inr (List.mem_singleton.mp hp))
    have hc := stepInsert_cases h env s flow base q quads
    rw [hσ] at hc
    rcases hc with ⟨e, he⟩ | ⟨rfl, he⟩ | he
    · rw [he]
      exact hs.kept_quiet rfl (by simp) trivial
    · rw [he]
      -- that was the last quad, so all of them are there now
      have hcomplete : σ.Complete (s.graph.store.insert q) := by
        intro p hp
        rw [hq] at hp
        exact hins p hp
      have hfin := hall.finish hcomplete
      have hm : σ ∈ begun (log ++ [.finished σ]) := by
        rw [begun_append]
        exact List.mem_append_left _ hb
      have hk := hfin.known hm
      rw [← hf] at hk
      exact ⟨hfin, hk, hmono⟩
    · rw [he]
      refine ⟨hall.quiet (by simp), ⟨?_, inserted ++ [q], ?_, hins⟩, hmono⟩
      · rw [hσ, List.append_nil]
        exact hb
      · rw [hσ, hq, List.append_assoc, List.singleton_append]

theorem Seeded.stepThread {pe : PolicyEngine} {i : ℕ} {thread : Thread}
    (hs : Seeded h ss s.graph log) (hp : Placed h ss s.graph.store log thread)
    {result : Thread × ServiceState × List Event}
    (hr : DsSqlDps.stepThread ox uuid pe h grain i env s thread = result) :
    Kept h ss log s.graph.store result := by
  subst hr
  cases thread with
  | start flow stage =>
    cases stage with
    | check => exact hs.kept_check ox uuid grain env
    | seed => exact hs.kept_seed ox uuid grain env hp
    | insert base quads => exact hs.kept_insert ox uuid grain env hp
    | issue =>
      refine hs.kept_quiet rfl ?_ (Known.append hp _)
      simp [DsSqlDps.stepThread, stepStart, Event.OfSeeding]
    | done result =>
      exact hs.kept_quiet rfl (fun e he => absurd he List.not_mem_nil)
        (hp.mono (fun _ hq => hq) [])
  | terminate flow done =>
    cases done with
    | false => exact hs.kept_quiet rfl (by simp [DsSqlDps.stepThread, Event.OfSeeding]) trivial
    | true => exact hs.kept_quiet rfl (fun e he => absurd he List.not_mem_nil) trivial
  | get d t stage =>
    exact hs.kept_quiet rfl (fun e he => (stepGet_events env.toHost s d t stage e he).2) trivial

end

end

/-! ## The system -/

/-- A system that was started with the seedings `ss`. -/
structure Underway (h : FileOfferHandler) (ss : List Seeding) (s : System) : Prop where
  graph : Seeded h ss s.state.graph s.log
  threads : ∀ (i : ℕ) (thread : Thread), s.threads[i]? = some thread →
    Placed h ss s.state.graph.store s.log thread

section
variable {ox : Engine} {uuid : ℕ → String} {pe : PolicyEngine} {h : FileOfferHandler}
  {grain : Grain} {ss : List Seeding} {s : System}

theorem underway_start {g : ConfigGraph} (hg : FullLedger g ss) : Underway h ss (.start g) where
  graph := .start hg
  threads i thread hi := absurd hi (by simp [System.start])

theorem Underway.next (hs : Underway h ss s) (a : Act) :
    Underway h ss (s.next ox uuid pe h grain a) where
  graph := by
    rcases s.next_cases ox uuid pe h grain a with
      ⟨request, -, hn⟩ | ⟨i, env, -, ⟨-, hn⟩ | ⟨thread, result, hi, hr, hn⟩⟩
    · rw [hn]
      exact hs.graph
    · rw [hn]
      exact hs.graph
    · rw [hn]
      exact (hs.graph.stepThread (hs.threads i thread hi) hr).1
  threads := by
    refine forall_threads_next (P := fun s log _ thread => Placed h ss s.graph.store log thread)
      hs.threads ?_ ?_
    · intro i request
      cases request <;> trivial
    · intro i env thread result _ hi hr
      obtain ⟨-, hp, hm⟩ := hs.graph.stepThread (hs.threads i thread hi) hr
      exact ⟨hp, fun j other _ ho => ho.mono hm _⟩

theorem underway_after {g : ConfigGraph} (hg : FullLedger g ss) (acts : List Act) :
    Underway h ss (System.after ox uuid pe h grain g acts) :=
  Machine.invariant (fun _ a hs => hs.next a) (underway_start hg) acts

/-- Whatever the interleaving and whichever insertions fail, the blank nodes of the graph have been
drawn. -/
theorem drawn_after {os : List FileOffer} {g : ConfigGraph} (hg : SeedRun ox os g)
    (acts : List Act) : (System.after ox uuid pe h grain g acts).state.graph.Drawn := by
  obtain ⟨ss, hl, -⟩ := hg.exists_ledger
  exact (underway_after hl acts).graph.ledger.drawn

end

end DsSqlDps
