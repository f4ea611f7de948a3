import DsSqlDps.Dataplane.Progress
import DsSqlDps.Dataplane.Served

/-!
# Seedings that fail

A seeding that fails after the path of its offer and before the assigner leaves a dataset that the
check finds, so no START seeds it again, and that has no policy, so no GET is ever served.
-/

namespace DsSqlDps
open Rdf Sparql Vocab

/-! ## Headers that were read -/

/-- The text spells a dataset id whose policy has an assigner. -/
def HeaderIn (d : String) (s : Store) : Prop :=
  ∃ e, spelled d = some e ∧ ∃ a, policyQuad e (odrl "assigner") a ∈ s

/-- A GET that has read a header, or was served a file, is of a dataset with an assigner. -/
def Headed (s : Store) : Thread → Prop
  | .get d _ (.rows _) | .get d _ (.judge _) | .get d _ .path | .get d _ (.media _)
  | .get d _ (.answered (.file _ _)) => '>' ∉ d.toList → HeaderIn d s
  | _ => True

theorem HeaderIn.mono {s s' : Store} {d : String} (h : HeaderIn d s) (hs : ∀ q ∈ s, q ∈ s') :
    HeaderIn d s' := by
  obtain ⟨e, he, a, ha⟩ := h
  exact ⟨e, he, a, hs _ ha⟩

theorem Headed.mono {s s' : Store} {thread : Thread} (h : Headed s thread)
    (hs : ∀ q ∈ s, q ∈ s') : Headed s' thread := by
  cases thread with
  | start | terminate => trivial
  | get d t stage =>
    cases stage with
    | lookup | header => trivial
    | rows | judge | path | media => exact fun hd => (h hd).mono hs
    | answered response =>
      cases response with
      | text => trivial
      | file media bytes => exact fun hd => (h hd).mono hs

section
variable {ox : Engine} {pe : PolicyEngine} {i : ℕ} {s : ServiceState} {d t : String}

theorem headed_stepGet (host : Host) {stage : GetStage}
    (h : Headed s.graph.store (.get d t stage)) :
    Headed s.graph.store (.get d t (stepGet ox pe host i s d t stage).1) := by
  cases stage with
  | lookup =>
    rw [stepGet]
    cases s.tokens.lookup t with
    | none => trivial
    | some record => dsimp only; split_ifs <;> trivial
  | header =>
    rw [stepGet]
    cases hh : policyHeader ox s.graph.store d with
    | error e => trivial
    | ok header =>
      intro hd
      obtain ⟨e, target, assigner, he, -, ha, -⟩ := exists_of_policyHeader hd hh
      exact ⟨e, he, assigner, ha⟩
  | rows header =>
    rw [stepGet]
    cases policyRows ox s.graph.store d with
    | error e => trivial
    | ok rows => exact h
  | judge doc =>
    rw [stepGet]
    cases hr : refusal pe host.now d doc with
    | none => exact h
    | some response =>
      -- a refusal is no file
      cases response with
      | text status message => trivial
      | file media bytes => exact absurd rfl ((refusal_past hr).2 media bytes)
  | path =>
    rw [stepGet]
    cases filePath ox s.graph.store d with
    | error e => trivial
    | ok path => exact h
  | media path =>
    rw [stepGet]
    cases fileResponse host path (mediaOrDefault (mediaType ox s.graph.store d)) with
    | text status message => trivial
    | file media bytes => exact h
  | answered response => exact h

end

/-! ## Stranded datasets -/

/-- The dataset has a path and no assigner, and no START is seeding it or about to. -/
structure Stranded (d : String) (s : System) : Prop where
  path : ∃ o, distributionQuad d (ds "filePath") o ∈ s.state.graph.store
  assigner : ∀ a, policyQuad d (odrl "assigner") a ∉ s.state.graph.store
  idle : ∀ thread ∈ s.threads, ¬ thread.SeedsFor d

/-- A system with what is known of its seedings and of the GETs. -/
structure Watched (h : FileOfferHandler) (ss : List Seeding) (s : System) : Prop
    extends Underway h ss s where
  filled : Filled s.state.graph.store
  headed : ∀ (i : ℕ) (thread : Thread), s.threads[i]? = some thread →
    Headed s.state.graph.store thread

section
variable {ox : Engine} {uuid : ℕ → String} {pe : PolicyEngine} {h : FileOfferHandler}
  {grain : Grain} {ss : List Seeding} {s : System} {d : String}

theorem Watched.next (hs : Watched h ss s) (a : Act) :
    Watched h ss (s.next ox uuid pe h grain a) where
  toUnderway := hs.toUnderway.next a
  filled := hs.toUnderway.filled_next hs.filled a
  headed := by
    refine forall_threads_next (P := fun s _ _ thread => Headed s.graph.store thread)
      hs.headed ?_ ?_
    · intro i request
      cases request <;> trivial
    · intro i env thread result _ hi hr
      obtain ⟨-, -, hm⟩ := hs.graph.stepThread (hs.threads i thread hi) hr
      refine ⟨?_, fun j other _ ho => ho.mono hm⟩
      subst hr
      cases thread with
      | start flow stage => trivial
      | terminate flow done => cases done <;> trivial
      | get e t stage => exact headed_stepGet env.toHost (hs.headed i _ hi)

theorem watched_after {g : ConfigGraph} (hg : FullLedger g ss) (acts : List Act) :
    Watched h ss (System.after ox uuid pe h grain g acts) :=
  Machine.invariant (fun _ a hs => hs.next a)
    ⟨underway_start hg, hg.filled, fun i thread hi => absurd hi (by simp [System.start])⟩ acts

/-- The check finds a stranded dataset. -/
theorem Stranded.exists_filePath (hd : Stranded d s) (hs : Underway h ss s) (ox : Engine)
    (ha : accepts d = true) : ∃ path, filePath ox s.state.graph.store d = .ok path := by
  obtain ⟨o, ho⟩ := hd.path
  rcases hs.graph.ledger.filePath_cases ox (gt_not_mem_of_accepts ha) (spelled_of_accepts ha) ha
    with ⟨-, hn⟩ | ⟨σ, -, -, hok⟩
  · exact absurd ho (hn o)
  · exact ⟨_, hok⟩

/-- A START of a stranded dataset does not get to seed it. -/
theorem Stranded.not_seedsFor (hd : Stranded d s) (hs : Underway h ss s) (ha : accepts d = true)
    {i : ℕ} {env : Env} {thread : Thread} (hm : thread ∈ s.threads)
    {result : Thread × ServiceState × List Event}
    (hr : stepThread ox uuid pe h grain i env s.state thread = result) :
    ¬ result.1.SeedsFor d := by
  have hidle := hd.idle thread hm
  subst hr
  cases thread with
  | start flow stage =>
    cases stage with
    | check =>
      rw [stepThread, stepStart]
      cases hf : filePath ox s.state.graph.store flow.datasetId with
      | ok path => exact id
      | error e =>
        dsimp only
        split_ifs
        · -- only a dataset that is not found is seeded
          intro hfor
          obtain ⟨path, hok⟩ := hd.exists_filePath hs ox ha
          rw [show flow.datasetId = d from hfor, hok] at hf
          cases hf
        · exact id
    | seed =>
      rw [stepThread, stepStart]
      cases hacc : accepts flow.datasetId with
      | false =>
        obtain ⟨e, he⟩ := stepSeed_of_not_accepts ox h grain s.state flow hacc
        rw [he]
        exact id
      | true =>
        cases grain with
        | insert =>
          rw [stepSeed_insert ox h s.state flow hacc]
          exact hidle
        | call =>
          rw [stepSeed_call ox h s.state flow hacc]
          exact id
    | insert base quads =>
      cases quads with
      | nil => exact hidle
      | cons q quads =>
        rw [stepThread, stepStart]
        rcases stepInsert_cases h env s.state flow base q quads with ⟨e, he⟩ | ⟨-, he⟩ | he
        · rw [he]
          exact id
        · rw [he]
          exact id
        · rw [he]
          exact hidle
    | issue | done => exact id
  | terminate flow done => cases done <;> exact id
  | get e t stage => exact id

theorem Stranded.next (hd : Stranded d s) (hs : Watched h ss s) (ha : accepts d = true) (a : Act) :
    Stranded d (s.next ox uuid pe h grain a) := by
  rcases s.next_cases ox uuid pe h grain a with
    ⟨request, -, hn⟩ | ⟨i, env, -, ⟨-, hn⟩ | ⟨thread, result, hi, hr, hn⟩⟩
  · rw [hn]
    refine ⟨hd.path, hd.assigner, fun other hm => ?_⟩
    rcases List.mem_append.mp hm with hm | hm
    · exact hd.idle other hm
    · rw [List.mem_singleton.mp hm]
      cases request <;> exact id
  · rw [hn]
    exact hd
  · have hm := List.mem_of_getElem? hi
    obtain ⟨-, -, hmono⟩ := hs.graph.stepThread (hs.threads i thread hi) hr
    rw [hn]
    refine ⟨?_, fun a has => ?_, fun other ho => ?_⟩
    · obtain ⟨o, ho⟩ := hd.path
      exact ⟨o, hmono _ ho⟩
    · rcases stepThread_store (hs.threads i thread hi) hr with
        he | ⟨σ, inserted, qs, rest, hfor, hq, -, he⟩
      · rw [he] at has
        exact hd.assigner a has
      · rw [he] at has
        rcases Store.mem_insertAll.mp has with has | has
        · exact hd.assigner a has
        · -- an assigner of the dataset is a quad of a START that seeds it
          have hσ : policyQuad d (odrl "assigner") a ∈ σ.quads := by
            rw [hq]
            exact List.mem_append_left _ (List.mem_append_right _ has)
          obtain ⟨hp, -⟩ := Seeding.mem_assigner.mp hσ
          rw [← policyIri_injective (Term.iri.inj hp)] at hfor
          exact hd.idle thread hm hfor
    · rcases List.mem_or_eq_of_mem_set ho with ho | rfl
      · exact hd.idle other ho
      · exact hd.not_seedsFor hs.toUnderway ha hm hr

/-- Nobody is served a stranded dataset. -/
theorem Stranded.not_file (hd : Stranded d s) (hs : Watched h ss s) (ha : accepts d = true) (i : ℕ)
    (token media : String) (bytes : ByteArray) :
    s.threads[i]? ≠ some (.get d token (.answered (.file media bytes))) := by
  intro hi
  obtain ⟨e, he, a, hassign⟩ := hs.headed i _ hi (gt_not_mem_of_accepts ha)
  rw [spelled_of_accepts ha] at he
  rw [← Option.some.inj he] at hassign
  exact hd.assigner a hassign

/-- A dataset that is being seeded was accepted. -/
theorem Underway.accepts_of_insert (hs : Underway h ss s) {i : ℕ} {flow : DataFlow} {base : ℕ}
    {quads : List Quad} (hi : s.threads[i]? = some (.start flow (.insert base quads))) :
    accepts flow.datasetId = true := by
  obtain ⟨hbegun, -⟩ := hs.threads i _ hi
  have ha := hs.graph.accepts _ (List.mem_append_right ss hbegun)
  rwa [seeding_datasetId] at ha

/-- A dataset is stranded by an insertion that fails between its path and its assigner, if no other
START is seeding it. -/
theorem Watched.strands (hs : Watched h ss s) {i : ℕ} {flow : DataFlow} {base : ℕ}
    {quads : List Quad} (ha : accepts flow.datasetId = true) {path : PathBuf}
    (hi : s.threads[i]? = some (.start flow (.insert base quads))) (hq : quads ≠ [])
    (hpath : filePath ox s.state.graph.store flow.datasetId = .ok path)
    (hheader : ∀ header, policyHeader ox s.state.graph.store flow.datasetId ≠ .ok header)
    (halone : ∀ (j : ℕ) (thread : Thread), s.threads[j]? = some thread →
      thread.SeedsFor flow.datasetId → j = i)
    {env : Env} {e : String} (he : env.insertError = some e) :
    Stranded flow.datasetId (s.next ox uuid pe h grain (.step i env)) := by
  obtain ⟨q, quads, rfl⟩ := List.exists_cons_of_ne_nil hq
  have hgt := gt_not_mem_of_accepts ha
  have hspell := spelled_of_accepts ha
  have hnext : s.next ox uuid pe h grain (.step i env) =
      ⟨s.state, s.threads.set i (.start flow (.done
        (.error (FileOfferHandler.seedFailed flow.datasetId (.storage e))))), s.log ++ []⟩ := by
    rw [System.next, hi]
    simp only [stepThread, stepStart, stepInsert, he]
  rw [hnext]
  refine ⟨?_, fun a has => ?_, fun thread hm hfor => ?_⟩
  · obtain ⟨e', o, he', ho, -⟩ := exists_of_filePath hgt hpath
    rw [hspell] at he'
    rw [← Option.some.inj he'] at ho
    exact ⟨o, ho⟩
  · -- with an assigner the policy has a target too, and its header is found
    obtain ⟨-, -, t, ht⟩ := hs.filled _ a has
    rcases DsSqlDps.policyHeader_cases ox s.state.graph.store hgt hspell ha with
      ⟨-, hn⟩ | ⟨t, a, -, -, hok⟩
    · exact hn t a ht has
    · exact hheader _ hok
  · obtain ⟨j, hj⟩ := List.mem_iff_getElem?.mp hm
    dsimp only at hj
    rw [List.getElem?_set] at hj
    split_ifs at hj with hij
    · obtain rfl := Option.some.inj hj
      exact hfor
    · exact hij (halone j thread hj hfor).symm

variable (ox uuid pe h grain) in
/-- Once an insertion has failed between the path and the assigner of an offer that no other START
is seeding, the check finds the dataset for ever, and no GET of it is ever served. -/
theorem stranded_for_ever {os : List FileOffer} {g : ConfigGraph} (hg : SeedRun ox os g)
    (acts : List Act) (i : ℕ) (flow : DataFlow) {base : ℕ} {quads : List Quad} {path : PathBuf}
    (hi : (System.after ox uuid pe h grain g acts).threads[i]? =
      some (.start flow (.insert base quads)))
    (hpath : filePath ox (System.after ox uuid pe h grain g acts).state.graph.store
      flow.datasetId = .ok path)
    (hheader : ∀ header, policyHeader ox (System.after ox uuid pe h grain g acts).state.graph.store
      flow.datasetId ≠ .ok header)
    (halone : ∀ (j : ℕ) (thread : Thread), (System.after ox uuid pe h grain g acts).threads[j]? =
        some thread → thread.SeedsFor flow.datasetId → j = i)
    {env : Env} {e : String} (he : env.insertError = some e) (acts' : List Act) :
    let s := System.after ox uuid pe h grain g (acts ++ .step i env :: acts')
    (∃ path, filePath ox s.state.graph.store flow.datasetId = .ok path) ∧
      ∀ (j : ℕ) (token media : String) (bytes : ByteArray),
        s.threads[j]? ≠ some (.get flow.datasetId token (.answered (.file media bytes))) := by
  obtain ⟨ss, hl, -⟩ := hg.exists_ledger
  have hw : Watched h ss (System.after ox uuid pe h grain g acts) := watched_after hl acts
  have ha : accepts flow.datasetId = true := hw.accepts_of_insert hi
  have hloaded : (Thread.start flow (.insert base quads)).Loaded
      (grain.insertions h.defaultOffer) := loaded_after g acts i _ hi
  have hstranded : Stranded flow.datasetId ((System.after ox uuid pe h grain g acts).next ox uuid pe
      h grain (.step i env)) := hw.strands ha hi hloaded.1 hpath hheader halone he
  -- from there on every step keeps it stranded
  have hstep (s : System) (a : Act) (hs : Watched h ss s ∧ Stranded flow.datasetId s) :
      Watched h ss (s.next ox uuid pe h grain a) ∧
        Stranded flow.datasetId (s.next ox uuid pe h grain a) :=
    ⟨hs.1.next a, hs.2.next hs.1 ha a⟩
  have hrun := Machine.invariant hstep ⟨hw.next _, hstranded⟩ acts'
  rw [System.after_append, Machine.run_cons]
  exact ⟨hrun.2.exists_filePath hrun.1.toUnderway ox ha, hrun.2.not_file hrun.1 ha⟩

variable (ox uuid pe) in
/-- A START of an unknown dataset after its fifth insertion, which is that of the path. -/
theorem after_five_insertions {g : ConfigGraph} (hg : FullLedger g ss) (flow : DataFlow) (env : Env)
    (ht : h.tckMode = true) (ha : accepts flow.datasetId = true)
    (hd : ∀ σ ∈ ss, σ.offer.datasetId ≠ flow.datasetId) (he : env.insertError = none) :
    let s := System.after ox uuid pe h .insert g (seedingActs flow env 5)
    s.threads = [.start flow (.insert g.fresh ((h.seeding flow g.fresh).quads.drop 5))] ∧
      s.state.tokens = .empty ∧
      (∃ path, filePath ox s.state.graph.store flow.datasetId = .ok path) ∧
      policyHeader ox s.state.graph.store flow.datasetId = .error (.notFound flow.datasetId) := by
  generalize hσ : h.seeding flow g.fresh = σ
  have hf := hg.filePath_eq_error ha hd ox
  have hlen := σ.length_quads
  have htake : (σ.quads.take 5).length = 5 := by
    rw [List.length_take, hlen, FileOffer.insertions]
    omega
  have hdrop : σ.quads.drop 5 ≠ [] := by
    rw [ne_eq, List.drop_eq_nil_iff, hlen, FileOffer.insertions]
    omega
  have hsplit : (h.seeding flow g.fresh).quads = σ.quads.take 5 ++ σ.quads.drop 5 := by
    rw [hσ, List.take_append_drop]
  have hst : System.after ox uuid pe h .insert g
      (seedingActs flow env (σ.quads.take 5).length) = _ :=
    after_seedingActs ht ha hf he hsplit hdrop
  have hu : Underway h ss (System.after ox uuid pe h .insert g (seedingActs flow env 5)) :=
    underway_after hg _
  rw [htake] at hst
  rw [hst] at hu ⊢
  have hfirst : σ.quads.take 5 = σ.offer.quads.take 5 := rfl
  have hid : σ.offer.datasetId = flow.datasetId := by rw [← hσ, seeding_datasetId]
  refine ⟨rfl, rfl, ?_, ?_⟩
  · rcases hu.graph.ledger.filePath_cases ox (gt_not_mem_of_accepts ha) (spelled_of_accepts ha) ha
      with ⟨-, hn⟩ | ⟨τ, -, -, hok⟩
    · refine absurd ?_ (hn (.simple σ.offer.filePath.toStringLossy))
      rw [Store.mem_insertAll, hfirst, ← hid]
      exact Or.inr (by simp [FileOffer.quads, distributionQuad])
    · exact ⟨_, hok⟩
  · rcases DsSqlDps.policyHeader_cases ox _ (gt_not_mem_of_accepts ha) (spelled_of_accepts ha) ha
      with ⟨hn, -⟩ | ⟨t, a, -, has, -⟩
    · exact hn
    · -- the assigner is none of the first five quads
      rw [Store.mem_insertAll, hfirst] at has
      rcases has with has | has
      · obtain ⟨τ, hτ, hτd, -⟩ := hg.toLedger.mem_assigner has
        exact absurd hτd (hd τ hτ)
      · simp [FileOffer.quads, policyQuad] at has

end

/-- The sixth insertion of a seeding fails. -/
theorem stranded_for_ever_sample :
    let s := System.after plainEngine Nat.repr permissionEngine sampleHandler .insert sampleGraph
      (seedingActs ⟨"flow", "other"⟩ sampleEnv 5 ++
        .step 0 ⟨sampleHost, some "no space left on device"⟩ ::
          readingActs ⟨"next", "other"⟩ "0" sampleEnv)
    (∃ path, filePath plainEngine s.state.graph.store "other" = .ok path) ∧
      ∀ (j : ℕ) (token media : String) (bytes : ByteArray),
        s.threads[j]? ≠ some (.get "other" token (.answered (.file media bytes))) := by
  obtain ⟨ss, hl, hos⟩ := seedRun_sampleGraph.exists_ledger
  have hd : ∀ σ ∈ ss, σ.offer.datasetId ≠ "other" := by
    intro σ hσ
    have hm : σ.offer ∈ [sampleOffer] := hos ▸ List.mem_map_of_mem hσ
    rw [List.mem_singleton.mp hm]
    decide
  obtain ⟨hthreads, -, ⟨path, hpath⟩, hheader⟩ := after_five_insertions plainEngine Nat.repr
    permissionEngine (h := sampleHandler) hl ⟨"flow", "other"⟩ sampleEnv rfl accepts_other hd rfl
  refine stranded_for_ever plainEngine Nat.repr permissionEngine sampleHandler .insert
    seedRun_sampleGraph _ 0 ⟨"flow", "other"⟩ (by rw [hthreads]; rfl) hpath
    (fun header hok => by rw [hheader] at hok; cases hok) (fun j thread hj _ => ?_) rfl _
  rw [hthreads] at hj
  cases j with
  | zero => rfl
  | succ j => cases hj

end DsSqlDps
