import DsSqlDps.Dataplane.HalfSeeded

/-!
# Automatic seeding

Here a call of `seed_offer` is one step, so every policy in the graph is whole. A START seeds
because of a check that it made before, and two STARTs of one dataset may both seed it.
-/

namespace DsSqlDps
open Rdf Sparql

/-- A dataset is seeded only while the check would still fail. -/
def SeedsUnknown (ox : Engine) (s : System) : Act → Prop
  | .step i _ => ∀ flow, s.threads[i]? = some (.start flow .seed) →
      ∀ path, filePath ox s.state.graph.store flow.datasetId ≠ .ok path
  | .spawn _ => True

/-! ## Seedings in one step -/

section
variable {ox : Engine} {uuid : ℕ → String} {pe : PolicyEngine} {h : FileOfferHandler} {i : ℕ}
  {env : Env} {s : ServiceState}

theorem stepInsert_begun (flow : DataFlow) (base : ℕ) (quads : List Quad) (σ : Seeding) :
    .begun σ ∉ (stepInsert h env s flow base quads).2.2 := by
  cases quads with
  | nil => simp [stepInsert]
  | cons q quads =>
    rcases stepInsert_cases h env s flow base q quads with ⟨e, he⟩ | ⟨-, he⟩ | he <;> simp [he]

/-- A step that begins a seeding finishes it. -/
theorem finished_of_begun (thread : Thread) {result : Thread × ServiceState × List Event}
    (hr : stepThread ox uuid pe h .call i env s thread = result) {σ : Seeding}
    (hσ : .begun σ ∈ result.2.2) : .finished σ ∈ result.2.2 ∧
      ∃ flow, thread = .start flow .seed ∧ σ = h.seeding flow s.graph.fresh ∧
        begun result.2.2 = [σ] := by
  subst hr
  cases thread with
  | start flow stage =>
    cases stage with
    | check =>
      rw [stepThread, stepStart] at hσ
      cases hf : filePath ox s.graph.store flow.datasetId with
      | ok path => simp [hf] at hσ
      | error e =>
        rw [hf] at hσ
        dsimp only at hσ
        split_ifs at hσ <;> simp at hσ
    | seed =>
      rw [stepThread, stepStart] at hσ ⊢
      cases ha : accepts flow.datasetId with
      | false =>
        obtain ⟨e, he⟩ := stepSeed_of_not_accepts ox h .call s flow ha
        simp [he] at hσ
      | true =>
        rw [stepSeed_call ox h s flow ha] at hσ ⊢
        obtain rfl : σ = h.seeding flow s.graph.fresh := by simpa using hσ
        exact ⟨by simp, flow, rfl, rfl, rfl⟩
    | insert base quads => exact absurd hσ (stepInsert_begun flow base quads σ)
    | issue => simp [stepThread, stepStart] at hσ
    | done result => simp [stepThread, stepStart] at hσ
  | terminate flow done => cases done <;> simp [stepThread] at hσ
  | get d t stage => exact absurd trivial (stepGet_events env.toHost s d t stage _ hσ).2

end

/-- A system in which every seeding that was begun is finished. -/
structure Called (h : FileOfferHandler) (ss : List Seeding) (s : System) : Prop
    extends Underway h ss s where
  called : ∀ σ ∈ begun s.log, .finished σ ∈ s.log

section
variable {ox : Engine} {uuid : ℕ → String} {pe : PolicyEngine} {h : FileOfferHandler}
  {ss : List Seeding} {s : System}

theorem Called.next (hs : Called h ss s) (a : Act) :
    Called h ss (s.next ox uuid pe h .call a) where
  toUnderway := hs.toUnderway.next a
  called := by
    rcases s.next_cases ox uuid pe h .call a with
      ⟨request, -, hn⟩ | ⟨i, env, -, ⟨-, hn⟩ | ⟨thread, result, -, hr, hn⟩⟩
    · rw [hn]
      exact hs.called
    · rw [hn]
      exact hs.called
    · rw [hn]
      dsimp only
      intro σ hσ
      rw [begun_append] at hσ
      rcases List.mem_append.mp hσ with hσ | hσ
      · exact List.mem_append_left _ (hs.called σ hσ)
      · exact List.mem_append_right _ (finished_of_begun thread hr (mem_begun.mp hσ)).1

theorem called_start {g : ConfigGraph} (hg : FullLedger g ss) : Called h ss (.start g) :=
  ⟨underway_start hg, fun _ hσ => absurd hσ List.not_mem_nil⟩

theorem called_after {g : ConfigGraph} (hg : FullLedger g ss) (acts : List Act) :
    Called h ss (System.after ox uuid pe h .call g acts) :=
  Machine.invariant (fun _ a hs => hs.next a) (called_start hg) acts

theorem Called.full (hs : Called h ss s) : FullLedger s.state.graph (ss ++ begun s.log) where
  toLedger := hs.graph.ledger
  complete σ hσ := by
    rcases List.mem_append.mp hσ with hσ | hσ
    · exact hs.graph.complete σ hσ
    · exact hs.graph.finished σ (hs.called σ hσ)
  accepts := hs.graph.accepts

/-- A dataset that is seeded while it is unknown is seeded for the first time. -/
theorem Called.seededOnce_next (hs : Called h ss s) (ho : ∀ d, SeededOnce s.log d) {a : Act}
    (ha : SeedsUnknown ox s a) (d : String) :
    SeededOnce (s.next ox uuid pe h .call a).log d := by
  rcases s.next_cases ox uuid pe h .call a with
    ⟨request, -, hn⟩ | ⟨i, env, rfl, ⟨-, hn⟩ | ⟨thread, result, hi, hr, hn⟩⟩
  · rw [hn]
    exact ho d
  · rw [hn]
    exact ho d
  · rw [hn]
    unfold SeededOnce
    dsimp only
    rw [begun_append, List.filter_append, List.length_append]
    cases hb : begun result.2.2 with
    | nil => exact ho d
    | cons σ rest =>
      obtain ⟨-, flow, rfl, hσ, hone⟩ :=
        finished_of_begun thread hr (mem_begun.mp (hb ▸ List.mem_cons_self))
      rw [← hb, hone]
      by_cases hd : σ.offer.datasetId = d
      · -- had it been seeded before, its path would be found
        have hnone : (begun s.log).filter (fun σ => σ.offer.datasetId = d) = [] := by
          refine List.filter_eq_nil_iff.mpr fun τ hτ hτd => ?_
          have hm : τ ∈ ss ++ begun s.log := List.mem_append_right _ hτ
          obtain ⟨ρ, -, -, hf⟩ := hs.full.exists_filePath ox hm (hs.full.gt_not_mem hm)
            (hs.full.spelled hm)
          rw [of_decide_eq_true hτd, ← hd, hσ, seeding_datasetId] at hf
          exact ha flow hi _ hf
        rw [hnone, List.length_nil, Nat.zero_add]
        exact List.length_filter_le _ _
      · rw [List.filter_singleton, decide_eq_false hd]
        exact ho d

/-! ## Policies -/

theorem length_nodesOf {ss : List Seeding} {d : String} {n : ℕ}
    (hn : ∀ σ ∈ ss, σ.offer.datasetId = d → σ.offer.permissions.length = n) :
    (nodesOf ss d).length = (ss.filter fun σ => σ.offer.datasetId = d).length * n := by
  rw [nodesOf, List.length_flatMap, List.map_congr_left (g := fun _ => n) ?_, List.map_const',
    List.sum_replicate, smul_eq_mul]
  intro σ hσ
  obtain ⟨hσ, hd⟩ := List.mem_filter.mp hσ
  rw [← hn σ hσ (of_decide_eq_true hd), ← σ.nodes_spec, List.length_map]

/-- The policy of a dataset that is known is that of the default offer if it was seeded once, and
has more entries otherwise. -/
theorem Called.policyJsonld_iff (hs : Called h ss s) (ox : Engine)
    (hos : ∀ σ ∈ ss, σ.offer = h.offerFor σ.offer.datasetId)
    (hn : (ss.map fun σ => σ.offer.datasetId).Nodup) (hp : h.defaultOffer.permissions ≠ [])
    {σ : Seeding} (hσ : σ ∈ ss ++ begun s.log) :
    policyJsonld ox s.state.graph.store σ.offer.datasetId =
        .ok (h.offerFor σ.offer.datasetId).document ↔
      SeededOnce s.log σ.offer.datasetId := by
  have hoffer : ∀ τ ∈ ss ++ begun s.log, τ.offer = h.offerFor τ.offer.datasetId := by
    intro τ hτ
    rcases List.mem_append.mp hτ with hτ | hτ
    · exact hos τ hτ
    · exact hs.graph.offer τ hτ
  constructor
  · intro hd
    by_contra hmany
    obtain ⟨τ, -, -, l, hl, hr⟩ := hs.full.exists_policyJsonld ox hσ (hs.full.gt_not_mem hσ)
      (hs.full.spelled hσ)
    -- every seeding of the dataset adds all permissions of the default offer
    have hlen : ∀ τ ∈ ss ++ begun s.log, τ.offer.datasetId = σ.offer.datasetId →
        τ.offer.permissions.length = h.defaultOffer.permissions.length := by
      rintro τ hτ -
      rw [hoffer τ hτ]
      rfl
    have hle := hl.length_le_entries
    rw [length_nodesOf hlen, List.filter_append, List.length_append] at hle
    rw [hr, FileOffer.document] at hd
    rw [policyObject_entries (Except.ok.inj hd), List.length_map] at hle
    have hpos := List.length_pos_of_ne_nil hp
    have htwo := (Nat.lt_of_not_le hmany).trans_le (Nat.le_add_left _ (ss.filter fun τ =>
      τ.offer.datasetId = σ.offer.datasetId).length)
    exact absurd hle (Nat.not_le_of_lt ((Nat.lt_mul_iff_one_lt_left hpos).mpr htwo))
  · intro ho
    -- it was seeded either before the run or in it
    have hone : (ss ++ begun s.log).filter (fun τ => τ.offer.datasetId = σ.offer.datasetId) =
        [σ] := by
      rcases List.mem_append.mp hσ with hσ | hσ
      · rw [List.filter_append, filter_eq_singleton hσ hn,
          List.filter_eq_nil_iff.mpr fun τ hτ => by simpa using (hs.graph.disjoint σ hσ τ hτ).symm]
        rfl
      · rw [List.filter_append, ho.filter_eq hσ rfl,
          List.filter_eq_nil_iff.mpr fun τ hτ => by simpa using hs.graph.disjoint τ hτ σ hσ]
        rfl
    rw [(hs.full.reads ox hσ hone).1, ← hoffer σ hσ]

end

/-! ## Two checks before the first seeding -/

/-- Two STARTs that take their steps in turn. -/
def racingActs (flow flow' : DataFlow) (env : Env) : List Act :=
  [.spawn (.start flow), .spawn (.start flow'), .step 0 env, .step 1 env, .step 0 env, .step 1 env,
    .step 0 env, .step 1 env]

/-- Both of them seed, and both succeed. -/
theorem after_racingActs (ox : Engine) (uuid : ℕ → String) (pe : PolicyEngine)
    (h : FileOfferHandler) (ht : h.tckMode = true) {os : List FileOffer} {g : ConfigGraph}
    (hg : SeedRun ox os g) (f f' : String) {d : String} (ha : accepts d = true)
    (hd : ∀ o ∈ os, o.datasetId ≠ d) (env : Env) :
    let s := System.after ox uuid pe h .call g (racingActs ⟨f, d⟩ ⟨f', d⟩ env)
    s.threads = [.start ⟨f, d⟩ (.done (.ok (h.startedMessage ⟨f, d⟩ (uuid 0)))),
      .start ⟨f', d⟩ (.done (.ok (h.startedMessage ⟨f', d⟩ (uuid 1))))] ∧
    (begun s.log).map (·.offer) = [h.offerFor d, h.offerFor d] ∧
    s.state.tokens = ((TokenStore.empty.issue uuid f d).2.issue uuid f' d).2 := by
  obtain ⟨ss, hl, rfl⟩ := hg.exists_ledger
  have hunknown := hl.filePath_eq_error ha (fun τ hτ => hd _ (List.mem_map_of_mem hτ)) ox
  have hseed (s : ServiceState) (f : String) := stepSeed_call ox h s ⟨f, d⟩ ha
  unfold System.after racingActs System.start
  simp only [Machine.run_cons, Machine.run_nil, System.next, Request.thread, List.nil_append,
    List.cons_append, List.getElem?_cons_zero, List.getElem?_cons_succ, List.set_cons_zero,
    List.set_cons_succ, stepThread, stepStart, hunknown, ht, if_true, hseed]
  exact ⟨rfl, rfl, trivial⟩

/-- The policy is then not that of the default offer. -/
theorem policyJsonld_after_racingActs (ox : Engine) (uuid : ℕ → String) (pe : PolicyEngine)
    (h : FileOfferHandler) (ht : h.tckMode = true) (hp : h.defaultOffer.permissions ≠ [])
    {os : List FileOffer} {g : ConfigGraph} (hg : SeedRun ox os g)
    (hos : ∀ o ∈ os, o = h.offerFor o.datasetId) (hn : (os.map (·.datasetId)).Nodup)
    (f f' : String) {d : String} (ha : accepts d = true) (hd : ∀ o ∈ os, o.datasetId ≠ d)
    (env : Env) :
    policyJsonld ox (System.after ox uuid pe h .call g
        (racingActs ⟨f, d⟩ ⟨f', d⟩ env)).state.graph.store d ≠ .ok (h.offerFor d).document := by
  obtain ⟨-, hb, -⟩ := after_racingActs ox uuid pe h ht hg f f' ha hd env
  obtain ⟨ss, hl, rfl⟩ := hg.exists_ledger
  rw [List.map_map] at hn
  have hs : Called h ss (System.after ox uuid pe h .call g (racingActs ⟨f, d⟩ ⟨f', d⟩ env)) :=
    called_after hl _
  generalize System.after ox uuid pe h .call g (racingActs ⟨f, d⟩ ⟨f', d⟩ env) = s at hb hs ⊢
  -- both seedings are of `d`
  have hid : ∀ σ ∈ begun s.log, σ.offer.datasetId = d := by
    intro σ hσ
    have hm := List.mem_map_of_mem (f := (·.offer)) hσ
    rw [hb, List.mem_pair, or_self] at hm
    rw [hm]
    rfl
  have hlen : (begun s.log).length = 2 := by
    have hl := congrArg List.length hb
    rwa [List.length_map] at hl
  obtain ⟨σ, hσ⟩ := List.exists_mem_of_length_pos (hlen ▸ Nat.two_pos)
  have hiff := hs.policyJsonld_iff ox (fun σ hσ => hos _ (List.mem_map_of_mem hσ)) hn hp
    (List.mem_append_right _ hσ)
  rw [hid σ hσ] at hiff
  refine fun hdoc => absurd (hiff.mp hdoc) ?_
  rw [SeededOnce, List.filter_eq_self.mpr fun σ hσ => decide_eq_true (hid σ hσ), hlen]
  decide

/-! ## The result -/

/-- Once a START of a dataset has succeeded, its policy is that of the default offer if and only if
no more than one START seeded the dataset. That is so in a run in which no dataset is seeded that
the check would find. -/
theorem policy_of_started_iff (ox : Engine) (uuid : ℕ → String) (pe : PolicyEngine)
    (h : FileOfferHandler) (hp : h.defaultOffer.permissions ≠ []) {os : List FileOffer}
    {g : ConfigGraph} (hg : SeedRun ox os g) (hos : ∀ o ∈ os, o = h.offerFor o.datasetId)
    (hn : (os.map (·.datasetId)).Nodup) (acts : List Act) :
    let s := System.after ox uuid pe h .call g acts
    (∀ (i : ℕ) (flow : DataFlow) (message : DataFlowStatusMessage),
      s.threads[i]? = some (.start flow (.done (.ok message))) → accepts flow.datasetId = true →
        (policyJsonld ox s.state.graph.store flow.datasetId =
            .ok (h.offerFor flow.datasetId).document ↔
          SeededOnce s.log flow.datasetId)) ∧
    (Machine.Along (System.next ox uuid pe h .call) (SeedsUnknown ox) (.start g) acts →
      ∀ d, SeededOnce s.log d) := by
  obtain ⟨ss, hl, rfl⟩ := hg.exists_ledger
  rw [List.map_map] at hn
  have hos' : ∀ σ ∈ ss, σ.offer = h.offerFor σ.offer.datasetId :=
    fun σ hσ => hos _ (List.mem_map_of_mem hσ)
  refine ⟨fun i flow message hi ha => ?_, fun hr => ?_⟩
  · have hs : Called h ss (System.after ox uuid pe h .call g acts) := called_after hl acts
    -- the START has found the dataset or seeded it
    have hk : Known (ss ++ begun (System.after ox uuid pe h .call g acts).log) flow.datasetId :=
      hs.threads i _ hi
    obtain ⟨σ, hσ, hd⟩ := hk (gt_not_mem_of_accepts ha)
    rw [spelled_of_accepts ha] at hd
    rw [Option.some.inj hd]
    exact hs.policyJsonld_iff ox hos' hn hp hσ
  · have hs : Called h ss (.start g) ∧ ∀ d, SeededOnce (System.start g).log d :=
      ⟨called_start hl, fun _ => Nat.zero_le 1⟩
    exact (Machine.invariant_of_along (P := fun s => Called h ss s ∧ ∀ d, SeededOnce s.log d)
      (fun s a ha hs => ⟨hs.1.next a, hs.1.seededOnce_next hs.2 ha⟩) hs hr).2

/-- A START that seeds its dataset, and then one that finds it. -/
def successiveActs (flow flow' : DataFlow) (env : Env) : List Act :=
  [.spawn (.start flow), .step 0 env, .step 0 env, .step 0 env, .spawn (.start flow'), .step 1 env,
    .step 1 env]

theorem after_successiveActs (ox : Engine) (uuid : ℕ → String) (pe : PolicyEngine)
    (h : FileOfferHandler) (ht : h.tckMode = true) {os : List FileOffer} {g : ConfigGraph}
    (hg : SeedRun ox os g) (f f' : String) {d : String} (ha : accepts d = true)
    (hd : ∀ o ∈ os, o.datasetId ≠ d) (env : Env) :
    (System.after ox uuid pe h .call g (successiveActs ⟨f, d⟩ ⟨f', d⟩ env)).threads =
      [.start ⟨f, d⟩ (.done (.ok (h.startedMessage ⟨f, d⟩ (uuid 0)))),
        .start ⟨f', d⟩ (.done (.ok (h.startedMessage ⟨f', d⟩ (uuid 1))))] ∧
    Machine.Along (System.next ox uuid pe h .call) (SeedsUnknown ox) (.start g)
      (successiveActs ⟨f, d⟩ ⟨f', d⟩ env) := by
  obtain ⟨ss, hl, rfl⟩ := hg.exists_ledger
  have hnot : ∀ τ ∈ ss, τ.offer.datasetId ≠ d := fun τ hτ => hd _ (List.mem_map_of_mem hτ)
  have hunknown := hl.filePath_eq_error ha hnot ox
  have hseed (s : ServiceState) (f : String) := stepSeed_call ox h s ⟨f, d⟩ ha
  -- the second check reads what the first START has seeded
  have hknown : filePath ox (g.store.insertAll (h.seeding ⟨f, d⟩ g.fresh).quads) d =
      .ok (.ofString (h.offerFor d).filePath.toStringLossy) :=
    (hl.reads_insertAll (show accepts (h.offerFor d).datasetId = true from ha) hnot ox).2
  constructor
  · unfold System.after successiveActs System.start
    simp only [Machine.run_cons, Machine.run_nil, System.next, Request.thread, List.nil_append,
      List.cons_append, List.getElem?_cons_zero, List.getElem?_cons_succ, List.set_cons_zero,
      List.set_cons_succ, stepThread, stepStart, hunknown, ht, if_true, hseed, hknown]
    rfl
  · simp [successiveActs, Machine.Along, SeedsUnknown, System.next, System.start, Request.thread,
      stepThread, stepStart, hunknown, ht, hseed, hknown]

/-- A dataset that was seeded by the first of two STARTs has the policy of the default offer. -/
theorem policy_of_started_iff_sample :
    let s := System.after plainEngine Nat.repr permissionEngine sampleHandler .call sampleGraph
      (successiveActs ⟨"first", "other"⟩ ⟨"second", "other"⟩ sampleEnv)
    (∃ message, s.threads[1]? = some (.start ⟨"second", "other"⟩ (.done (.ok message)))) ∧
      SeededOnce s.log "other" ∧
      policyJsonld plainEngine s.state.graph.store "other" =
        .ok (sampleHandler.offerFor "other").document := by
  obtain ⟨ht, hu⟩ := after_successiveActs plainEngine Nat.repr permissionEngine sampleHandler rfl
    seedRun_sampleGraph "first" "second" accepts_other (by simp [sampleOffer]) sampleEnv
  obtain ⟨hiff, honce⟩ := policy_of_started_iff plainEngine Nat.repr permissionEngine sampleHandler
    (by decide) seedRun_sampleGraph (fun o ho => by rw [List.mem_singleton.mp ho]; rfl)
    (List.nodup_singleton _) (successiveActs ⟨"first", "other"⟩ ⟨"second", "other"⟩ sampleEnv)
  have hsecond := congrArg (·[1]?) ht
  exact ⟨⟨_, hsecond⟩, honce hu "other",
    (hiff 1 _ _ hsecond accepts_other).mpr (honce hu "other")⟩

/-- Two STARTs of one dataset have succeeded, and its policy is not that of the default offer. -/
theorem not_policy_of_started :
    let s := System.after plainEngine Nat.repr permissionEngine sampleHandler .call sampleGraph
      (racingActs ⟨"first", "other"⟩ ⟨"second", "other"⟩ sampleEnv)
    (∃ message, s.threads[0]? = some (.start ⟨"first", "other"⟩ (.done (.ok message)))) ∧
      (∃ message, s.threads[1]? = some (.start ⟨"second", "other"⟩ (.done (.ok message)))) ∧
      policyJsonld plainEngine s.state.graph.store "other" ≠
        .ok (sampleHandler.offerFor "other").document := by
  have ht := (after_racingActs plainEngine Nat.repr permissionEngine sampleHandler rfl
    seedRun_sampleGraph "first" "second" accepts_other (by simp [sampleOffer]) sampleEnv).1
  dsimp only
  refine ⟨⟨_, by rw [ht]; rfl⟩, ⟨_, by rw [ht]; rfl⟩, ?_⟩
  exact policyJsonld_after_racingActs plainEngine Nat.repr permissionEngine sampleHandler rfl
    (by decide) seedRun_sampleGraph (fun o ho => by rw [List.mem_singleton.mp ho]; rfl)
    (List.nodup_singleton _) "first" "second" accepts_other (by simp [sampleOffer]) sampleEnv

end DsSqlDps
