import DsSqlDps.Dataplane.Seedings
import DsSqlDps.Dataplane.Gate

/-!
# Half-seeded offers

A GET reads a policy with two queries while other requests insert. It reads the whole policy if the
seedings of its dataset are finished when it reads the rows. Otherwise it may read a permission
before the constraints of it are there.
-/

namespace DsSqlDps
open Rdf Sparql

/-! ## Whole policies -/

/-- The rows of a policy are read only when every seeding of its dataset that was begun is
finished. -/
def ReadsFinished (s : System) : Act → Prop
  | .step i _ => ∀ d t header, s.threads[i]? = some (.get d t (.rows header)) →
      ∀ σ ∈ begun s.log, σ.offer.datasetId = d → .finished σ ∈ s.log
  | .spawn _ => True

/-- The dataset was seeded by one START at most. -/
def SeededOnce (log : List Event) (d : String) : Prop :=
  ((begun log).filter fun σ => σ.offer.datasetId = d).length ≤ 1

/-- What is known of a GET of a dataset that was not there at the start. -/
def Whole (h : FileOfferHandler) (ss : List Seeding) (log : List Event) : Thread → Prop
  | .get d _ (.rows (target, assigner)) => accepts d = true →
      (∀ σ ∈ ss, σ.offer.datasetId ≠ d) → ∃ σ ∈ begun log, σ.offer.datasetId = d ∧
        target = datasetIri d ∧ assigner = σ.offer.assigner
  | .get d _ (.judge doc) => accepts d = true → (∀ σ ∈ ss, σ.offer.datasetId ≠ d) →
      SeededOnce log d → doc = (h.offerFor d).document
  | _ => True

section
variable {h : FileOfferHandler} {ss : List Seeding} {log : List Event} {thread : Thread}

theorem SeededOnce.of_append {d : String} {events : List Event}
    (ho : SeededOnce (log ++ events) d) : SeededOnce log d := by
  unfold SeededOnce at ho ⊢
  rw [begun_append, List.filter_append, List.length_append] at ho
  exact (Nat.le_add_right _ _).trans ho

theorem SeededOnce.filter_eq {d : String} (ho : SeededOnce log d) {σ : Seeding}
    (hσ : σ ∈ begun log) (hd : σ.offer.datasetId = d) :
    ((begun log).filter fun σ => σ.offer.datasetId = d) = [σ] := by
  have hm : σ ∈ (begun log).filter fun σ => σ.offer.datasetId = d :=
    List.mem_filter.mpr ⟨hσ, decide_eq_true hd⟩
  obtain ⟨τ, hτ⟩ := List.length_eq_one_iff.mp (le_antisymm ho (List.length_pos_of_mem hm))
  rw [hτ] at hm ⊢
  rw [List.mem_singleton.mp hm]

theorem Whole.append (hw : Whole h ss log thread) (events : List Event) :
    Whole h ss (log ++ events) thread := by
  cases thread with
  | get d t stage =>
    cases stage with
    | rows header =>
      intro ha hd
      obtain ⟨σ, hσ, hs⟩ := hw ha hd
      refine ⟨σ, ?_, hs⟩
      rw [begun_append]
      exact List.mem_append_left _ hσ
    | judge doc => exact fun ha hd ho => hw ha hd ho.of_append
    | lookup | header | path | media | answered => trivial
  | start | terminate => trivial

/-- Once the seedings of a dataset are finished, the rows read are those of the whole offer. -/
theorem Seeded.document_of_rows {ox : Engine} {g : ConfigGraph} (hs : Seeded h ss g log)
    {σ : Seeding} (hσ : σ ∈ begun log)
    (hf : ∀ τ ∈ begun log, τ.offer.datasetId = σ.offer.datasetId → .finished τ ∈ log)
    (ho : SeededOnce log σ.offer.datasetId) {rows : List Solution}
    (hr : policyRows ox g.store σ.offer.datasetId = .ok rows) :
    policyObject (policyIri σ.offer.datasetId) (datasetIri σ.offer.datasetId) σ.offer.assigner
      (permissionEntries rows) = (h.offerFor σ.offer.datasetId).document := by
  have hm : σ ∈ ss ++ begun log := List.mem_append_right _ hσ
  have ha := hs.accepts σ hm
  have hnot : ∀ τ ∈ ss, τ.offer.datasetId ≠ σ.offer.datasetId :=
    fun τ hτ => hs.disjoint τ hτ σ hσ
  obtain ⟨l, hl, hr'⟩ := hs.ledger.policyRows_sorted ox (gt_not_mem_of_accepts ha)
    (spelled_of_accepts ha) ha
  rw [Ledger.shownNodes_eq fun τ hτ hd => ?_] at hl
  · have hfilter : (ss ++ begun log).filter (fun τ => τ.offer.datasetId = σ.offer.datasetId) =
        [σ] := by
      rw [List.filter_append, ho.filter_eq hσ rfl,
        List.filter_eq_nil_iff.mpr fun τ hτ => by simpa using hnot τ hτ, List.nil_append]
    rw [nodesOf_of_filter hfilter] at hl
    rw [hr] at hr'
    rw [Except.ok.inj hr', σ.entries_eq hl, ← hs.offer σ hσ]
    rfl
  · rcases List.mem_append.mp hτ with hτ | hτ
    · exact absurd hd (hnot τ hτ)
    · exact hs.finished τ (hf τ hτ hd)

theorem whole_stepGet {ox : Engine} {pe : PolicyEngine} {host : Host} {i : ℕ} {s : ServiceState}
    {d t : String} {stage : GetStage} (hs : Seeded h ss s.graph log)
    (hw : Whole h ss log (.get d t stage))
    (hf : ∀ header, stage = .rows header → ∀ σ ∈ begun log, σ.offer.datasetId = d →
      .finished σ ∈ log) :
    Whole h ss (log ++ (stepGet ox pe host i s d t stage).2)
      (.get d t (stepGet ox pe host i s d t stage).1) := by
  cases stage with
  | lookup =>
    rw [stepGet]
    cases s.tokens.lookup t with
    | none => trivial
    | some record => dsimp only; split_ifs <;> trivial
  | header =>
    rw [stepGet]
    cases hh : policyHeader ox s.graph.store d with
    | error e => trivial
    | ok header =>
      -- no offer of the start has the id, so the header is that of a seeding of the run
      intro ha hd
      rcases hs.ledger.policyHeader_cases ox (gt_not_mem_of_accepts ha) (spelled_of_accepts ha) ha
        with ⟨hn, -⟩ | ⟨σ, hσ, hσd, hok⟩
      · rw [hn] at hh
        cases hh
      · rw [hok] at hh
        obtain rfl := Except.ok.inj hh
        rw [List.append_nil]
        rcases List.mem_append.mp hσ with hσ | hσ
        · exact absurd hσd (hd σ hσ)
        · exact ⟨σ, hσ, hσd, rfl, rfl⟩
  | rows header =>
    obtain ⟨target, assigner⟩ := header
    rw [stepGet]
    cases hr : policyRows ox s.graph.store d with
    | error e => trivial
    | ok rows =>
      -- the rows are read after the seeding was finished, so all of them are there
      intro ha hd ho
      obtain ⟨σ, hσ, rfl, rfl, rfl⟩ := hw ha hd
      exact hs.document_of_rows hσ (hf _ rfl) ho.of_append hr
  | judge doc =>
    rw [stepGet]
    cases refusal pe host.now d doc <;> trivial
  | path =>
    rw [stepGet]
    cases filePath ox s.graph.store d <;> trivial
  | media | answered => trivial

theorem whole_stepThread {ox : Engine} {uuid : ℕ → String} {pe : PolicyEngine} {grain : Grain}
    {i : ℕ} {env : Env} {s : ServiceState} (hs : Seeded h ss s.graph log)
    (hw : Whole h ss log thread)
    (hf : ∀ d t header, thread = .get d t (.rows header) → ∀ σ ∈ begun log,
      σ.offer.datasetId = d → .finished σ ∈ log)
    {result : Thread × ServiceState × List Event}
    (hr : stepThread ox uuid pe h grain i env s thread = result) :
    Whole h ss (log ++ result.2.2) result.1 := by
  subst hr
  cases thread with
  | start flow stage => trivial
  | terminate flow done => cases done <;> trivial
  | get d t stage => exact whole_stepGet hs hw fun header he => hf d t header (by rw [he])

end

/-- A system in which every policy that was read is whole. -/
structure Enforced (h : FileOfferHandler) (ss : List Seeding) (s : System) : Prop
    extends Underway h ss s where
  whole : ∀ (i : ℕ) (thread : Thread), s.threads[i]? = some thread → Whole h ss s.log thread

section
variable {ox : Engine} {uuid : ℕ → String} {pe : PolicyEngine} {h : FileOfferHandler}
  {grain : Grain} {ss : List Seeding} {s : System}

theorem Enforced.next (hs : Enforced h ss s) {a : Act} (ha : ReadsFinished s a) :
    Enforced h ss (s.next ox uuid pe h grain a) where
  toUnderway := hs.toUnderway.next a
  whole := by
    refine forall_threads_next (P := fun _ log _ thread => Whole h ss log thread) hs.whole ?_ ?_
    · intro i request
      cases request <;> trivial
    · rintro i env thread result rfl hi hr
      refine ⟨whole_stepThread hs.graph (hs.whole i thread hi) ?_ hr, fun _ _ _ hw => hw.append _⟩
      rintro d t header rfl
      exact ha d t header hi

end

/-! ## Policies read in the middle of a seeding -/

/-- The permissions stop within one of those of the other list, or after one that is not the
last. -/
def Truncates (short full : List PermissionSpec) : Prop :=
  ∃ ps action cs ds qs, short = ps ++ [⟨action, cs⟩] ∧ full = ps ++ ⟨action, cs ++ ds⟩ :: qs ∧
    (ds ≠ [] ∨ qs ≠ [])

/-- The quads of an offer begin with those of the offer with fewer permissions. -/
theorem Truncates.quads (offer : FileOffer) {short : List PermissionSpec}
    (ht : Truncates short offer.permissions) (base : ℕ) :
    ∃ rest, rest ≠ [] ∧ (Seeding.mk offer base).quads =
      (Seeding.mk { offer with permissions := short } base).quads ++ rest := by
  obtain ⟨ps, action, cs, ds, qs, rfl, hp, hne⟩ := ht
  let id := base + (ps.map PermissionSpec.blanks).sum
  refine ⟨(constraintNodes (0 + cs.length) (id + 1 + cs.length) ds).flatMap (·.quads (.blank id)) ++
    (permissionNodes (0 + ps.length + 1) (id + PermissionSpec.blanks ⟨action, cs ++ ds⟩) qs).flatMap
      (·.quads (.iri (policyIri offer.datasetId))), ?_, ?_⟩
  · intro hn
    obtain ⟨hc, hq⟩ := List.append_eq_nil_iff.mp hn
    cases ds with
    | cons d ds => exact absurd hc (by simp [constraintNodes, ConstraintNode.quads])
    | nil =>
      cases qs with
      | cons q qs =>
        exact absurd hq (by simp [permissionNodes, PermissionNode.quads, PermissionNode.heads])
      | nil => exact hne.elim (fun h => h rfl) fun h => h rfl
  · simp only [Seeding.quads, Seeding.nodes, hp, permissionNodes_append, permissionNodes,
      List.flatMap_append, List.flatMap_cons, List.flatMap_nil, PermissionNode.quads,
      constraintNodes_append, List.append_assoc, List.append_nil]
    rfl

section
variable {ox : Engine} {uuid : ℕ → String} {pe : PolicyEngine} {h : FileOfferHandler}
  {flow : DataFlow} {env : Env}

theorem next_insertion (hn : env.insertError = none) {rest : List Quad} (hr : rest ≠ [])
    (g : ConfigGraph) (tokens : TokenStore) (log : List Event) (base : ℕ) (q : Quad) :
    System.next ox uuid pe h .insert
        ⟨⟨g, tokens⟩, [.start flow (.insert base (q :: rest))], log⟩ (.step 0 env) =
      ⟨⟨⟨g.store.insert q, g.fresh⟩, tokens⟩, [.start flow (.insert base rest)], log⟩ := by
  rcases inserting_cases ⟨h.offerFor flow.datasetId, base⟩ rest with ⟨hi, -⟩ | ⟨-, hi⟩
  · exact absurd hi hr
  · simp only [System.next, List.getElem?_cons_zero, stepThread, stepStart, stepInsert, hn, hi,
      List.set_cons_zero, List.append_nil]

/-- The insertions of a START that is alone, short of the last one. -/
theorem run_insertions (hn : env.insertError = none) {rest : List Quad} (hr : rest ≠ [])
    (tokens : TokenStore) (log : List Event) (base : ℕ) (inserted : List Quad) (g : ConfigGraph) :
    Machine.run (System.next ox uuid pe h .insert)
        ⟨⟨g, tokens⟩, [.start flow (.insert base (inserted ++ rest))], log⟩
        (List.replicate inserted.length (.step 0 env)) =
      ⟨⟨⟨g.store.insertAll inserted, g.fresh⟩, tokens⟩, [.start flow (.insert base rest)],
        log⟩ := by
  induction inserted generalizing g with
  | nil =>
    rw [Store.insertAll_nil]
    rfl
  | cons q inserted ih =>
    have hne : inserted ++ rest ≠ [] := fun he => hr (List.append_eq_nil_iff.mp he).2
    rw [List.length_cons, List.replicate_succ, Machine.run_cons, List.cons_append,
      next_insertion hn hne, ih, Store.insertAll_cons]

/-- A START up to its `n`-th insertion. -/
def seedingActs (flow : DataFlow) (env : Env) (n : ℕ) : List Act :=
  [.spawn (.start flow), .step 0 env, .step 0 env] ++ List.replicate n (.step 0 env)

/-- A START that seeds an unknown dataset and stops before its last insertion. -/
theorem after_seedingActs (ht : h.tckMode = true) (ha : accepts flow.datasetId = true)
    {g : ConfigGraph} {e : ConfigGraphError} (hf : filePath ox g.store flow.datasetId = .error e)
    (hn : env.insertError = none) {inserted rest : List Quad}
    (hq : (h.seeding flow g.fresh).quads = inserted ++ rest) (hr : rest ≠ []) :
    System.after ox uuid pe h .insert g (seedingActs flow env inserted.length) =
      ⟨⟨⟨g.store.insertAll inserted, g.fresh + (h.offerFor flow.datasetId).blanks⟩, .empty⟩,
        [.start flow (.insert g.fresh rest)], [.begun (h.seeding flow g.fresh)]⟩ := by
  rw [System.after, seedingActs, Machine.run_append, System.start]
  simp only [Machine.run_cons, Machine.run_nil, System.next, Request.thread, List.nil_append,
    List.getElem?_cons_zero, stepThread, stepStart, hf, ht, if_true, List.set_cons_zero,
    stepSeed_insert ox h _ flow ha, hq]
  rw [run_insertions hn hr]

/-- A second START of the dataset, and a GET up to the evaluation of its policy. -/
def readingActs (flow : DataFlow) (token : String) (env : Env) : List Act :=
  [.spawn (.start flow), .step 1 env, .step 1 env, .spawn (.get flow.datasetId token),
    .step 2 env, .step 2 env, .step 2 env]

theorem run_readingActs {g : ConfigGraph} {path : PathBuf} {doc : Json.Value}
    (hf : filePath ox g.store flow.datasetId = .ok path)
    (hp : policyJsonld ox g.store flow.datasetId = .ok doc) (thread : Thread) (log : List Event) :
    Machine.run (System.next ox uuid pe h .insert) ⟨⟨g, .empty⟩, [thread], log⟩
        (readingActs flow (uuid 0) env) =
      ⟨⟨g, (TokenStore.empty.issue uuid flow.id flow.datasetId).2⟩,
        [thread, .start flow (.done (.ok (h.startedMessage flow (uuid 0)))),
          .get flow.datasetId (uuid 0) (.judge doc)],
        log ++ [.issued (uuid 0) ⟨flow.id, flow.datasetId⟩,
          .lookedUp 2 flow.datasetId (uuid 0), .policyRead 2 flow.datasetId doc]⟩ := by
  obtain ⟨target, assigner, rows, hh, hr, rfl⟩ := policyJsonld_eq_ok ox hp
  have hl : (TokenStore.empty.issue uuid flow.id flow.datasetId).2.lookup (uuid 0) =
      some ⟨flow.id, flow.datasetId⟩ := by
    rw [TokenStore.lookup_issue]
    exact if_pos rfl
  have hd : uuid TokenStore.empty.drawn = uuid 0 := rfl
  unfold readingActs
  simp [System.next, Request.thread, stepThread, stepStart, stepGet, hf, hh, hr, hl, hd]

variable (ox uuid pe) in
/-- A START that seeds an unknown dataset, up to its last insertion. -/
theorem after_seedingActs_all (ht : h.tckMode = true) (ha : accepts flow.datasetId = true)
    {g : ConfigGraph} {e : ConfigGraphError} (hf : filePath ox g.store flow.datasetId = .error e)
    (hn : env.insertError = none) :
    System.after ox uuid pe h .insert g
        (seedingActs flow env (h.seeding flow g.fresh).quads.length) =
      ⟨⟨⟨g.store.insertAll (h.seeding flow g.fresh).quads,
          g.fresh + (h.offerFor flow.datasetId).blanks⟩, .empty⟩,
        [.start flow .issue],
        [.begun (h.seeding flow g.fresh), .finished (h.seeding flow g.fresh)]⟩ := by
  generalize hσ : h.seeding flow g.fresh = σ
  -- the last insertion apart from the others, since it ends the stage
  obtain ⟨inserted, q, hq⟩ := (List.eq_nil_or_concat' σ.quads).resolve_left σ.quads_ne_nil
  have hnext : System.next ox uuid pe h .insert
      ⟨⟨⟨g.store.insertAll inserted, g.fresh + (h.offerFor flow.datasetId).blanks⟩, .empty⟩,
        [.start flow (.insert g.fresh [q])], [.begun σ]⟩ (.step 0 env) =
      ⟨⟨⟨g.store.insertAll (inserted ++ [q]),
          g.fresh + (h.offerFor flow.datasetId).blanks⟩, .empty⟩,
        [.start flow .issue], [.begun σ, .finished σ]⟩ := by
    rw [Store.insertAll_append, Store.insertAll_singleton, ← hσ]
    simp [System.next, stepThread, stepStart, stepInsert, inserting, hn, FileOfferHandler.seeding]
  have hacts : seedingActs flow env (inserted ++ [q]).length =
      seedingActs flow env inserted.length ++ [.step 0 env] := by
    rw [seedingActs, List.length_append, List.length_singleton, List.replicate_succ',
      ← List.append_assoc, seedingActs]
  rw [← hσ] at hq
  rw [← hσ, hq, hacts, System.after_append, after_seedingActs ht ha hf hn hq (by simp), hσ]
  exact hnext

/-- No GET reads while a START is alone. -/
theorem along_seedingActs (g : ConfigGraph) (n : ℕ) :
    Machine.Along (System.next ox uuid pe h .insert) ReadsFinished (.start g)
      (seedingActs flow env n) := by
  refine ⟨trivial, Machine.along_of_invariant
    (P := fun s => ∃ stage, s.threads = [.start flow stage]) ?_ ⟨.check, rfl⟩⟩
  rintro s a ha ⟨stage, hs⟩
  -- the START is the only thread, and takes every step
  obtain rfl : a = .step 0 env := by
    rcases List.mem_append.mp ha with ha | ha
    · simpa using ha
    · exact List.eq_of_mem_replicate ha
  refine ⟨fun d t header hi => ?_, ?_⟩
  · rw [hs] at hi
    cases hi
  · refine ⟨(stepStart ox uuid h .insert env s.state flow stage).1, ?_⟩
    simp only [System.next, hs, List.getElem?_cons_zero, stepThread, List.set_cons_zero]

theorem along_readingActs {g : ConfigGraph} {path : PathBuf} {doc : Json.Value}
    (hf : filePath ox g.store flow.datasetId = .ok path)
    (hp : policyJsonld ox g.store flow.datasetId = .ok doc) (thread : Thread) (log : List Event)
    (hfin : ∀ σ ∈ begun log, .finished σ ∈ log) :
    Machine.Along (System.next ox uuid pe h .insert) ReadsFinished ⟨⟨g, .empty⟩, [thread], log⟩
      (readingActs flow (uuid 0) env) := by
  obtain ⟨target, assigner, rows, hh, hr, rfl⟩ := policyJsonld_eq_ok ox hp
  have hl : (TokenStore.empty.issue uuid flow.id flow.datasetId).2.lookup (uuid 0) =
      some ⟨flow.id, flow.datasetId⟩ := by
    rw [TokenStore.lookup_issue]
    exact if_pos rfl
  have hb : begun [.issued (uuid TokenStore.empty.drawn) ⟨flow.id, flow.datasetId⟩,
      .lookedUp 2 flow.datasetId (uuid 0)] = [] := rfl
  unfold readingActs
  simpa [Machine.Along, ReadsFinished, System.next, Request.thread, stepThread, stepStart, stepGet,
    hf, hh, hl, hb] using fun σ hσ _ => hfin σ hσ

/-- A GET that comes once the seeding is finished is decided on the whole offer. -/
theorem whole_read (ox : Engine) (uuid : ℕ → String) (pe : PolicyEngine) (h : FileOfferHandler)
    (ht : h.tckMode = true) {os : List FileOffer} {g : ConfigGraph} (hg : SeedRun ox os g)
    (flow flow' : DataFlow) (ha : accepts flow.datasetId = true)
    (hd : ∀ o ∈ os, o.datasetId ≠ flow.datasetId) (hf : flow'.datasetId = flow.datasetId)
    (env : Env) (hn : env.insertError = none) :
    let acts := seedingActs flow env (h.seeding flow g.fresh).quads.length ++
      readingActs flow' (uuid 0) env
    let s := System.after ox uuid pe h .insert g acts
    Machine.Along (System.next ox uuid pe h .insert) ReadsFinished (.start g) acts ∧
      begun s.log = [h.seeding flow g.fresh] ∧
      s.threads[2]? = some (.get flow.datasetId (uuid 0)
        (.judge (h.offerFor flow.datasetId).document)) := by
  obtain ⟨ss, hl, rfl⟩ := hg.exists_ledger
  have hnot : ∀ τ ∈ ss, τ.offer.datasetId ≠ (h.offerFor flow.datasetId).datasetId :=
    fun τ hτ => hd _ (List.mem_map_of_mem hτ)
  have hseed := after_seedingActs_all ox uuid pe ht ha (hl.filePath_eq_error ha hnot ox) hn
  have hreads := hl.reads_insertAll
    (show accepts (h.offerFor flow.datasetId).datasetId = true from ha) hnot ox
  have hp : policyJsonld ox (g.store.insertAll (h.seeding flow g.fresh).quads) flow'.datasetId =
      .ok (h.offerFor flow.datasetId).document := by
    rw [hf]
    exact hreads.1
  have hpath : filePath ox (g.store.insertAll (h.seeding flow g.fresh).quads) flow'.datasetId =
      .ok (.ofString (h.offerFor flow.datasetId).filePath.toStringLossy) := by
    rw [hf]
    exact hreads.2
  generalize h.seeding flow g.fresh = σ at hseed hp hpath ⊢
  dsimp only
  rw [System.after_append, hseed, run_readingActs hpath hp, hf]
  refine ⟨Machine.along_append.mpr ⟨along_seedingActs _ _, ?_⟩, begun_append _ _, rfl⟩
  rw [← System.after, hseed]
  exact along_readingActs hpath hp _ _ (by simp [begun, Event.begun?])

/-- Any part of the default offer may be what a GET is decided on. -/
theorem truncated_read (ox : Engine) (uuid : ℕ → String) (pe : PolicyEngine)
    (h : FileOfferHandler) (ht : h.tckMode = true) {os : List FileOffer} {g : ConfigGraph}
    (hg : SeedRun ox os g) (flow flow' : DataFlow) (ha : accepts flow.datasetId = true)
    (hd : ∀ o ∈ os, o.datasetId ≠ flow.datasetId) (hf : flow'.datasetId = flow.datasetId)
    (env : Env) (hn : env.insertError = none) {short : List PermissionSpec}
    (hs : Truncates short h.defaultOffer.permissions) :
    let acts := seedingActs flow env
        (Seeding.mk { h.offerFor flow.datasetId with permissions := short } g.fresh).quads.length ++
      readingActs flow' (uuid 0) env
    let s := System.after ox uuid pe h .insert g acts
    begun s.log = [h.seeding flow g.fresh] ∧
      s.threads[2]? = some (.get flow.datasetId (uuid 0)
        (.judge { h.offerFor flow.datasetId with permissions := short }.document)) := by
  obtain ⟨ss, hl, rfl⟩ := hg.exists_ledger
  have hnot : ∀ τ ∈ ss, τ.offer.datasetId ≠ flow.datasetId :=
    fun τ hτ => hd _ (List.mem_map_of_mem hτ)
  obtain ⟨rest, hr, hq⟩ := Truncates.quads (h.offerFor flow.datasetId) hs g.fresh
  have hunknown := hl.filePath_eq_error ha hnot ox
  generalize hw : ({ h.offerFor flow.datasetId with permissions := short } : FileOffer) = weak
    at hq ⊢
  have hwd : weak.datasetId = flow.datasetId := by rw [← hw]; rfl
  -- the quads inserted so far are those of the truncated offer
  have hreads := hl.reads_insertAll (show accepts weak.datasetId = true by rw [hwd]; exact ha)
    (fun τ hτ => by rw [hwd]; exact hnot τ hτ) ox
  dsimp only at hreads
  rw [hwd, ← hf] at hreads
  dsimp only
  rw [System.after_append, after_seedingActs ht ha hunknown hn hq hr,
    run_readingActs hreads.2 hreads.1, hf]
  exact ⟨begun_append _ _, rfl⟩

end

/-! ## The result -/

/-- If every seeding of a dataset that was begun is finished whenever a GET reads the rows of the
dataset, no policy of an auto-seeded dataset is ever judged that is not the whole default offer. -/
theorem judged_whole_of_readsFinished (ox : Engine) (uuid : ℕ → String) (pe : PolicyEngine)
    (h : FileOfferHandler) {os : List FileOffer} {g : ConfigGraph} (hg : SeedRun ox os g)
    {acts : List Act}
    (hr : Machine.Along (System.next ox uuid pe h .insert) ReadsFinished (.start g) acts)
    (ho : ∀ d, SeededOnce (System.after ox uuid pe h .insert g acts).log d) :
    ∀ (i : ℕ) (d t : String) (doc : Json.Value),
      (System.after ox uuid pe h .insert g acts).threads[i]? = some (.get d t (.judge doc)) →
      (∃ σ ∈ begun (System.after ox uuid pe h .insert g acts).log, σ.offer.datasetId = d) →
        doc = (h.offerFor d).document := by
  obtain ⟨ss, hl, -⟩ := hg.exists_ledger
  have hstart : Enforced h ss (.start g) :=
    ⟨underway_start hl, fun i thread hi => absurd hi (by simp [System.start])⟩
  have hs : Enforced h ss (System.after ox uuid pe h .insert g acts) :=
    Machine.invariant_of_along (fun _ _ ha hs => hs.next ha) hstart hr
  rintro i d t doc hi ⟨σ, hσ, rfl⟩
  exact hs.whole i _ hi (hs.graph.accepts σ (List.mem_append_right _ hσ))
    (fun τ hτ => hs.graph.disjoint τ hτ σ hσ) (ho _)

/-- A START of an unknown dataset that is done with its insertions, a second one, and a GET. -/
def wholeActs : List Act :=
  seedingActs ⟨"first", "other"⟩ sampleEnv 22 ++
    readingActs ⟨"second", "other"⟩ (Nat.repr 0) sampleEnv

theorem judged_whole_of_readsFinished_sample :
    ∃ doc, (System.after plainEngine Nat.repr permissionEngine sampleHandler .insert sampleGraph
        wholeActs).threads[2]? = some (.get "other" "0" (.judge doc)) ∧
      doc = (sampleHandler.offerFor "other").document := by
  have hw := whole_read plainEngine Nat.repr permissionEngine sampleHandler rfl seedRun_sampleGraph
    ⟨"first", "other"⟩ ⟨"second", "other"⟩ accepts_other (by simp [sampleOffer]) rfl sampleEnv rfl
  have hl : (sampleHandler.seeding ⟨"first", "other"⟩ sampleGraph.fresh).quads.length = 22 := by
    generalize sampleGraph.fresh = base
    rfl
  dsimp only at hw
  rw [hl] at hw
  obtain ⟨hfinished, hbegun, hread⟩ := hw
  refine ⟨_, hread, judged_whole_of_readsFinished plainEngine Nat.repr permissionEngine
    sampleHandler seedRun_sampleGraph hfinished (fun d => ?_) 2 "other" "0" _ hread
    ⟨sampleHandler.seeding ⟨"first", "other"⟩ sampleGraph.fresh, ?_, rfl⟩⟩
  · unfold SeededOnce
    rw [hbegun]
    exact List.length_filter_le _ _
  · rw [hbegun]
    exact List.mem_cons_self

/-- The same, but the first START gets no further than the first permission's own quads. -/
def halfActs : List Act :=
  seedingActs ⟨"first", "other"⟩ sampleEnv 13 ++
    readingActs ⟨"second", "other"⟩ (Nat.repr 0) sampleEnv

/-- The GET is decided on a permission without the constraint that the default offer puts on it. -/
theorem not_judged_whole :
    let s := System.after plainEngine Nat.repr permissionEngine sampleHandler .insert sampleGraph
      halfActs
    (∀ d, SeededOnce s.log d) ∧ (∃ σ ∈ begun s.log, σ.offer.datasetId = "other") ∧
      ∃ doc, s.threads[2]? = some (.get "other" "0" (.judge doc)) ∧
        doc.field? "permission" = some (.arr [.obj [("action", .str "use")]]) ∧
        doc ≠ (sampleHandler.offerFor "other").document := by
  have hs : Truncates [⟨"use", []⟩] sampleHandler.defaultOffer.permissions :=
    ⟨[], "use", [], _, _, rfl, rfl, Or.inr (by simp)⟩
  have hr := truncated_read plainEngine Nat.repr permissionEngine sampleHandler rfl
    seedRun_sampleGraph ⟨"first", "other"⟩ ⟨"second", "other"⟩ accepts_other
    (by simp [sampleOffer]) rfl sampleEnv rfl hs
  have hl (base : ℕ) : (Seeding.mk { sampleHandler.offerFor "other" with
      permissions := [⟨"use", []⟩] } base).quads.length = 13 := rfl
  dsimp only at hr
  rw [hl] at hr
  refine ⟨fun d => ?_, ⟨sampleHandler.seeding ⟨"first", "other"⟩ sampleGraph.fresh, ?_, rfl⟩,
    _, hr.2, ?_, fun hd => ?_⟩
  · unfold SeededOnce halfActs
    rw [hr.1]
    exact List.length_filter_le _ _
  · unfold halfActs
    rw [hr.1]
    exact List.mem_cons_self
  · rfl
  · exact absurd (congrArg List.length (policyObject_entries hd)) (by decide)

end DsSqlDps
