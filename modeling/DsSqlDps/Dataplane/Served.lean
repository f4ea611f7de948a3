import DsSqlDps.Dataplane.Seedings
import DsSqlDps.Dataplane.Reference

/-!
# What is served

The quads of an offer are inserted in one order, its path and its media type before its assigner. So
a GET that has found the header of a policy finds the file, however far the seedings are and
whichever insertions fail.
-/

namespace DsSqlDps
open Rdf Sparql Vocab

/-! ## The order of the insertions -/

/-- The dataset has a path and a media type, and its policy a target. -/
def Filed (s : Store) (e : String) : Prop :=
  (∃ o, distributionQuad e (ds "filePath") o ∈ s) ∧
    (∃ o, distributionQuad e (dcat "mediaType") o ∈ s) ∧ ∃ o, policyQuad e (odrl "target") o ∈ s

/-- Every dataset whose policy has an assigner has all that is inserted before it. -/
def Filled (s : Store) : Prop := ∀ e a, policyQuad e (odrl "assigner") a ∈ s → Filed s e

theorem Filed.mono {s s' : Store} {e : String} (h : Filed s e) (hs : ∀ q ∈ s, q ∈ s') :
    Filed s' e := by
  obtain ⟨⟨p, hp⟩, ⟨m, hm⟩, t, ht⟩ := h
  exact ⟨⟨p, hs _ hp⟩, ⟨m, hs _ hm⟩, t, hs _ ht⟩

/-- A beginning of a seeding that has the assigner has what stands before it. -/
theorem Seeding.filed_of_prefix {σ : Seeding} {pre post : List Quad} (h : σ.quads = pre ++ post)
    {e : String} {a : Term} (ha : policyQuad e (odrl "assigner") a ∈ pre) :
    (∃ o, distributionQuad e (ds "filePath") o ∈ pre) ∧
      (∃ o, distributionQuad e (dcat "mediaType") o ∈ pre) ∧
      ∃ o, policyQuad e (odrl "target") o ∈ pre := by
  have hm : policyQuad e (odrl "assigner") a ∈ σ.quads := by
    rw [h]
    exact List.mem_append_left _ ha
  obtain ⟨he, rfl⟩ := mem_assigner.mp hm
  obtain rfl := policyIri_injective (Term.iri.inj he)
  -- the assigner is the ninth quad, and the others are among the first eight
  have hsplit : σ.offer.quads.take 8 ++
      (σ.offer.quads.drop 8 ++ σ.nodes.flatMap (·.quads σ.policy)) = pre ++ post := by
    rw [← List.append_assoc, List.take_append_drop, ← h]
    rfl
  have hn : policyQuad σ.offer.datasetId (odrl "assigner") (.simple σ.offer.assigner) ∉
      σ.offer.quads.take 8 := by
    simp [FileOffer.quads, policyQuad]
  exact ⟨⟨.simple σ.offer.filePath.toStringLossy, Lists.mem_of_first hsplit ha hn
      (by simp [FileOffer.quads, distributionQuad])⟩,
    ⟨.simple σ.offer.mediaType, Lists.mem_of_first hsplit ha hn
      (by simp [FileOffer.quads, distributionQuad])⟩,
    .iri (datasetIri σ.offer.datasetId), Lists.mem_of_first hsplit ha hn
      (by simp [FileOffer.quads, policyQuad])⟩

theorem Filled.insertAll {s : Store} (hs : Filled s) {σ : Seeding} {inserted qs rest : List Quad}
    (hq : σ.quads = inserted ++ qs ++ rest) (hi : ∀ q ∈ inserted, q ∈ s) :
    Filled (s.insertAll qs) := by
  have hsub : ∀ q ∈ inserted ++ qs, q ∈ s.insertAll qs := by
    intro q hm
    rw [Store.mem_insertAll]
    rcases List.mem_append.mp hm with hm | hm
    · exact Or.inl (hi q hm)
    · exact Or.inr hm
  intro e a ha
  rcases Store.mem_insertAll.mp ha with ha | ha
  · exact (hs e a ha).mono fun q hq => Store.mem_insertAll.mpr (Or.inl hq)
  · obtain ⟨⟨p, hp⟩, ⟨m, hm⟩, t, ht⟩ :=
      Seeding.filed_of_prefix hq (List.mem_append_right inserted ha)
    exact ⟨⟨p, hsub _ hp⟩, ⟨m, hsub _ hm⟩, t, hsub _ ht⟩

/-- A graph whose seedings are complete. -/
theorem FullLedger.filled {g : ConfigGraph} {ss : List Seeding} (h : FullLedger g ss) :
    Filled g.store := by
  intro e a ha
  obtain ⟨σ, hσ, rfl, -⟩ := h.toLedger.mem_assigner ha
  exact ⟨⟨_, (h.complete σ hσ).filePath⟩, ⟨_, (h.complete σ hσ).mediaType⟩, _,
    (h.complete σ hσ).target⟩

/-! ## What a step inserts -/

/-- A START of the dataset that is about to seed, or seeding. -/
def Thread.SeedsFor (d : String) : Thread → Prop
  | .start flow .seed | .start flow (.insert _ _) => flow.datasetId = d
  | _ => False

section
variable {ox : Engine} {uuid : ℕ → String} {pe : PolicyEngine} {h : FileOfferHandler}
  {grain : Grain} {ss : List Seeding} {log : List Event} {i : ℕ} {env : Env} {s : ServiceState}

/-- A step inserts nothing, or the quads of a seeding that come next. -/
theorem stepThread_store {thread : Thread} (hp : Placed h ss s.graph.store log thread)
    {result : Thread × ServiceState × List Event}
    (hr : stepThread ox uuid pe h grain i env s thread = result) :
    result.2.1.graph.store = s.graph.store ∨ ∃ (σ : Seeding) (inserted qs rest : List Quad),
      thread.SeedsFor σ.offer.datasetId ∧ σ.quads = inserted ++ qs ++ rest ∧
        (∀ q ∈ inserted, q ∈ s.graph.store) ∧
        result.2.1.graph.store = s.graph.store.insertAll qs := by
  subst hr
  cases thread with
  | start flow stage =>
    cases stage with
    | check =>
      rw [stepThread, stepStart]
      cases filePath ox s.graph.store flow.datasetId with
      | ok path => exact Or.inl rfl
      | error e => dsimp only; split_ifs <;> exact Or.inl rfl
    | seed =>
      rw [stepThread, stepStart]
      cases ha : accepts flow.datasetId with
      | false =>
        obtain ⟨e, he⟩ := stepSeed_of_not_accepts ox h grain s flow ha
        rw [he]
        exact Or.inl rfl
      | true =>
        cases grain with
        | insert =>
          rw [stepSeed_insert ox h s flow ha]
          exact Or.inl rfl
        | call =>
          rw [stepSeed_call ox h s flow ha]
          exact Or.inr ⟨h.seeding flow s.graph.fresh, [], _, [], rfl,
            (List.append_nil _).symm, fun q hq => absurd hq List.not_mem_nil, rfl⟩
    | insert base quads =>
      obtain ⟨-, inserted, hq, hi⟩ := hp
      cases quads with
      | nil => exact Or.inl rfl
      | cons q quads =>
        have hnext : (h.seeding flow base).quads = inserted ++ [q] ++ quads := by
          rw [hq, List.append_assoc, List.singleton_append]
        rw [stepThread, stepStart]
        rcases stepInsert_cases h env s flow base q quads with ⟨e, he⟩ | ⟨rfl, he⟩ | he
        · rw [he]
          exact Or.inl rfl
        · rw [he]
          exact Or.inr ⟨h.seeding flow base, inserted, [q], [], rfl, hnext, hi,
            (Store.insertAll_singleton _ _).symm⟩
        · rw [he]
          exact Or.inr ⟨h.seeding flow base, inserted, [q], quads, rfl, hnext, hi,
            (Store.insertAll_singleton _ _).symm⟩
    | issue => exact Or.inl rfl
    | done result => exact Or.inl rfl
  | terminate flow done => cases done <;> exact Or.inl rfl
  | get d t stage => exact Or.inl rfl

end

/-! ## What a GET finds -/

/-- The text spells a dataset id that has a path and a media type. -/
def FoundIn (d : String) (s : Store) : Prop :=
  ∃ e, spelled d = some e ∧ accepts e = true ∧ Filed s e

/-- What is known of a GET of a text that stays within its brackets. -/
def FoundGet (c : Config) (ss : List Seeding) (s : Store) (log : List Event) (d : String) :
    GetStage → Prop
  | .header => Known (ss ++ begun log) d
  | .rows _ | .judge _ | .path => FoundIn d s
  | .media path => FoundIn d s ∧ path = Reference.servedPath c
  | .lookup | .answered _ => True

def Found (c : Config) (ss : List Seeding) (s : Store) (log : List Event) : Thread → Prop
  | .get d _ stage => '>' ∉ d.toList → FoundGet c ss s log d stage
  | _ => True

/-- Every token is for a dataset that is known. -/
def Issued (ss : List Seeding) (log : List Event) (tokens : TokenStore) : Prop :=
  ∀ token record, tokens.lookup token = some record → Known (ss ++ begun log) record.datasetId

section
variable {ox : Engine} {uuid : ℕ → String} {pe : PolicyEngine} {c : Config} {port : UInt16}
  {grain : Grain} {ss : List Seeding} {log : List Event} {i : ℕ} {env : Env} {s : ServiceState}
  {thread : Thread}

theorem Found.mono {s s' : Store} (hf : Found c ss s log thread) (hs : ∀ q ∈ s, q ∈ s')
    (events : List Event) : Found c ss s' (log ++ events) thread := by
  have hfound {d : String} : FoundIn d s → FoundIn d s' :=
    fun ⟨e, he, ha, hfiled⟩ => ⟨e, he, ha, hfiled.mono hs⟩
  cases thread with
  | start | terminate => trivial
  | get d t stage =>
    intro hd
    have hg := hf hd
    cases stage with
    | lookup => trivial
    | header => exact Known.append hg events
    | rows | judge | path => exact hfound hg
    | media path => exact ⟨hfound hg.1, hg.2⟩
    | answered response => exact hg

/-- The path that is found is that of the configuration. -/
theorem FoundIn.filePath_eq (ox : Engine) {d : String} (hf : FoundIn d s.graph.store)
    (hs : Seeded (c.handler port) ss s.graph log)
    (hos : ∀ σ ∈ ss, σ.offer = (c.handler port).offerFor σ.offer.datasetId)
    (hd : '>' ∉ d.toList) : filePath ox s.graph.store d = .ok (Reference.servedPath c) := by
  obtain ⟨e, hspell, ha, ⟨o, ho⟩, -⟩ := hf
  rcases hs.ledger.filePath_cases ox hd hspell ha with ⟨-, hn⟩ | ⟨σ, hσ, -, hok⟩
  · exact absurd ho (hn o)
  · rw [hs.offers hos σ hσ] at hok
    exact hok

theorem FoundIn.mediaType_eq (ox : Engine) {d : String} (hf : FoundIn d s.graph.store)
    (hs : Seeded (c.handler port) ss s.graph log)
    (hos : ∀ σ ∈ ss, σ.offer = (c.handler port).offerFor σ.offer.datasetId)
    (hd : '>' ∉ d.toList) : mediaType ox s.graph.store d = .ok c.mediaType := by
  obtain ⟨e, hspell, ha, -, ⟨o, ho⟩, -⟩ := hf
  rcases hs.ledger.mediaType_cases ox hd hspell ha with ⟨-, hn⟩ | ⟨σ, hσ, -, hok⟩
  · exact absurd ho (hn o)
  · rw [hs.offers hos σ hσ] at hok
    exact hok

/-- What a step of a GET finds. -/
theorem found_stepGet (hs : Seeded (c.handler port) ss s.graph log)
    (hos : ∀ σ ∈ ss, σ.offer = (c.handler port).offerFor σ.offer.datasetId)
    (hfill : Filled s.graph.store) (hiss : Issued ss log s.tokens) {host : Host} {d t : String}
    (hd : '>' ∉ d.toList) {stage : GetStage}
    (hf : FoundGet c ss s.graph.store log d stage) :
    FoundGet c ss s.graph.store (log ++ (stepGet ox pe host i s d t stage).2) d
      (stepGet ox pe host i s d t stage).1 := by
  cases stage with
  | lookup =>
    rw [stepGet]
    cases hl : s.tokens.lookup t with
    | none => trivial
    | some record =>
      dsimp only
      split_ifs with hne
      · trivial
      · rw [not_not] at hne
        have hk := (hiss t record hl).append [.lookedUp i d t]
        rw [hne] at hk
        exact hk
  | header =>
    rw [stepGet]
    obtain ⟨σ, hσ, hspell⟩ := hf hd
    have ha := hs.accepts σ hσ
    rcases DsSqlDps.policyHeader_cases ox s.graph.store hd hspell ha with
      ⟨hn, -⟩ | ⟨target, assigner, -, hassign, hok⟩
    · rw [hn]
      trivial
    · rw [hok]
      exact ⟨_, hspell, ha, hfill _ _ hassign⟩
  | rows header =>
    obtain ⟨e, hspell, ha, hfiled⟩ := hf
    obtain ⟨l, -, hr⟩ := hs.ledger.policyRows_sorted ox hd hspell ha
    rw [stepGet, hr]
    exact ⟨e, hspell, ha, hfiled⟩
  | judge doc =>
    rw [stepGet]
    cases hr : refusal pe host.now d doc with
    | some response => trivial
    | none => exact hf
  | path =>
    rw [stepGet, FoundIn.filePath_eq ox hf hs hos hd]
    exact ⟨hf, rfl⟩
  | media path => trivial
  | answered response => trivial

/-- A token is issued for a dataset that is known. -/
theorem issued_stepThread (hiss : Issued ss log s.tokens)
    (hp : Placed (c.handler port) ss s.graph.store log thread)
    {result : Thread × ServiceState × List Event}
    (hr : stepThread ox uuid pe (c.handler port) grain i env s thread = result) :
    Issued ss (log ++ result.2.2) result.2.1.tokens := by
  intro token record hl
  apply Known.append
  rcases stepThread_tokens thread hr with ⟨ht, -⟩ | ⟨flow, rfl, ht, -⟩ | ⟨flow, rfl, ht, -⟩
  · rw [ht] at hl
    exact hiss token record hl
  · rw [ht, TokenStore.lookup_issue] at hl
    split_ifs at hl with he
    · rw [← Option.some.inj hl]
      exact hp
    · exact hiss token record hl
  · rw [ht, TokenStore.lookup_revokeFlow] at hl
    exact hiss token record (Option.filter_eq_some_iff.mp hl).1

end

/-! ## The system -/

/-- A system that serves the file of the configuration. -/
structure Serves (c : Config) (port : UInt16) (ss : List Seeding) (s : System) : Prop
    extends Underway (c.handler port) ss s where
  filled : Filled s.state.graph.store
  issued : Issued ss s.log s.state.tokens
  found : ∀ (i : ℕ) (thread : Thread), s.threads[i]? = some thread →
    Found c ss s.state.graph.store s.log thread

section
variable {ox : Engine} {uuid : ℕ → String} {pe : PolicyEngine} {c : Config} {port : UInt16}
  {grain : Grain} {ss : List Seeding} {s : System}

theorem serves_start {g : ConfigGraph} (hg : FullLedger g ss) :
    Serves c port ss (.start g) where
  toUnderway := underway_start hg
  filled := hg.filled
  issued token record hl := absurd hl (by simp [System.start])
  found i thread hi := absurd hi (by simp [System.start])

/-- No step leaves an assigner without what is inserted before it. -/
theorem Underway.filled_next {h : FileOfferHandler} (hs : Underway h ss s)
    (hfill : Filled s.state.graph.store) (a : Act) :
    Filled (s.next ox uuid pe h grain a).state.graph.store := by
  rcases s.next_cases ox uuid pe h grain a with
    ⟨request, -, hn⟩ | ⟨i, env, -, ⟨-, hn⟩ | ⟨thread, result, hi, hr, hn⟩⟩
  · rw [hn]
    exact hfill
  · rw [hn]
    exact hfill
  · rw [hn]
    dsimp only
    rcases stepThread_store (hs.threads i thread hi) hr with
      he | ⟨σ, inserted, qs, rest, -, hq, hin, he⟩
    · rw [he]
      exact hfill
    · rw [he]
      exact hfill.insertAll hq hin

theorem Serves.next (hs : Serves c port ss s)
    (hos : ∀ σ ∈ ss, σ.offer = (c.handler port).offerFor σ.offer.datasetId) (a : Act) :
    Serves c port ss (s.next ox uuid pe (c.handler port) grain a) where
  toUnderway := hs.toUnderway.next a
  filled := hs.toUnderway.filled_next hs.filled a
  issued := by
    rcases s.next_cases ox uuid pe (c.handler port) grain a with
      ⟨request, -, hn⟩ | ⟨i, env, -, ⟨-, hn⟩ | ⟨thread, result, hi, hr, hn⟩⟩
    · rw [hn]
      exact hs.issued
    · rw [hn]
      exact hs.issued
    · rw [hn]
      exact issued_stepThread hs.issued (hs.threads i thread hi) hr
  found := by
    refine forall_threads_next
      (P := fun s log _ thread => Found c ss s.graph.store log thread) hs.found ?_ ?_
    · intro i request
      cases request with
      | start | terminate => trivial
      | get d t => exact fun _ => trivial
    · intro i env thread result _ hi hr
      obtain ⟨-, -, hm⟩ := hs.graph.stepThread (hs.threads i thread hi) hr
      refine ⟨?_, fun j other _ ho => ho.mono hm _⟩
      subst hr
      cases thread with
      | start flow stage => trivial
      | terminate flow done => cases done <;> trivial
      | get d t stage =>
        exact fun hd => found_stepGet hs.graph hos hs.filled hs.issued hd (hs.found i _ hi hd)

end

/-! ## A flow that is served -/

/-- A START of the configured dataset up to its last step. -/
def startingActs (env : Env) : List Act := [.spawn (.start ⟨"flow", "primary"⟩), .step 0 env]

/-- A GET with the token of the START. -/
def gettingActs (env : Env) : List Act :=
  .spawn (.get "primary" "0") :: List.replicate 6 (.step 1 env)

section
variable {ox : Engine} {g : ConfigGraph} {path : PathBuf}
  (hpath : filePath ox g.store "primary" = .ok path) (pe : PolicyEngine) (h : FileOfferHandler)
  (grain : Grain) (env : Env)
include hpath

theorem after_startingActs :
    (System.after ox Nat.repr pe h grain g (startingActs env)).threads =
        [.start ⟨"flow", "primary"⟩ .issue] ∧
      (System.after ox Nat.repr pe h grain g (startingActs env ++ [.step 0 env])).threads =
        [.start ⟨"flow", "primary"⟩ (.done (.ok (h.startedMessage ⟨"flow", "primary"⟩ "0")))] := by
  have htoken : TokenStore.empty.drawn.repr = "0" := rfl
  simp [startingActs, System.after, System.next, System.start, Request.thread, stepThread,
    stepStart, hpath, htoken]

theorem after_gettingActs {doc : Json.Value} {media : String}
    (hdoc : policyJsonld ox g.store "primary" = .ok doc)
    (hmedia : mediaType ox g.store "primary" = .ok media)
    (hpe : Allowed pe env.now "primary" doc) {bytes : ByteArray}
    (hread : env.readFile path = .ok bytes) (hvalue : env.headerValue media = .ok ()) :
    (System.after ox Nat.repr pe h grain g
      (startingActs env ++ [.step 0 env] ++ gettingActs env)).threads[1]? =
        some (.get "primary" "0" (.answered (.file media bytes))) := by
  obtain ⟨target, assigner, rows, hheader, hrows, rfl⟩ := policyJsonld_eq_ok ox hdoc
  have hlookup : (TokenStore.empty.issue Nat.repr "flow" "primary").2.lookup "0" =
      some ⟨"flow", "primary"⟩ := rfl
  simp [startingActs, gettingActs, System.after, System.next, System.start, Request.thread,
    stepThread, stepStart, stepGet, hlookup, hheader, hrows, refusal_eq_none_iff.mpr hpe, hpath,
    hmedia, mediaOrDefault, fileResponse, hread, hvalue]

end

end DsSqlDps
