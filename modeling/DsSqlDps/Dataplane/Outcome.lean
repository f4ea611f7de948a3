import DsSqlDps.Dataplane.Stranded

/-!
# What a GET is answered

Each answer is traced to the steps of the GET that decide it: the lookup of its token, the two
queries of the policy, the judgement of this policy and the read of the file.
-/

namespace DsSqlDps
open Rdf Sparql Vocab Machine

/-! ## Responses -/

/-- A seeding of the dataset that the text spells has begun and not finished. -/
def SeedingOpen (log : List Event) (d : String) : Prop :=
  ∃ σ ∈ begun log, spelled d = some σ.offer.datasetId ∧ .finished σ ∉ log

section
variable (ox : Engine) (pe : PolicyEngine) (c : Config) (steps : List (System × Act)) (i : ℕ)
  (d token : String)

/-- The lookup of the GET found no token, or one for another dataset. -/
def TokenRefused (response : Response) : Prop :=
  ∃ s env, Stepped steps i (.get d token .lookup) s env ∧
    (s.state.tokens.lookup token = none ∧ response = invalidToken ∨
      ∃ record, s.state.tokens.lookup token = some record ∧ record.datasetId ≠ d ∧
        response = wrongDataset)

/-- The GET found no policy, at a step before which a seeding of its dataset had begun and not
finished. -/
def PolicyMissing (response : Response) : Prop :=
  response = policyUnreadable (.notFound d) ∧
    ∃ s env, Stepped steps i (.get d token .header) s env ∧ SeedingOpen s.log d

/-- A step of the GET has read this header. -/
def HeaderRead (header : String × String) : Prop :=
  ∃ s env, Stepped steps i (.get d token .header) s env ∧
    policyHeader ox s.state.graph.store d = .ok header

/-- Two steps of the GET have read the header and the rows of this policy. -/
def PolicyRead (doc : Json.Value) : Prop :=
  ∃ header s env rows, HeaderRead ox steps i d token header ∧
    Stepped steps i (.get d token (.rows header)) s env ∧
    policyRows ox s.state.graph.store d = .ok rows ∧
    doc = policyObject (policyIri d) header.1 header.2 (permissionEntries rows)

/-- The policy that the GET has read allowed the request when the GET judged it. -/
def ReadAndAllowed : Prop :=
  JudgedInStep steps i d token fun doc env =>
    PolicyRead ox steps i d token doc ∧ Allowed pe env.now d doc

/-- The responses of a service with the configuration to a GET: by its token, for want of a policy
that is still being seeded, by the policy that it has read, or with what it has read of the file. -/
def Outcome (response : Response) : Prop :=
  TokenRefused steps i d token response ∨ PolicyMissing steps i d token response ∨
    (JudgedInStep steps i d token fun doc env =>
      PolicyRead ox steps i d token doc ∧ refusal pe env.now d doc = some response) ∨
    ReadAndAllowed ox pe steps i d token ∧
      ReadInStep steps i d token (Reference.servedPath c) fun env =>
        response = fileResponse env.toHost (Reference.servedPath c) c.mediaType

/-- What is known of the steps that a GET has taken. -/
def Traced : GetStage → Prop
  | .lookup | .header => True
  | .rows header => HeaderRead ox steps i d token header
  | .judge doc => PolicyRead ox steps i d token doc
  | .path | .media _ => ReadAndAllowed ox pe steps i d token
  | .answered response => Outcome ox pe c steps i d token response

end

def Thread.Traced (ox : Engine) (pe : PolicyEngine) (c : Config) (steps : List (System × Act))
    (i : ℕ) : Thread → Prop
  | .get d token stage => '>' ∉ d.toList → DsSqlDps.Traced ox pe c steps i d token stage
  | _ => True

theorem refusal_ne_notFound {pe : PolicyEngine} {now d : String} {doc : Json.Value}
    (message : String) : refusal pe now d doc ≠ some (.text .notFound message) := by
  unfold refusal
  cases pe.ingestPolicyValue doc with
  | error e => simp
  | ok policy =>
    dsimp only
    split_ifs
    · simp
    · simp

theorem fileResponse_ne_notFound (host : Host) (path : PathBuf) (media message : String) :
    fileResponse host path media ≠ .text .notFound message := by
  unfold fileResponse
  cases host.readFile path with
  | error e => simp
  | ok bytes =>
    dsimp only
    cases host.headerValue media <;> simp

section
variable {ox : Engine} {uuid : ℕ → String} {pe : PolicyEngine} {c : Config} {port : UInt16}
  {grain : Grain} {ss : List Seeding} {steps : List (System × Act)} {s : System} {i : ℕ}
  {env : Env} {d token : String}

theorem Outcome.ne_notFound {response : Response} (h : Outcome ox pe c steps i d token response)
    (message : String) : response ≠ .text .notFound message := by
  rcases h with ⟨s, env, -, ⟨-, rfl⟩ | ⟨record, -, -, rfl⟩⟩ | ⟨rfl, -⟩ | ⟨doc, s, env, -, -, hr⟩ |
    ⟨-, s, env, -, rfl⟩
  · simp [invalidToken]
  · simp [wrongDataset]
  · simp [policyUnreadable]
  · rintro rfl
    exact refusal_ne_notFound message hr
  · exact fileResponse_ne_notFound _ _ _ message

/-! ## Steps -/

variable (ox) in
/-- A dataset that is known and has no header has a seeding that is not finished. -/
theorem Seeded.seedingOpen {h : FileOfferHandler} {g : ConfigGraph} {log : List Event}
    (hs : Seeded h ss g log) (hk : Known (ss ++ begun log) d) (hd : '>' ∉ d.toList)
    (hn : ∀ header, policyHeader ox g.store d ≠ .ok header) : SeedingOpen log d := by
  obtain ⟨σ, hσ, hspell⟩ := hk hd
  have hno : ¬ σ.Complete g.store := by
    intro hc
    rcases DsSqlDps.policyHeader_cases ox g.store hd hspell (hs.accepts σ hσ) with
      ⟨-, hnone⟩ | ⟨target, assigner, -, -, hok⟩
    · exact hnone _ _ hc.target hc.assigner
    · exact hn _ hok
  rcases List.mem_append.mp hσ with hσ | hσ
  · exact absurd (hs.complete σ hσ) hno
  · exact ⟨σ, hσ, hspell, fun hf => hno (hs.finished σ hf)⟩

variable (ox) in
/-- A step of a GET extends its trace. -/
theorem Serves.traced_stepGet (hs : Serves c port ss s)
    (hos : ∀ σ ∈ ss, σ.offer = (c.handler port).offerFor σ.offer.datasetId)
    (hd : '>' ∉ d.toList) {stage : GetStage}
    (hstep : Stepped steps i (.get d token stage) s env)
    (ht : Traced ox pe c steps i d token stage) :
    Traced ox pe c steps i d token (stepGet ox pe env.toHost i s.state d token stage).1 := by
  have hfound := hs.found i _ hstep.2 hd
  cases stage with
  | lookup =>
    rw [stepGet]
    cases hl : s.state.tokens.lookup token with
    | none => exact Or.inl ⟨s, env, hstep, Or.inl ⟨hl, rfl⟩⟩
    | some record =>
      dsimp only
      split_ifs with hne
      · exact Or.inl ⟨s, env, hstep, Or.inr ⟨record, hl, hne, rfl⟩⟩
      · trivial
  | header =>
    rw [stepGet]
    obtain ⟨σ, hσ, hspell⟩ := hfound hd
    rcases DsSqlDps.policyHeader_cases ox s.state.graph.store hd hspell (hs.graph.accepts σ hσ) with
      ⟨hn, -⟩ | ⟨target, assigner, -, -, hok⟩
    · rw [hn]
      refine Or.inr (Or.inl ⟨rfl, s, env, hstep, ?_⟩)
      refine hs.graph.seedingOpen ox hfound hd fun header hok => ?_
      rw [hn] at hok
      cases hok
    · rw [hok]
      exact ⟨s, env, hstep, hok⟩
  | rows header =>
    obtain ⟨e, hspell, ha, -⟩ := hfound
    obtain ⟨l, -, hr⟩ := hs.graph.ledger.policyRows_sorted ox hd hspell ha
    rw [stepGet, hr]
    exact ⟨header, s, env, _, ht, hstep, hr, rfl⟩
  | judge doc =>
    rw [stepGet]
    cases hr : refusal pe env.now d doc with
    | some response => exact Or.inr (Or.inr (Or.inl ⟨doc, s, env, hstep, ht, hr⟩))
    | none => exact ⟨doc, s, env, hstep, ht, refusal_eq_none_iff.mp hr⟩
  | path =>
    rw [stepGet, FoundIn.filePath_eq ox hfound hs.graph hos hd]
    exact ht
  | media path =>
    obtain ⟨hfiled, rfl⟩ := hfound
    rw [stepGet, hfiled.mediaType_eq ox hs.graph hos hd]
    exact Or.inr (Or.inr (Or.inr ⟨ht, s, env, hstep, rfl⟩))
  | answered response => exact ht

/-! ## The system -/

/-- A system whose GETs are all traced. -/
structure Traces (ox : Engine) (pe : PolicyEngine) (c : Config) (port : UInt16)
    (ss : List Seeding) (steps : List (System × Act)) (s : System) : Prop
    extends Serves c port ss s where
  traced : ∀ (i : ℕ) (thread : Thread), s.threads[i]? = some thread →
    thread.Traced ox pe c steps i

theorem Traces.next (hs : Traces ox pe c port ss steps s)
    (hos : ∀ σ ∈ ss, σ.offer = (c.handler port).offerFor σ.offer.datasetId) {a : Act}
    (ha : (s, a) ∈ steps) :
    Traces ox pe c port ss steps (s.next ox uuid pe (c.handler port) grain a) where
  toServes := hs.toServes.next hos a
  traced := by
    refine forall_threads_next (P := fun _ _ i thread => thread.Traced ox pe c steps i)
      hs.traced ?_ ?_
    · intro i request
      cases request with
      | start | terminate => trivial
      | get d t => exact fun _ => trivial
    · rintro i env thread result rfl hi hr
      refine ⟨?_, fun j other _ ho => ho⟩
      subst hr
      cases thread with
      | start flow stage => trivial
      | terminate flow done => cases done <;> trivial
      | get d t stage =>
        exact fun hd => hs.traced_stepGet ox hos hd ⟨ha, hi⟩ (hs.traced i _ hi hd)

variable (ox uuid pe grain) in
/-- Whatever the interleaving and whichever insertions fail, a GET is refused by its token or by the
policy that it has read, or finds no policy because a seeding of its dataset has begun and not
finished, or is given what it reads from the file of the configuration. It never finds a policy and
then no path or no media type, so its answer is never 404. -/
theorem get_outcome {h : FileOfferHandler} {s₀ : ServiceState}
    (hb : build ox c port = .ok (h, s₀)) (acts : List Act) {i : ℕ} (d token : String)
    {response : Response} (hd : '>' ∉ d.toList)
    (hi : (System.after ox uuid pe h grain s₀.graph acts).threads[i]? =
      some (.get d token (.answered response))) :
    Outcome ox pe c (System.history ox uuid pe h grain (.start s₀.graph) acts) i d token response ∧
      ∀ message, response ≠ .text .notFound message := by
  obtain ⟨rfl, ss, hr⟩ := represents_build ox hb
  have hs : Traces ox pe c port ss
      (System.history ox uuid pe (c.handler port) grain (.start s₀.graph) acts)
      (System.after ox uuid pe (c.handler port) grain s₀.graph acts) :=
    invariant_of_history (fun _ hp hs => hs.next hr.offer hp)
      ⟨serves_start hr.ledger, fun i thread hi => absurd hi (by simp [System.start])⟩
  have ho := hs.traced i _ hi hd
  exact ⟨ho, Outcome.ne_notFound ho⟩

end

/-- A START of a dataset that is being seeded, and a GET of it. -/
def missingActs (env : Env) : List Act :=
  [.spawn (.start ⟨"next", "other"⟩), .step 1 env, .step 1 env, .spawn (.get "other" "0"),
    .step 2 env, .step 2 env]

theorem run_missingActs {ox : Engine} (pe : PolicyEngine) (h : FileOfferHandler) (env : Env)
    {s : System} {thread : Thread} {path : PathBuf} {e : ConfigGraphError}
    (ht : s.threads = [thread]) (htokens : s.state.tokens = .empty)
    (hpath : filePath ox s.state.graph.store "other" = .ok path)
    (hheader : policyHeader ox s.state.graph.store "other" = .error e) :
    (run (System.next ox Nat.repr pe h .insert) s (missingActs env)).threads[2]? =
      some (.get "other" "0" (.answered (policyUnreadable e))) := by
  have hlookup : (TokenStore.empty.issue Nat.repr "next" "other").2.lookup "0" =
      some ⟨"next", "other"⟩ := rfl
  have htoken : TokenStore.empty.drawn.repr = "0" := rfl
  simp [missingActs, System.next, Request.thread, stepThread, stepStart, stepGet, ht, htokens,
    hpath, hheader, hlookup, htoken]

/-- The demo configuration without a deadline. -/
def unlimitedConfig : Config := { sampleConfig with policyNotAfter := none }

/-- A GET that is served the file, and one that finds no policy after five insertions. -/
theorem get_outcome_sample : ∃ s₀,
    build plainEngine unlimitedConfig 9192 = .ok (unlimitedConfig.handler 9192, s₀) ∧
    (let acts := startingActs sampleEnv ++ [.step 0 sampleEnv] ++ gettingActs sampleEnv
    (System.after plainEngine Nat.repr permissionEngine (unlimitedConfig.handler 9192) .insert
      s₀.graph acts).threads[1]? =
        some (.get "primary" "0" (.answered (.file "text/csv" .empty))) ∧
      Outcome plainEngine permissionEngine unlimitedConfig (System.history plainEngine Nat.repr
        permissionEngine (unlimitedConfig.handler 9192) .insert (.start s₀.graph) acts) 1 "primary"
        "0" (.file "text/csv" .empty)) ∧
    (let acts := seedingActs ⟨"flow", "other"⟩ sampleEnv 5 ++ missingActs sampleEnv
    (System.after plainEngine Nat.repr permissionEngine (unlimitedConfig.handler 9192) .insert
      s₀.graph acts).threads[2]? =
        some (.get "other" "0" (.answered (policyUnreadable (.notFound "other")))) ∧
      Outcome plainEngine permissionEngine unlimitedConfig (System.history plainEngine Nat.repr
        permissionEngine (unlimitedConfig.handler 9192) .insert (.start s₀.graph) acts) 2 "other"
        "0" (policyUnreadable (.notFound "other"))) := by
  have ha : accepts unlimitedConfig.fileOffer.datasetId = true := accepts_sampleOffer
  obtain ⟨s₀, hb⟩ := build_of_accepts plainEngine 9192 ha
  obtain ⟨-, ss, hr⟩ := represents_build plainEngine hb
  obtain ⟨hdoc, hpath, hmedia⟩ := hr.reads plainEngine (d := "primary") (by decide)
  have hserved := after_gettingActs hpath permissionEngine (unlimitedConfig.handler 9192) .insert
    sampleEnv hdoc hmedia ⟨_, rfl, rfl⟩ (rfl : sampleEnv.readFile _ = .ok .empty) rfl
  have hother : ∀ σ ∈ ss, σ.offer.datasetId ≠ "other" := by
    intro σ hσ hd
    have hk := (hr.known "other").mpr ⟨σ, hσ, hd⟩
    simp [Reference.initial, unlimitedConfig, sampleConfig] at hk
  obtain ⟨hthreads, htokens, ⟨path, hfile⟩, hheader⟩ := after_five_insertions plainEngine Nat.repr
    permissionEngine (h := unlimitedConfig.handler 9192) hr.ledger ⟨"flow", "other"⟩ sampleEnv rfl
    accepts_other hother rfl
  have hmissing := run_missingActs permissionEngine (unlimitedConfig.handler 9192) sampleEnv
    hthreads htokens hfile hheader
  rw [← System.after_append] at hmissing
  exact ⟨s₀, hb,
    ⟨hserved, (get_outcome plainEngine Nat.repr permissionEngine .insert hb _ "primary" "0"
      (by decide +kernel) hserved).1⟩,
    hmissing, (get_outcome plainEngine Nat.repr permissionEngine .insert hb _ "other" "0"
      (by decide +kernel) hmissing).1⟩

end DsSqlDps
