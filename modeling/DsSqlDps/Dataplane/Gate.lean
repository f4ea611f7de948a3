import DsSqlDps.Dataplane.Steps
import DsSqlDps.Dataplane.FailFast

/-!
# The token gate

The tokens in the store are those that were issued and whose flow was not terminated since. So the
response to a GET is decided by the history up to its lookup.
-/

namespace DsSqlDps

/-! ## Live tokens -/

/-- The token was issued with this record, and its flow was not terminated since. -/
def Live (log : List Event) (token : String) (record : TokenRecord) : Prop :=
  ∃ before since, log = before ++ .issued token record :: since ∧ .revoked record.flowId ∉ since

section
variable {log : List Event} {token : String} {record : TokenRecord} {e : Event}

theorem not_live_nil : ¬ Live [] token record := by
  rintro ⟨before, since, h, -⟩
  exact absurd h.symm (by simp)

theorem live_concat :
    Live (log ++ [e]) token record ↔
      e = .issued token record ∨ Live log token record ∧ e ≠ .revoked record.flowId := by
  constructor
  · rintro ⟨before, since, h, hs⟩
    rcases List.eq_nil_or_concat' since with rfl | ⟨since, e', rfl⟩
    · obtain ⟨-, he⟩ := List.append_inj' h rfl
      exact Or.inl (List.singleton_inj.mp he)
    · rw [← List.cons_append, ← List.append_assoc] at h
      obtain ⟨rfl, he⟩ := List.append_inj' h rfl
      obtain rfl := List.singleton_inj.mp he
      rw [List.mem_append, List.mem_singleton, not_or] at hs
      exact Or.inr ⟨⟨before, since, rfl, hs.1⟩, fun he => hs.2 he.symm⟩
  · rintro (rfl | ⟨⟨before, since, rfl, hs⟩, he⟩)
    · exact ⟨log, [], rfl, List.not_mem_nil⟩
    · refine ⟨before, since ++ [e], by simp, ?_⟩
      rw [List.mem_append, List.mem_singleton, not_or]
      exact ⟨hs, fun hr => he hr.symm⟩

theorem live_append_of_not_ofTokens {events : List Event} (h : ∀ e ∈ events, ¬ e.OfTokens) :
    Live (log ++ events) token record ↔ Live log token record := by
  induction events generalizing log with
  | nil => rw [List.append_nil]
  | cons e events ih =>
    rw [List.append_cons, ih fun e he => h e (List.mem_cons_of_mem _ he), live_concat]
    have he := h e List.mem_cons_self
    constructor
    · rintro (rfl | ⟨hl, -⟩)
      · exact absurd trivial he
      · exact hl
    · exact fun hl => Or.inr ⟨hl, fun hr => he (by rw [hr]; trivial)⟩

end

/-! ## The tokens and their history -/

/-- The store holds the live tokens, and every token issued was drawn before. -/
structure TokenHistory (uuid : ℕ → String) (tokens : TokenStore) (log : List Event) : Prop where
  lookup : ∀ t r, tokens.lookup t = some r ↔ Live log t r
  drawn : ∀ t r, .issued t r ∈ log → ∃ k < tokens.drawn, t = uuid k

namespace TokenHistory
variable {uuid : ℕ → String} {tokens : TokenStore} {log : List Event}

theorem empty (uuid : ℕ → String) : TokenHistory uuid .empty [] where
  lookup t r := ⟨fun h => absurd h (by simp), fun h => absurd h not_live_nil⟩
  drawn t r h := absurd h List.not_mem_nil

theorem issue (h : TokenHistory uuid tokens log) (hu : Function.Injective uuid) (f d : String) :
    TokenHistory uuid (tokens.issue uuid f d).2 (log ++ [.issued (uuid tokens.drawn) ⟨f, d⟩]) where
  lookup t r := by
    rw [TokenStore.lookup_issue, live_concat, ← h.lookup]
    by_cases ht : t = uuid tokens.drawn
    · -- a token that was just drawn was not issued before
      have hn : tokens.lookup t ≠ some r := by
        intro hl
        obtain ⟨before, since, rfl, -⟩ := (h.lookup t r).mp hl
        obtain ⟨k, hk, htk⟩ := h.drawn t r (by simp)
        exact absurd (hu (ht.symm.trans htk)) (Nat.ne_of_gt hk)
      simp [ht, ht ▸ hn]
    · rw [if_neg ht]
      constructor
      · exact fun hl => Or.inr ⟨hl, by simp⟩
      · rintro (he | ⟨hl, -⟩)
        · injection he with he
          exact absurd he.symm ht
        · exact hl
  drawn t r ht := by
    rw [TokenStore.issue_drawn]
    rcases List.mem_append.mp ht with ht | ht
    · obtain ⟨k, hk, rfl⟩ := h.drawn t r ht
      exact ⟨k, Nat.lt_succ_of_lt hk, rfl⟩
    · injection List.mem_singleton.mp ht with ht
      exact ⟨tokens.drawn, Nat.lt_succ_self _, ht⟩

theorem revoke (h : TokenHistory uuid tokens log) (f : String) :
    TokenHistory uuid (tokens.revokeFlow f) (log ++ [.revoked f]) where
  lookup t r := by
    rw [TokenStore.lookup_revokeFlow, live_concat, ← h.lookup, Option.filter_eq_some_iff]
    simp only [reduceCtorEq, false_or, ne_eq, Event.revoked.injEq, decide_not, Bool.not_eq_true',
      decide_eq_false_iff_not]
    rw [eq_comm (a := f)]
  drawn t r ht := by
    rcases List.mem_append.mp ht with ht | ht
    · exact h.drawn t r ht
    · cases List.mem_singleton.mp ht

theorem quiet (h : TokenHistory uuid tokens log) {events : List Event}
    (hq : ∀ e ∈ events, ¬ e.OfTokens) : TokenHistory uuid tokens (log ++ events) where
  lookup t r := by rw [live_append_of_not_ofTokens hq, h.lookup]
  drawn t r ht := by
    rcases List.mem_append.mp ht with ht | ht
    · exact h.drawn t r ht
    · exact absurd trivial (hq _ ht)

/-- A token that was issued and is not in the store stays out of it. -/
theorem dead_issue (h : TokenHistory uuid tokens log) (hu : Function.Injective uuid) {t : String}
    {r : TokenRecord} (hi : .issued t r ∈ log) (hn : tokens.lookup t = none) (f d : String) :
    (tokens.issue uuid f d).2.lookup t = none := by
  obtain ⟨k, hk, rfl⟩ := h.drawn t r hi
  rw [TokenStore.lookup_issue, if_neg fun he => absurd (hu he) (Nat.ne_of_lt hk), hn]

end TokenHistory

/-! ## What a response tells -/

section
variable (pe : PolicyEngine) (steps : List (System × Act)) (log : List Event) (i : ℕ)
  (datasetId token : String)

/-- The lookup of the thread found the token, for its dataset; `P` holds of the log since. -/
def Passed (P : List Event → Prop) : Prop :=
  ∃ before since, log = before ++ .lookedUp i datasetId token :: since ∧ P since ∧
    ∃ r₀ : TokenRecord, r₀.datasetId = datasetId ∧ ∀ r, Live before token r ↔ r = r₀

/-- The thread has read a policy, and the step in which it judged it found the request allowed. -/
def AllowedSince (since : List Event) : Prop :=
  JudgedInStep steps i datasetId token fun doc env =>
    .policyRead i datasetId doc ∈ since ∧ Allowed pe env.now datasetId doc

/-- The response is decided by the history up to the lookup of the thread. -/
def Gated (response : Response) : Prop :=
  ∃ before since, log = before ++ .lookedUp i datasetId token :: since ∧
    (response = invalidToken ↔ ∀ r, ¬ Live before token r) ∧
    (response = wrongDataset ↔ ∃ r, Live before token r ∧ r.datasetId ≠ datasetId) ∧
    ∀ contentType bytes, response = .file contentType bytes →
      (∃ r, Live before token r ∧ r.datasetId = datasetId) ∧
        AllowedSince pe steps i datasetId token since

/-- What is known of a GET. -/
def ToldGet : GetStage → Prop
  | .lookup => True
  | .header | .rows _ => Passed log i datasetId token fun _ => True
  | .judge doc => Passed log i datasetId token fun since => .policyRead i datasetId doc ∈ since
  | .path | .media _ => Passed log i datasetId token (AllowedSince pe steps i datasetId token)
  | .answered response => Gated pe steps log i datasetId token response

end

def Told (pe : PolicyEngine) (steps : List (System × Act)) (log : List Event) (i : ℕ) :
    Thread → Prop
  | .get datasetId token stage => ToldGet pe steps log i datasetId token stage
  | _ => True

section
variable {pe : PolicyEngine} {steps : List (System × Act)} {log : List Event} {i : ℕ}
  {datasetId token : String} {P Q : List Event → Prop} {response : Response}

theorem Passed.append (h : Passed log i datasetId token P) {events : List Event}
    (hP : ∀ since, P since → Q (since ++ events)) :
    Passed (log ++ events) i datasetId token Q := by
  obtain ⟨before, since, rfl, hp, hr⟩ := h
  exact ⟨before, since ++ events, by simp, hP since hp, hr⟩

theorem AllowedSince.append {since : List Event}
    (h : AllowedSince pe steps i datasetId token since) (events : List Event) :
    AllowedSince pe steps i datasetId token (since ++ events) :=
  JudgedInStep.mono h fun _ _ ⟨hm, ha⟩ => ⟨List.mem_append_left _ hm, ha⟩

theorem Gated.append (h : Gated pe steps log i datasetId token response) (events : List Event) :
    Gated pe steps (log ++ events) i datasetId token response := by
  obtain ⟨before, since, rfl, h401, h403, hf⟩ := h
  refine ⟨before, since ++ events, by simp, h401, h403, fun m b hr => ?_⟩
  exact ⟨(hf m b hr).1, (hf m b hr).2.append events⟩

theorem ToldGet.append {stage : GetStage} (h : ToldGet pe steps log i datasetId token stage)
    (events : List Event) : ToldGet pe steps (log ++ events) i datasetId token stage := by
  cases stage with
  | lookup => trivial
  | header => exact Passed.append h fun _ _ => trivial
  | rows th => exact Passed.append h fun _ _ => trivial
  | judge doc => exact Passed.append h fun _ hm => List.mem_append_left _ hm
  | path => exact Passed.append h fun _ ha => ha.append events
  | media path => exact Passed.append h fun _ ha => ha.append events
  | answered response => exact Gated.append h events

theorem Told.append {thread : Thread} (h : Told pe steps log i thread) (events : List Event) :
    Told pe steps (log ++ events) i thread := by
  cases thread with
  | get d t stage => exact ToldGet.append h events
  | start | terminate => trivial

/-- A response past the two checks. -/
theorem Passed.gated (h : Passed log i datasetId token P) (hp : response.Past)
    (hf : ∀ contentType bytes, response = .file contentType bytes →
      ∀ since, P since → AllowedSince pe steps i datasetId token since) :
    Gated pe steps log i datasetId token response := by
  obtain ⟨before, since, rfl, hP, r₀, hd, hr⟩ := h
  refine ⟨before, since, rfl, ?_, ?_, fun m b he => ?_⟩
  · exact ⟨fun he => absurd he hp.ne_invalidToken, fun hn => absurd ((hr r₀).mpr rfl) (hn r₀)⟩
  · refine ⟨fun he => absurd he hp.ne_wrongDataset, ?_⟩
    rintro ⟨r, hl, hne⟩
    rw [(hr r).mp hl] at hne
    exact absurd hd hne
  · exact ⟨⟨r₀, (hr r₀).mpr rfl, hd⟩, hf m b he since hP⟩

theorem policyUnreadable_past (e : ConfigGraphError) : (policyUnreadable e).Past :=
  past_text (by simp) (by simp)

theorem pathUnreadable_past (e : ConfigGraphError) : (pathUnreadable e).Past :=
  past_text (by simp) (by simp)

end

/-! ## Steps -/

section
variable {ox : Sparql.Engine} {uuid : ℕ → String} {pe : PolicyEngine} {h : FileOfferHandler}
  {grain : Grain} {steps : List (System × Act)} {i : ℕ} {env : Env} {s : ServiceState}
  {thread : Thread} {log : List Event}

theorem TokenHistory.stepThread (ht : TokenHistory uuid s.tokens log)
    (hu : Function.Injective uuid) {result : Thread × ServiceState × List Event}
    (hr : stepThread ox uuid pe h grain i env s thread = result) :
    TokenHistory uuid result.2.1.tokens (log ++ result.2.2) := by
  rcases stepThread_tokens thread hr with ⟨hs, hq⟩ | ⟨flow, -, hs, he⟩ | ⟨flow, -, hs, he⟩
  · rw [hs]
    exact ht.quiet hq
  · rw [hs, he]
    exact ht.issue hu flow.id flow.datasetId
  · rw [hs, he]
    exact ht.revoke flow.id

/-- The response of a lookup, or that it was passed. -/
theorem toldGet_lookup (ht : TokenHistory uuid s.tokens log) (host : Host) (d t : String) :
    ToldGet pe steps (log ++ (stepGet ox pe host i s d t .lookup).2) i d t
      (stepGet ox pe host i s d t .lookup).1 := by
  rw [stepGet]
  cases hl : s.tokens.lookup t with
  | none =>
    -- no record of the token is live, so neither check has one to compare with
    have hn : ∀ r, ¬ Live log t r := fun r hr => by
      rw [(ht.lookup t r).mpr hr] at hl
      cases hl
    refine ⟨log, [], rfl, iff_of_true rfl hn, ?_, fun m b he => by cases he⟩
    refine iff_of_false invalidToken_ne_wrongDataset ?_
    rintro ⟨r, hr, -⟩
    exact hn r hr
  | some r₀ =>
    have hr : ∀ r, Live log t r ↔ r = r₀ := fun r => by
      rw [← ht.lookup, hl, Option.some.injEq, eq_comm]
    dsimp only
    split_ifs with hd
    · refine ⟨log, [], rfl, ?_, iff_of_true rfl ⟨r₀, (hr r₀).mpr rfl, hd⟩,
        fun m b he => by cases he⟩
      exact iff_of_false invalidToken_ne_wrongDataset.symm fun hn => hn r₀ ((hr r₀).mpr rfl)
    · exact ⟨log, [], rfl, trivial, r₀, not_not.mp hd, hr⟩

theorem toldGet_stepGet (ht : TokenHistory uuid s.tokens log) {d t : String} {stage : GetStage}
    {system : System} (hstep : Stepped steps i (.get d t stage) system env)
    (hold : ToldGet pe steps log i d t stage) :
    ToldGet pe steps (log ++ (stepGet ox pe env.toHost i s d t stage).2) i d t
      (stepGet ox pe env.toHost i s d t stage).1 := by
  cases stage with
  | lookup => exact toldGet_lookup ht env.toHost d t
  | header =>
    rw [stepGet]
    cases policyHeader ox s.graph.store d with
    | error e =>
      exact (Passed.gated hold (policyUnreadable_past e) fun m b he => by cases he).append []
    | ok th => exact Passed.append hold fun _ _ => trivial
  | rows th =>
    obtain ⟨target, assigner⟩ := th
    rw [stepGet]
    cases policyRows ox s.graph.store d with
    | error e =>
      exact (Passed.gated hold (policyUnreadable_past e) fun m b he => by cases he).append []
    | ok rows => exact Passed.append hold fun since _ => by simp
  | judge doc =>
    rw [stepGet]
    cases hf : refusal pe env.now d doc with
    | some response =>
      obtain ⟨hp, hn⟩ := refusal_past hf
      exact (Passed.gated hold hp fun m b he => absurd he (hn m b)).append []
    | none =>
      refine Passed.append hold fun since hm => ?_
      -- from here on the request has been allowed by the policy that was read
      exact ⟨doc, system, env, hstep, List.mem_append_left _ hm, refusal_eq_none_iff.mp hf⟩
  | path =>
    rw [stepGet]
    cases filePath ox s.graph.store d with
    | error e =>
      exact (Passed.gated hold (pathUnreadable_past e) fun m b he => by cases he).append []
    | ok path => exact Passed.append hold fun _ ha => ha.append []
  | media path =>
    exact (Passed.gated hold (fileResponse_past _ _ _) fun m b _ since ha => ha).append []
  | answered response => exact Gated.append hold []

theorem told_stepThread (ht : TokenHistory uuid s.tokens log) {system : System}
    (hstep : Stepped steps i thread system env) (hold : Told pe steps log i thread)
    {result : Thread × ServiceState × List Event}
    (hr : stepThread ox uuid pe h grain i env s thread = result) :
    Told pe steps (log ++ result.2.2) i result.1 := by
  subst hr
  cases thread with
  | start flow stage => trivial
  | terminate flow done => cases done <;> trivial
  | get d t stage => exact toldGet_stepGet ht hstep hold

end

/-! ## Runs -/

/-- The tokens of a system and its history agree, and each thread is told of what happened. -/
structure Accounted (uuid : ℕ → String) (pe : PolicyEngine) (steps : List (System × Act))
    (s : System) : Prop where
  tokens : TokenHistory uuid s.state.tokens s.log
  threads : ∀ i thread, s.threads[i]? = some thread → Told pe steps s.log i thread

section
variable {ox : Sparql.Engine} {uuid : ℕ → String} {pe : PolicyEngine} {h : FileOfferHandler}
  {grain : Grain} {g : ConfigGraph} {steps : List (System × Act)} {s : System}

theorem TokenHistory.next (ht : TokenHistory uuid s.state.tokens s.log)
    (hu : Function.Injective uuid) (a : Act) :
    TokenHistory uuid (s.next ox uuid pe h grain a).state.tokens
      (s.next ox uuid pe h grain a).log := by
  rcases s.next_cases ox uuid pe h grain a with
    ⟨request, -, hn⟩ | ⟨i, env, -, ⟨-, hn⟩ | ⟨thread, result, -, hr, hn⟩⟩
  · rw [hn]
    exact ht
  · rw [hn]
    exact ht
  · rw [hn]
    exact ht.stepThread hu hr

theorem accounted_start (uuid : ℕ → String) (pe : PolicyEngine) (steps : List (System × Act))
    (g : ConfigGraph) : Accounted uuid pe steps (.start g) where
  tokens := .empty uuid
  threads i thread hi := absurd hi (by simp [System.start])

theorem Accounted.next (hs : Accounted uuid pe steps s) (hu : Function.Injective uuid) {a : Act}
    (ha : (s, a) ∈ steps) : Accounted uuid pe steps (s.next ox uuid pe h grain a) where
  tokens := hs.tokens.next hu a
  threads := by
    refine forall_threads_next (P := fun _ log i thread => Told pe steps log i thread)
      hs.threads ?_ ?_
    · intro i request
      cases request <;> trivial
    · rintro i env thread result rfl hi hr
      exact ⟨told_stepThread hs.tokens ⟨ha, hi⟩ (hs.threads i thread hi) hr,
        fun _ _ _ hp => hp.append _⟩

theorem accounted_after (hu : Function.Injective uuid) (acts : List Act) :
    Accounted uuid pe (System.history ox uuid pe h grain (.start g) acts)
      (System.after ox uuid pe h grain g acts) :=
  Machine.invariant_of_history (fun _ hp hs => hs.next hu hp) (accounted_start uuid pe _ g)

/-- A token that was issued and is dead. -/
def Dead (t : String) (s : System) : Prop :=
  (∃ r, .issued t r ∈ s.log) ∧ s.state.tokens.lookup t = none

theorem Dead.next {t : String} (hs : TokenHistory uuid s.state.tokens s.log)
    (hu : Function.Injective uuid) (hd : Dead t s) (a : Act) :
    Dead t (s.next ox uuid pe h grain a) := by
  obtain ⟨⟨r, hi⟩, hn⟩ := hd
  rcases s.next_cases ox uuid pe h grain a with
    ⟨request, -, he⟩ | ⟨i, env, -, ⟨-, he⟩ | ⟨thread, result, -, hr, he⟩⟩
  · rw [he]
    exact ⟨⟨r, hi⟩, hn⟩
  · rw [he]
    exact ⟨⟨r, hi⟩, hn⟩
  · rw [he]
    refine ⟨⟨r, List.mem_append_left _ hi⟩, ?_⟩
    dsimp only
    rcases stepThread_tokens thread hr with ⟨ht, -⟩ | ⟨flow, -, ht, -⟩ | ⟨flow, -, ht, -⟩
    · rw [ht, hn]
    · rw [ht]
      exact hs.dead_issue hu hi hn flow.id flow.datasetId
    · rw [ht, TokenStore.lookup_revokeFlow, hn]
      rfl

/-- No later step revives a dead token. -/
theorem Dead.run {t : String} (hs : TokenHistory uuid s.state.tokens s.log)
    (hu : Function.Injective uuid) (hd : Dead t s) (acts : List Act) :
    Dead t (Machine.run (System.next ox uuid pe h grain) s acts) :=
  (Machine.invariant (P := fun s => TokenHistory uuid s.state.tokens s.log ∧ Dead t s)
    (fun _ a hp => ⟨hp.1.next hu a, Dead.next hp.1 hu hp.2 a⟩) ⟨hs, hd⟩ acts).2

/-- A GET is answered by the history up to its lookup: refused without a live token, refused with
one for another dataset, and given the file only if it has read a policy since that allowed it when
it was judged. A termination drops the tokens of its flow and no other, and a token that was dropped
stays out. -/
theorem token_gate (ox : Sparql.Engine) (pe : PolicyEngine) (h : FileOfferHandler) (grain : Grain)
    (hu : Function.Injective uuid) (g : ConfigGraph) (acts : List Act) :
    let s := System.after ox uuid pe h grain g acts
    (∀ i datasetId token response,
      s.threads[i]? = some (.get datasetId token (.answered response)) →
        Gated pe (System.history ox uuid pe h grain (.start g) acts) s.log i datasetId token
          response) ∧
    (∀ i env flow, s.threads[i]? = some (.terminate flow false) → ∀ token,
      (s.next ox uuid pe h grain (.step i env)).state.tokens.lookup token =
        (s.state.tokens.lookup token).filter fun record => record.flowId ≠ flow.id) ∧
    ∀ token record, .issued token record ∈ s.log → s.state.tokens.lookup token = none →
      ∀ acts', (System.after ox uuid pe h grain g (acts ++ acts')).state.tokens.lookup token =
        none := by
  have hs : Accounted uuid pe (System.history ox uuid pe h grain (.start g) acts)
      (System.after ox uuid pe h grain g acts) := accounted_after hu acts
  refine ⟨fun i d t response hi => hs.threads i _ hi, fun i env flow hi token => ?_,
    fun token record hi hn acts' => ?_⟩
  · rw [System.next, hi]
    rfl
  · rw [System.after_append]
    exact (Dead.run hs.tokens hu ⟨⟨record, hi⟩, hn⟩ acts').2

end

theorem repr_injective : Function.Injective Nat.repr := fun _ _ h => Nat.repr_injective h

def sampleEnv : Env := ⟨sampleHost, none⟩

/-- Two STARTs, a GET with the token of the first one, the termination of its flow, the GET again, a
GET of another dataset with the second token, and a termination of its flow that is yet to step. -/
def gateActs (env : Env) : List Act :=
  [.spawn (.start ⟨"flow", "primary"⟩), .step 0 env, .step 0 env,
    .spawn (.start ⟨"next", "primary"⟩), .step 1 env, .step 1 env,
    .spawn (.get "primary" "0"), .step 2 env, .step 2 env, .step 2 env, .step 2 env, .step 2 env,
    .step 2 env, .spawn (.terminate ⟨"flow", "primary"⟩), .step 3 env,
    .spawn (.get "primary" "0"), .step 4 env, .spawn (.get "other" "1"), .step 5 env,
    .spawn (.terminate ⟨"next", "primary"⟩)]

theorem after_gateActs {ox : Sparql.Engine} {pe : PolicyEngine} (h : FileOfferHandler)
    (grain : Grain) {env : Env} {g : ConfigGraph} {doc : Json.Value} {path : PathBuf}
    {media : String} {bytes : ByteArray} (hdoc : policyJsonld ox g.store "primary" = .ok doc)
    (hpath : filePath ox g.store "primary" = .ok path)
    (hmedia : mediaType ox g.store "primary" = .ok media)
    (hpe : Allowed pe env.now "primary" doc) (hread : env.readFile path = .ok bytes)
    (hvalue : env.headerValue media = .ok ()) :
    let s := System.after ox Nat.repr pe h grain g (gateActs env)
    s.threads[2]? = some (.get "primary" "0" (.answered (.file media bytes))) ∧
      s.threads[4]? = some (.get "primary" "0" (.answered invalidToken)) ∧
      s.threads[5]? = some (.get "other" "1" (.answered wrongDataset)) ∧
      s.threads[6]? = some (.terminate ⟨"next", "primary"⟩ false) ∧
      .issued "0" ⟨"flow", "primary"⟩ ∈ s.log ∧ s.state.tokens.lookup "0" = none := by
  obtain ⟨target, assigner, rows, hheader, hrows, rfl⟩ := policyJsonld_eq_ok ox hdoc
  let issued := ((TokenStore.empty.issue Nat.repr "flow" "primary").2.issue Nat.repr "next"
    "primary").2
  have hlive : issued.lookup "0" = some ⟨"flow", "primary"⟩ := rfl
  have hdead : (issued.revokeFlow "flow").lookup "0" = none := rfl
  have hother : (issued.revokeFlow "flow").lookup "1" = some ⟨"next", "primary"⟩ := rfl
  simp only [issued] at hlive hdead hother
  have htoken : TokenStore.empty.drawn.repr = "0" := rfl
  simp [gateActs, System.after, System.next, System.start, Request.thread, stepThread, stepStart,
    stepGet, hlive, hdead, hother, hheader, hrows, refusal_eq_none_iff.mpr hpe, hpath, hmedia,
    mediaOrDefault, fileResponse, hread, hvalue, htoken]

theorem token_gate_sample :
    let s := System.after plainEngine Nat.repr permissionEngine sampleHandler .insert sampleGraph
      (gateActs sampleEnv)
    let steps := System.history plainEngine Nat.repr permissionEngine sampleHandler .insert
      (.start sampleGraph) (gateActs sampleEnv)
    -- the first GET is served, the second one comes too late, the third one is for another dataset
    (s.threads[2]? = some (.get "primary" "0" (.answered (.file "text/csv" .empty))) ∧
      Gated permissionEngine steps s.log 2 "primary" "0" (.file "text/csv" .empty)) ∧
    (s.threads[4]? = some (.get "primary" "0" (.answered invalidToken)) ∧
      Gated permissionEngine steps s.log 4 "primary" "0" invalidToken) ∧
    (s.threads[5]? = some (.get "other" "1" (.answered wrongDataset)) ∧
      Gated permissionEngine steps s.log 5 "other" "1" wrongDataset) ∧
    (s.threads[6]? = some (.terminate ⟨"next", "primary"⟩ false) ∧ ∀ token,
      (s.next plainEngine Nat.repr permissionEngine sampleHandler .insert
        (.step 6 sampleEnv)).state.tokens.lookup token =
          (s.state.tokens.lookup token).filter fun record => record.flowId ≠ "next") ∧
    .issued "0" ⟨"flow", "primary"⟩ ∈ s.log ∧ s.state.tokens.lookup "0" = none ∧
      ∀ acts', (System.after plainEngine Nat.repr permissionEngine sampleHandler .insert sampleGraph
        (gateActs sampleEnv ++ acts')).state.tokens.lookup "0" = none := by
  obtain ⟨hdoc, hpath, hmedia⟩ := seedRun_sampleGraph.reads plainEngine (List.nodup_singleton _)
    (List.mem_singleton_self _)
  have hallowed : Allowed permissionEngine sampleEnv.now "primary" sampleOffer.document :=
    ⟨_, rfl, rfl⟩
  obtain ⟨hserved, hlate, hother, hpending, hissued, hdead⟩ := after_gateActs sampleHandler .insert
    hdoc hpath hmedia hallowed (rfl : sampleEnv.readFile _ = .ok .empty) rfl
  obtain ⟨hgate, hterminate, hstay⟩ := token_gate plainEngine permissionEngine sampleHandler .insert
    repr_injective sampleGraph (gateActs sampleEnv)
  have hnext := hterminate 6 sampleEnv ⟨"next", "primary"⟩ hpending
  exact ⟨⟨hserved, hgate 2 _ _ _ hserved⟩, ⟨hlate, hgate 4 _ _ _ hlate⟩,
    ⟨hother, hgate 5 _ _ _ hother⟩, ⟨hpending, hnext⟩, hissued, hdead, hstay "0" _ hissued hdead⟩

end DsSqlDps
