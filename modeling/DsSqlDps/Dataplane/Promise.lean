import DsSqlDps.Dataplane.Copies
import DsSqlDps.Dataplane.Gate
import DsSqlDps.Dataplane.Progress
import DsSqlDps.Dataplane.Served

/-!
# What a START promises

A START that succeeds hands out a token. Until its flow is terminated, only the policy and the file
decide how a GET with that token is answered.
-/

namespace DsSqlDps
open Rdf Sparql Machine

/-! ## Sound systems -/

/-- A system whose GETs judge copies of the configured policy and serve the configured file. -/
structure Sound (c : Config) (port : UInt16) (ss : List Seeding) (s : System) : Prop
    extends Copying c port ss s, Serves c port ss s

section
variable {ox : Engine} {uuid : ℕ → String} {pe : PolicyEngine} {c : Config} {port : UInt16}
  {ss : List Seeding} {s : System} {d : String}

theorem Sound.next (hs : Sound c port ss s)
    (hos : ∀ σ ∈ ss, σ.offer = (c.handler port).offerFor σ.offer.datasetId) (a : Act) :
    Sound c port ss (s.next ox uuid pe (c.handler port) .call a) where
  toCopying := hs.toCopying.next hos a
  filled := (hs.toServes.next hos a).filled
  issued := (hs.toServes.next hos a).issued
  found := (hs.toServes.next hos a).found

theorem sound_start {h : FileOfferHandler} {s₀ : ServiceState}
    (hb : build ox c port = .ok (h, s₀)) :
    ∃ ss, Sound c port ss (.start s₀.graph) ∧
      ∀ σ ∈ ss, σ.offer = (c.handler port).offerFor σ.offer.datasetId := by
  obtain ⟨-, ss, hr⟩ := represents_build ox hb
  have hserves : Serves c port ss (.start s₀.graph) := serves_start hr.ledger
  exact ⟨ss, ⟨copying_start hr.ledger, hserves.filled, hserves.issued, hserves.found⟩, hr.offer⟩

/-- The policy of a dataset that is known can be read. -/
theorem Called.exists_policy {h : FileOfferHandler} (hs : Called h ss s) (ox : Engine)
    (hk : Known (ss ++ begun s.log) d) (hd : '>' ∉ d.toList) :
    ∃ header rows, policyHeader ox s.state.graph.store d = .ok header ∧
      policyRows ox s.state.graph.store d = .ok rows := by
  obtain ⟨σ, hσ, hspell⟩ := hk hd
  obtain ⟨τ, -, -, l, -, hdoc⟩ := hs.full.exists_policyJsonld ox hσ hd hspell
  obtain ⟨target, assigner, rows, hh, hr, -⟩ := policyJsonld_eq_ok ox hdoc
  exact ⟨_, rows, hh, hr⟩

end

/-! ## The step that answers a START -/

section
variable {ox : Engine} {uuid : ℕ → String} {pe : PolicyEngine} {h : FileOfferHandler}
  {grain : Grain} {env : Env} {flow : DataFlow} {m : DataFlowStatusMessage}

/-- Only the step that issues a token makes a START succeed. -/
theorem issue_of_stepStart {s : ServiceState} {stage : StartStage}
    (hn : ∀ result, stage ≠ .done result)
    (hm : (stepStart ox uuid h grain env s flow stage).1 = .done (.ok m)) :
    stage = .issue ∧ m = h.startedMessage flow (uuid s.tokens.drawn) := by
  cases stage with
  | check =>
    rw [stepStart] at hm
    cases hf : filePath ox s.graph.store flow.datasetId with
    | ok path => rw [hf] at hm; cases hm
    | error e =>
      rw [hf] at hm
      dsimp only at hm
      split_ifs at hm
      cases hm
  | seed =>
    rw [stepStart] at hm
    cases ha : accepts flow.datasetId with
    | false =>
      obtain ⟨e, he⟩ := stepSeed_of_not_accepts ox h grain s flow ha
      rw [he] at hm
      cases hm
    | true =>
      cases grain with
      | insert => rw [stepSeed_insert ox h s flow ha] at hm; cases hm
      | call => rw [stepSeed_call ox h s flow ha] at hm; cases hm
  | insert base quads =>
    cases quads with
    | nil => cases hm
    | cons q quads =>
      rw [stepStart] at hm
      rcases stepInsert_cases h env s flow base q quads with ⟨e, he⟩ | ⟨-, he⟩ | he <;>
        rw [he] at hm <;> cases hm
  | issue => exact ⟨rfl, (Except.ok.inj (StartStage.done.inj hm)).symm⟩
  | done result => exact absurd rfl (hn result)

theorem exists_issue_of_answer {s : System} {a : Act} {j : ℕ}
    (hr : s.request j = some (.start flow)) (hn : s.answer j = none)
    (hm : (s.next ox uuid pe h grain a).answer j = some (.started (.ok m))) :
    s.threads[j]? = some (.start flow .issue) ∧ (∃ env, a = .step j env) ∧
      m = h.startedMessage flow (uuid s.state.tokens.drawn) := by
  obtain ⟨thread, hj, hreq⟩ := Option.map_eq_some_iff.mp hr
  have hlt := (List.getElem?_eq_some_iff.mp hj).1
  rcases s.next_cases ox uuid pe h grain a with
    ⟨request, -, hnext⟩ | ⟨i, env, rfl, ⟨-, hnext⟩ | ⟨other, result, hi, hstep, hnext⟩⟩
  · rw [hnext, System.answer, List.getElem?_append_left hlt] at hm
    rw [System.answer, hm] at hn
    cases hn
  · rw [hnext, hn] at hm
    cases hm
  · rw [hnext, System.answer] at hm
    dsimp only at hm
    by_cases hij : i = j
    · subst hij
      obtain rfl := Option.some.inj (hj.symm.trans hi)
      rw [List.getElem?_set_self hlt, ← hstep] at hm
      rw [System.answer, hj] at hn
      cases thread with
      | start flow' stage =>
        obtain rfl := Request.start.inj hreq
        have hnot : ∀ result, stage ≠ .done result := by
          rintro result rfl
          cases hn
        have hdone : (stepStart ox uuid h grain env s.state flow' stage).1 = .done (.ok m) := by
          change (Thread.start flow'
            (stepStart ox uuid h grain env s.state flow' stage).1).answer = _ at hm
          generalize (stepStart ox uuid h grain env s.state flow' stage).1 = stage' at hm
          cases stage' with
          | done result => rw [Answer.started.inj (Option.some.inj hm)]
          | check | seed | insert | issue => cases hm
        obtain ⟨rfl, hmessage⟩ := issue_of_stepStart hnot hdone
        exact ⟨hj, ⟨env, rfl⟩, hmessage⟩
      | terminate | get => cases hreq
    · rw [List.getElem?_set_ne hij] at hm
      rw [System.answer, hm] at hn
      cases hn

end

/-! ## Tokens that stay -/

/-- A TERMINATE of the flow was answered after the first of the two systems. -/
def Terminated (flowId : String) (s₁ s : System) : Prop :=
  ∃ k flow, flow.id = flowId ∧ s.request k = some (.terminate flow) ∧ s₁.answer k = none ∧
    s.answer k = some (.terminated (.ok ()))

/-- The second system comes after the first, and the token is one of those drawn. -/
structure Since (uuid : ℕ → String) (token : String) (s₁ s : System) : Prop where
  answers : ∀ i answer, s₁.answer i = some answer → s.answer i = some answer
  drawn : ∃ k < s.state.tokens.drawn, token = uuid k

section
variable {ox : Engine} {uuid : ℕ → String} {pe : PolicyEngine} {h : FileOfferHandler}
  {grain : Grain} {token flowId : String} {record : TokenRecord} {s₁ s : System}

theorem Terminated.next (ht : Terminated flowId s₁ s) (a : Act) :
    Terminated flowId s₁ (s.next ox uuid pe h grain a) := by
  obtain ⟨k, flow, hid, hr, hn, ha⟩ := ht
  exact ⟨k, flow, hid, System.request_next hr ox uuid pe h grain a, hn, answer_next ha a⟩

theorem Since.next (hs : Since uuid token s₁ s) (a : Act) :
    Since uuid token s₁ (s.next ox uuid pe h grain a) where
  answers i answer ha := answer_next (hs.answers i answer ha) a
  drawn := by
    obtain ⟨k, hk, htoken⟩ := hs.drawn
    refine ⟨k, hk.trans_le ?_, htoken⟩
    rcases s.next_cases ox uuid pe h grain a with
      ⟨request, -, hn⟩ | ⟨i, env, -, ⟨-, hn⟩ | ⟨thread, result, -, hr, hn⟩⟩
    · rw [hn]
    · rw [hn]
    · rw [hn]
      rcases stepThread_tokens thread hr with ⟨ht, -⟩ | ⟨flow, -, ht, -⟩ | ⟨flow, -, ht, -⟩ <;>
        simp [ht]

/-- A token goes only with a TERMINATE of its flow. -/
theorem Since.live_next (hs : Since uuid token s₁ s) (hu : Function.Injective uuid)
    (hl : s.state.tokens.lookup token = some record) (a : Act) :
    Terminated record.flowId s₁ (s.next ox uuid pe h grain a) ∨
      (s.next ox uuid pe h grain a).state.tokens.lookup token = some record := by
  rcases s.next_cases ox uuid pe h grain a with
    ⟨request, -, hn⟩ | ⟨i, env, -, ⟨-, hn⟩ | ⟨thread, result, hi, hr, hn⟩⟩
  · rw [hn]
    exact Or.inr hl
  · rw [hn]
    exact Or.inr hl
  · rw [hn]
    dsimp only
    rcases stepThread_tokens thread hr with ⟨ht, -⟩ | ⟨flow, -, ht, -⟩ | ⟨flow, rfl, ht, -⟩
    · rw [ht]
      exact Or.inr hl
    · -- a token that is new is another one
      obtain ⟨k, hk, rfl⟩ := hs.drawn
      rw [ht, TokenStore.lookup_issue, if_neg fun he => absurd (hu he) (Nat.ne_of_lt hk)]
      exact Or.inr hl
    · by_cases hf : flow.id = record.flowId
      · have hlt := (List.getElem?_eq_some_iff.mp hi).1
        have hnone : s₁.answer i = none := by
          by_contra hne
          obtain ⟨answer, ha⟩ := Option.ne_none_iff_exists'.mp hne
          have ha' := hs.answers i answer ha
          rw [System.answer, hi] at ha'
          cases ha'
        refine Or.inl ⟨i, flow, hf, ?_, hnone, ?_⟩
        · rw [System.request, List.getElem?_set_self hlt, ← hr]
          rfl
        · rw [System.answer, List.getElem?_set_self hlt, ← hr]
          rfl
      · rw [ht, TokenStore.lookup_revokeFlow, hl]
        exact Or.inr (Option.filter_eq_some_iff.mpr ⟨rfl, decide_eq_true (Ne.symm hf)⟩)

end

/-! ## The GETs -/

/-- The policy is the configured one, with its permission repeated. -/
def CopiesConfigured (c : Config) (d : String) (doc : Json.Value) : Prop :=
  ∃ e k, spelled d = some e ∧ 0 < k ∧ doc = copiesOf c d e k

section
variable (pe : PolicyEngine) (c : Config) (steps : List (System × Act)) (i : ℕ) (d token : String)

/-- A step of the GET judged the configured policy, and allowed the request. -/
def AllowedInStep : Prop :=
  JudgedInStep steps i d token fun doc env => CopiesConfigured c d doc ∧ Allowed pe env.now d doc

/-- The responses that a live token leaves: a refusal by the configured policy, or what becomes of
the configured file. -/
def Promised (response : Response) : Prop :=
  (JudgedInStep steps i d token fun doc env =>
    CopiesConfigured c d doc ∧ refusal pe env.now d doc = some response) ∨
  AllowedInStep pe c steps i d token ∧
    ReadInStep steps i d token (Reference.servedPath c) fun env =>
      response = fileResponse env.toHost (Reference.servedPath c) c.mediaType

/-- What is known of a GET that is past the policy, or done. -/
def PromisedGet : GetStage → Prop
  | .path | .media _ => AllowedInStep pe c steps i d token
  | .answered response => Promised pe c steps i d token response
  | _ => True

def Thread.Promised : Thread → Prop
  | .get d' t stage => d' = d → t = token → PromisedGet pe c steps i d token stage
  | _ => True

end

/-- The token of the GET is not live for its dataset, or there is no policy. -/
def TurnedAway (ox : Engine) (s : ServiceState) (d token : String) : GetStage → Prop
  | .lookup => ∀ record, s.tokens.lookup token = some record → record.datasetId ≠ d
  | .header => ∀ header, policyHeader ox s.graph.store d ≠ .ok header
  | .rows _ => ∀ rows, policyRows ox s.graph.store d ≠ .ok rows
  | _ => False

/-- The token is live, and the GETs with it that came after the first system are answered as
promised. -/
structure Honours (pe : PolicyEngine) (c : Config) (steps : List (System × Act)) (token : String)
    (record : TokenRecord) (s₁ s : System) : Prop where
  live : s.state.tokens.lookup token = some record
  gets : ∀ (i : ℕ) (thread : Thread), s.threads[i]? = some thread → s₁.threads[i]? = none →
    thread.Promised pe c steps i record.datasetId token

section
variable {ox : Engine} {uuid : ℕ → String} {pe : PolicyEngine} {c : Config} {port : UInt16}
  {ss : List Seeding} {steps : List (System × Act)} {s₁ s : System} {d token : String}
  {record : TokenRecord} {i : ℕ} {env : Env}

variable (ox) in
/-- A step of a GET turns it away, or leads to what is promised. -/
theorem Sound.promised_stepGet (hs : Sound c port ss s)
    (hos : ∀ σ ∈ ss, σ.offer = (c.handler port).offerFor σ.offer.datasetId)
    (ha : (s, Act.step i env) ∈ steps) (hd : '>' ∉ d.toList) {stage : GetStage}
    (hi : s.threads[i]? = some (.get d token stage))
    (hp : PromisedGet pe c steps i d token stage) :
    TurnedAway ox s.state d token stage ∧
        (∃ status message, (stepGet ox pe env.toHost i s.state d token stage).1 =
          .answered (.text status message)) ∨
      PromisedGet pe c steps i d token (stepGet ox pe env.toHost i s.state d token stage).1 := by
  cases stage with
  | lookup =>
    rw [stepGet]
    cases hl : s.state.tokens.lookup token with
    | none =>
      refine Or.inl ⟨fun record hr => ?_, _, _, rfl⟩
      rw [hl] at hr
      cases hr
    | some record =>
      dsimp only
      split_ifs with hne
      · refine Or.inl ⟨fun record' hr => ?_, _, _, rfl⟩
        rw [← Option.some.inj (hl.symm.trans hr)]
        exact hne
      · exact Or.inr trivial
  | header =>
    rw [stepGet]
    cases hh : policyHeader ox s.state.graph.store d with
    | error e =>
      refine Or.inl ⟨fun header hok => ?_, _, _, rfl⟩
      rw [hh] at hok
      cases hok
    | ok header => exact Or.inr trivial
  | rows header =>
    rw [stepGet]
    cases hr : policyRows ox s.state.graph.store d with
    | error e =>
      refine Or.inl ⟨fun rows hok => ?_, _, _, rfl⟩
      rw [hr] at hok
      cases hok
    | ok rows => exact Or.inr trivial
  | judge doc =>
    obtain ⟨e, k, ⟨hspell, -⟩, hpos, -, hdoc⟩ := hs.copied i _ hi hd
    have hcopies : CopiesConfigured c d doc := ⟨e, k, hspell, hpos, hdoc⟩
    rw [stepGet]
    cases hr : refusal pe env.now d doc with
    | some response => exact Or.inr (Or.inl ⟨doc, s, env, ⟨ha, hi⟩, hcopies, hr⟩)
    | none => exact Or.inr ⟨doc, s, env, ⟨ha, hi⟩, hcopies, refusal_eq_none_iff.mp hr⟩
  | path =>
    rw [stepGet, FoundIn.filePath_eq ox (hs.found i _ hi hd) hs.graph hos hd]
    exact Or.inr hp
  | media path =>
    obtain ⟨hfound, rfl⟩ := hs.found i _ hi hd
    rw [stepGet, hfound.mediaType_eq ox hs.graph hos hd]
    exact Or.inr (Or.inr ⟨hp, s, env, ⟨ha, hi⟩, rfl⟩)
  | answered response => exact Or.inr hp

/-- A GET with a live token for a dataset that is known is not turned away. -/
theorem Sound.not_turnedAway (hs : Sound c port ss s)
    (hk : Known (ss ++ begun s.log) record.datasetId) (hd : '>' ∉ record.datasetId.toList)
    (hl : s.state.tokens.lookup token = some record) (stage : GetStage) :
    ¬ TurnedAway ox s.state record.datasetId token stage := by
  obtain ⟨header, rows, hheader, hrows⟩ := hs.toCalled.exists_policy ox hk hd
  cases stage with
  | lookup => exact fun ht => ht record hl rfl
  | header => exact fun ht => ht header hheader
  | rows header => exact fun ht => ht rows hrows
  | judge | path | media | answered => exact id

/-- A system keeps its promise with a token, or a TERMINATE of the flow has come in between. -/
structure Keeps (uuid : ℕ → String) (pe : PolicyEngine) (c : Config) (port : UInt16)
    (ss : List Seeding) (steps : List (System × Act)) (token : String) (record : TokenRecord)
    (s₁ s : System) : Prop extends Sound c port ss s, Since uuid token s₁ s where
  known : Known (ss ++ begun s.log) record.datasetId
  honours : Terminated record.flowId s₁ s ∨ Honours pe c steps token record s₁ s

theorem Keeps.next (hs : Keeps uuid pe c port ss steps token record s₁ s)
    (hos : ∀ σ ∈ ss, σ.offer = (c.handler port).offerFor σ.offer.datasetId)
    (hu : Function.Injective uuid) (hd : '>' ∉ record.datasetId.toList) {a : Act}
    (ha : (s, a) ∈ steps) :
    Keeps uuid pe c port ss steps token record s₁
      (s.next ox uuid pe (c.handler port) .call a) where
  toSound := hs.toSound.next hos a
  toSince := hs.toSince.next a
  known := by
    rcases s.next_cases ox uuid pe (c.handler port) .call a with
      ⟨request, -, hn⟩ | ⟨i, env, -, ⟨-, hn⟩ | ⟨thread, result, -, hr, hn⟩⟩
    · rw [hn]
      exact hs.known
    · rw [hn]
      exact hs.known
    · rw [hn]
      exact hs.known.append result.2.2
  honours := by
    rcases hs.honours with ht | hh
    · exact Or.inl (ht.next a)
    rcases hs.toSince.live_next hu hh.live a with ht | hlive
    · exact Or.inl ht
    refine Or.inr ⟨hlive, ?_⟩
    refine forall_threads_next (P := fun _ _ i thread => s₁.threads[i]? = none →
      thread.Promised pe c steps i record.datasetId token) hh.gets ?_ ?_
    · intro i request _
      cases request with
      | start | terminate => trivial
      | get d t => exact fun _ _ => trivial
    · rintro i env thread result rfl hi hr
      refine ⟨fun hnone => ?_, fun j other _ ho => ho⟩
      subst hr
      cases thread with
      | start flow stage => trivial
      | terminate flow done => cases done <;> trivial
      | get d t stage =>
        rintro rfl rfl
        rcases hs.promised_stepGet ox hos ha hd hi (hh.gets i _ hi hnone rfl rfl) with ⟨ht, -⟩ | hp
        · exact absurd ht (hs.not_turnedAway hs.known hd hh.live stage)
        · exact hp

theorem Keeps.run {acts : List Act}
    (hs : Keeps uuid pe c port ss (System.history ox uuid pe (c.handler port) .call s acts) token
      record s₁ s)
    (hos : ∀ σ ∈ ss, σ.offer = (c.handler port).offerFor σ.offer.datasetId)
    (hu : Function.Injective uuid) (hd : '>' ∉ record.datasetId.toList) :
    Keeps uuid pe c port ss (System.history ox uuid pe (c.handler port) .call s acts) token record
      s₁ (Machine.run (System.next ox uuid pe (c.handler port) .call) s acts) :=
  invariant_of_history (fun _ hp hk => hk.next hos hu hd hp) hs

/-- The step that answers a START makes a promise. -/
theorem Sound.keeps_of_answer (hs : Sound c port ss s)
    (hos : ∀ σ ∈ ss, σ.offer = (c.handler port).offerFor σ.offer.datasetId) {a : Act} {j : ℕ}
    {flow : DataFlow} {m : DataFlowStatusMessage} (hr : s.request j = some (.start flow))
    (hn : s.answer j = none)
    (hm : (s.next ox uuid pe (c.handler port) .call a).answer j = some (.started (.ok m)))
    (steps : List (System × Act)) :
    ∃ token, m = (c.handler port).startedMessage flow token ∧
      Keeps uuid pe c port ss steps token ⟨flow.id, flow.datasetId⟩
        (s.next ox uuid pe (c.handler port) .call a)
        (s.next ox uuid pe (c.handler port) .call a) := by
  obtain ⟨hj, ⟨env, rfl⟩, hmessage⟩ := exists_issue_of_answer hr hn hm
  have hk : Known (ss ++ begun s.log) flow.datasetId := hs.threads j _ hj
  have hnext : s.next ox uuid pe (c.handler port) .call (.step j env) =
      ⟨{ s.state with tokens := (s.state.tokens.issue uuid flow.id flow.datasetId).2 },
        s.threads.set j (.start flow (.done (.ok
          ((c.handler port).startedMessage flow (uuid s.state.tokens.drawn))))),
        s.log ++ [.issued (uuid s.state.tokens.drawn) ⟨flow.id, flow.datasetId⟩]⟩ := by
    rw [System.next, hj]
    rfl
  refine ⟨_, hmessage, hs.next hos _, ⟨fun _ _ ha => ha, ?_⟩, ?_,
    Or.inr ⟨?_, fun i thread hi hnone => ?_⟩⟩
  · rw [hnext]
    exact ⟨_, Nat.lt_succ_self _, rfl⟩
  · rw [hnext]
    exact hk.append _
  · rw [hnext]
    exact if_pos rfl
  · rw [hnone] at hi
    cases hi

end

/-- What a START promises is kept. Whatever the interleaving, a GET that arrives after a START was
answered, with its token and for its dataset, is refused by the configured policy when it judges it,
or allowed by it and given what becomes of the configured file when it reads it, unless a TERMINATE
of the flow was answered in between. The path is the configured one if that is UTF-8. In TCK mode
this takes seedings that run as a whole. -/
theorem started_flow_served (ox : Engine) {uuid : ℕ → String} (hu : Function.Injective uuid)
    (pe : PolicyEngine) {c : Config} {port : UInt16} {h : FileOfferHandler} {s₀ : ServiceState}
    (hb : build ox c port = .ok (h, s₀)) {grain : Grain}
    (hmode : c.tckMode = false ∨ grain = .call) (acts : List Act) {a : Act} (j : ℕ)
    (flow : DataFlow) {m : DataFlowStatusMessage}
    (hr : (System.after ox uuid pe h grain s₀.graph acts).request j = some (.start flow))
    (hn : (System.after ox uuid pe h grain s₀.graph acts).answer j = none)
    (hm : (System.after ox uuid pe h grain s₀.graph (acts ++ [a])).answer j =
      some (.started (.ok m)))
    (hd : '>' ∉ flow.datasetId.toList) (acts' : List Act) :
    let s := System.after ox uuid pe h grain s₀.graph (acts ++ [a])
    let s' := System.after ox uuid pe h grain s₀.graph (acts ++ [a] ++ acts')
    ∃ token, m = h.startedMessage flow token ∧
      ∀ i response, s.request i = none → s'.request i = some (.get flow.datasetId token) →
        s'.answer i = some (.got response) →
          Terminated flow.id s s' ∨ Promised pe c (System.history ox uuid pe h grain s acts') i
            flow.datasetId token response := by
  obtain ⟨rfl, -, -⟩ := build_cases hb
  have hgrain := after_eq_call ox uuid pe (h := c.handler port) hmode s₀.graph
  rw [hgrain] at hr hn hm
  rw [hgrain, hgrain]
  dsimp only
  rw [history_after_eq_call ox uuid pe hmode]
  obtain ⟨ss, hstart, hos⟩ := sound_start hb
  have hs : Sound c port ss (System.after ox uuid pe (c.handler port) .call s₀.graph acts) :=
    Machine.invariant (fun _ a hs => hs.next hos a) hstart acts
  have hlast : System.after ox uuid pe (c.handler port) .call s₀.graph (acts ++ [a]) =
      (System.after ox uuid pe (c.handler port) .call s₀.graph acts).next ox uuid pe
        (c.handler port) .call a := System.after_append ox uuid pe _ _ _ acts [a]
  rw [hlast] at hm
  obtain ⟨token, hmessage, hkeeps⟩ := hs.keeps_of_answer hos hr hn hm
    (System.history ox uuid pe (c.handler port) .call
      (System.after ox uuid pe (c.handler port) .call s₀.graph (acts ++ [a])) acts')
  rw [← hlast] at hkeeps
  have hrun := hkeeps.run hos hu hd
  rw [← System.after_append] at hrun
  refine ⟨token, hmessage, fun i response hnone hget hgot => ?_⟩
  rcases hrun.honours with ht | hh
  · exact Or.inl ht
  obtain ⟨thread, hi, hreq⟩ := Option.map_eq_some_iff.mp hget
  have hgot' : thread.answer = some (.got response) := by
    rw [System.answer, hi] at hgot
    exact hgot
  have hpromised := hh.gets i thread hi (Option.map_eq_none_iff.mp hnone)
  cases thread with
  | start | terminate => cases hreq
  | get d t stage =>
    obtain ⟨rfl, rfl⟩ := Request.get.inj hreq
    cases stage with
    | answered response' =>
      obtain rfl := Answer.got.inj (Option.some.inj hgot')
      exact Or.inr (hpromised rfl rfl)
    | lookup | header | rows | judge | path | media => cases hgot'

theorem startedMessage_injective (h : FileOfferHandler) (flow : DataFlow) :
    Function.Injective (h.startedMessage flow) := by
  intro t t' he
  simpa [FileOfferHandler.startedMessage] using he

/-- The file is served, and nobody has terminated the flow. -/
theorem started_flow_served_sample : ∃ s₀ h bytes,
    build plainEngine { sampleConfig with policyNotAfter := none } 9192 = .ok (h, s₀) ∧
    (let s := System.after plainEngine Nat.repr permissionEngine h .call s₀.graph
      (startingActs sampleEnv ++ [.step 0 sampleEnv])
    let s' := System.after plainEngine Nat.repr permissionEngine h .call s₀.graph
      (startingActs sampleEnv ++ [.step 0 sampleEnv] ++ gettingActs sampleEnv)
    s'.answer 1 = some (.got (.file "text/csv" bytes)) ∧
      (Terminated "flow" s s' ∨ Promised permissionEngine
        { sampleConfig with policyNotAfter := none }
        (System.history plainEngine Nat.repr permissionEngine h .call s (gettingActs sampleEnv)) 1
        "primary" "0" (.file "text/csv" bytes))) := by
  have ha : accepts ({ sampleConfig with policyNotAfter := none } : Config).fileOffer.datasetId =
    true := accepts_sampleOffer
  obtain ⟨s₀, hb⟩ := build_of_accepts plainEngine 9192 ha
  obtain ⟨-, ss, hr⟩ := represents_build plainEngine hb
  obtain ⟨hdoc, hpath, hmedia⟩ := hr.reads plainEngine (d := "primary") (by decide)
  obtain ⟨hissue, hdone⟩ := after_startingActs hpath permissionEngine
    (({ sampleConfig with policyNotAfter := none } : Config).handler 9192) .call sampleEnv
  have hserved := after_gettingActs hpath permissionEngine
    (({ sampleConfig with policyNotAfter := none } : Config).handler 9192) .call sampleEnv hdoc
    hmedia ⟨_, rfl, rfl⟩ rfl rfl
  have hanswer := congrArg (·.bind Thread.answer) hserved
  have hrequest := congrArg (·.map Thread.request) hserved
  refine ⟨s₀, _, _, hb, hanswer, ?_⟩
  obtain ⟨token, hm, hkept⟩ := started_flow_served plainEngine repr_injective permissionEngine hb
    (Or.inr rfl) (startingActs sampleEnv) 0 ⟨"flow", "primary"⟩
    (by rw [System.request, hissue]; rfl) (by rw [System.answer, hissue]; rfl)
    (by rw [System.answer, hdone]; rfl) (by decide +kernel) (gettingActs sampleEnv)
  obtain rfl : "0" = token := startedMessage_injective _ _ hm
  exact hkept 1 _ (by rw [System.request, hdone]; rfl) hrequest hanswer

end DsSqlDps
