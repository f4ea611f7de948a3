import DsSqlDps.Dataplane.Public
import DsSqlDps.Lib.Histories

/-!
# Interleaved requests

START, TERMINATE and GET requests that take their steps in any order. A step is a query, an
operation on the tokens, or either one insertion of a seeding or all of them. The log is a history
that no step reads.
-/

namespace DsSqlDps
open Rdf

/-- What one step of a seeding is: a single insertion, which may fail, or the whole call. -/
inductive Grain
  | insert
  | call
deriving DecidableEq, Repr

/-- What a step meets outside of the service. -/
structure Env extends Host where
  insertError : Option String

inductive Request
  | start (flow : DataFlow)
  | terminate (flow : DataFlow)
  | get (datasetId token : String)

/-- The step that a START takes next. -/
inductive StartStage
  | check
  | seed
  /-- The blank nodes of the seeding start at `base`; the quads are still to be inserted. -/
  | insert (base : ℕ) (quads : List Quad)
  | issue
  | done (result : Except HandlerError DataFlowStatusMessage)

/-- The step that a GET takes next. -/
inductive GetStage
  | lookup
  | header
  | rows (targetAssigner : String × String)
  | judge (policy : Json.Value)
  | path
  | media (path : PathBuf)
  | answered (response : Response)

inductive Thread
  | start (flow : DataFlow) (stage : StartStage)
  | terminate (flow : DataFlow) (done : Bool)
  | get (datasetId token : String) (stage : GetStage)

def Request.thread : Request → Thread
  | .start flow => .start flow .check
  | .terminate flow => .terminate flow false
  | .get datasetId token => .get datasetId token .lookup

inductive Event
  | begun (seeding : Seeding)
  | finished (seeding : Seeding)
  | issued (token : String) (record : TokenRecord)
  | revoked (flowId : String)
  | lookedUp (thread : ℕ) (datasetId token : String)
  | policyRead (thread : ℕ) (datasetId : String) (policy : Json.Value)

section
variable (ox : Sparql.Engine) (uuid : ℕ → String) (pe : PolicyEngine) (h : FileOfferHandler)
  (grain : Grain)

/-! ## START -/

/-- Where a seeding stands with the quads that are still to be inserted. -/
def inserting (σ : Seeding) : List Quad → StartStage × List Event
  | [] => (.issue, [.finished σ])
  | quads => (.insert σ.base quads, [])

/-- The call of `seed_offer`, in which no insertion fails, or its beginning. -/
def stepSeed (s : ServiceState) (flow : DataFlow) : StartStage × ServiceState × List Event :=
  let σ : Seeding := ⟨h.offerFor flow.datasetId, s.graph.fresh⟩
  match grain with
  | .call =>
    match seedOffer ox noFaults s.graph σ.offer with
    | (.ok (), graph) => (.issue, { s with graph := graph }, [.begun σ, .finished σ])
    | (.error e, graph) =>
      (.done (.error (FileOfferHandler.seedFailed flow.datasetId e)), { s with graph := graph }, [])
  | .insert =>
    match offerQuads ox s.graph.fresh σ.offer with
    | .error e => (.done (.error (FileOfferHandler.seedFailed flow.datasetId e)), s, [])
    | .ok quads =>
      let (stage, events) := inserting σ quads
      (stage, { s with graph := ⟨s.graph.store, s.graph.fresh + σ.offer.blanks⟩ },
        .begun σ :: events)

/-- One insertion of the seeding that starts at `base`. -/
def stepInsert (env : Env) (s : ServiceState) (flow : DataFlow) (base : ℕ) :
    List Quad → StartStage × ServiceState × List Event
  | [] => (.insert base [], s, [])
  | quad :: quads =>
    match env.insertError with
    | some e => (.done (.error (FileOfferHandler.seedFailed flow.datasetId (.storage e))), s, [])
    | none =>
      let (stage, events) := inserting ⟨h.offerFor flow.datasetId, base⟩ quads
      (stage, { s with graph := ⟨s.graph.store.insert quad, s.graph.fresh⟩ }, events)

def stepStart (env : Env) (s : ServiceState) (flow : DataFlow) :
    StartStage → StartStage × ServiceState × List Event
  | .check =>
    match filePath ox s.graph.store flow.datasetId with
    | .ok _ => (.issue, s, [])
    | .error e =>
      if h.tckMode then (.seed, s, [])
      else (.done (.error (FileOfferHandler.unknownDataset flow.datasetId e)), s, [])
  | .seed => stepSeed ox h grain s flow
  | .insert base quads => stepInsert h env s flow base quads
  | .issue =>
    let (token, tokens) := s.tokens.issue uuid flow.id flow.datasetId
    (.done (.ok (h.startedMessage flow token)), { s with tokens := tokens },
      [.issued token ⟨flow.id, flow.datasetId⟩])
  | .done result => (.done result, s, [])

/-! ## GET -/

/-- A step of the GET with the thread number `i`; it changes nothing. -/
def stepGet (host : Host) (i : ℕ) (s : ServiceState) (datasetId token : String) :
    GetStage → GetStage × List Event
  | .lookup =>
    match s.tokens.lookup token with
    | none => (.answered invalidToken, [.lookedUp i datasetId token])
    | some record =>
      if record.datasetId ≠ datasetId then
        (.answered wrongDataset, [.lookedUp i datasetId token])
      else (.header, [.lookedUp i datasetId token])
  | .header =>
    match policyHeader ox s.graph.store datasetId with
    | .error e => (.answered (policyUnreadable e), [])
    | .ok header => (.rows header, [])
  | .rows (target, assigner) =>
    match policyRows ox s.graph.store datasetId with
    | .error e => (.answered (policyUnreadable e), [])
    | .ok rows =>
      let doc := policyObject (policyIri datasetId) target assigner (permissionEntries rows)
      (.judge doc, [.policyRead i datasetId doc])
  | .judge doc =>
    match refusal pe host.now datasetId doc with
    | some response => (.answered response, [])
    | none => (.path, [])
  | .path =>
    match filePath ox s.graph.store datasetId with
    | .error e => (.answered (pathUnreadable e), [])
    | .ok path => (.media path, [])
  | .media path =>
    (.answered (fileResponse host path (mediaOrDefault (mediaType ox s.graph.store datasetId))), [])
  | .answered response => (.answered response, [])

/-! ## The system -/

def stepThread (i : ℕ) (env : Env) (s : ServiceState) :
    Thread → Thread × ServiceState × List Event
  | .start flow stage =>
    let (stage, s, events) := stepStart ox uuid h grain env s flow stage
    (.start flow stage, s, events)
  | .terminate flow false =>
    (.terminate flow true, { s with tokens := s.tokens.revokeFlow flow.id }, [.revoked flow.id])
  | .terminate flow true => (.terminate flow true, s, [])
  | .get datasetId token stage =>
    let (stage, events) := stepGet ox pe env.toHost i s datasetId token stage
    (.get datasetId token stage, s, events)

structure System where
  state : ServiceState
  threads : List Thread
  log : List Event

/-- The service before any request. -/
def System.start (graph : ConfigGraph) : System := ⟨⟨graph, .empty⟩, [], []⟩

inductive Act
  | spawn (request : Request)
  | step (i : ℕ) (env : Env)

namespace System

def next (s : System) : Act → System
  | .spawn request => { s with threads := s.threads ++ [request.thread] }
  | .step i env =>
    match s.threads[i]? with
    | none => s
    | some thread =>
      let (thread, state, events) := stepThread ox uuid pe h grain i env s.state thread
      ⟨state, s.threads.set i thread, s.log ++ events⟩

/-- The system after the actions. -/
def after (graph : ConfigGraph) (acts : List Act) : System :=
  Machine.run (next ox uuid pe h grain) (start graph) acts

/-- The steps of a run, each with the system before it. -/
def history (s : System) (acts : List Act) : List (System × Act) :=
  Machine.history (next ox uuid pe h grain) s acts

theorem after_append (graph : ConfigGraph) (acts acts' : List Act) :
    after ox uuid pe h grain graph (acts ++ acts') =
      Machine.run (next ox uuid pe h grain) (after ox uuid pe h grain graph acts) acts' :=
  Machine.run_append _ _ _ _

end System

end

section
variable (steps : List (System × Act)) (i : ℕ)

/-- The thread `i` took a step from here, in the system `s`, and met this outside of it. -/
def Stepped (thread : Thread) (s : System) (env : Env) : Prop :=
  (s, Act.step i env) ∈ steps ∧ s.threads[i]? = some thread

/-- A step of the GET judged a policy of which `P` holds, with what the step met. -/
def JudgedInStep (datasetId token : String) (P : Json.Value → Env → Prop) : Prop :=
  ∃ doc s env, Stepped steps i (.get datasetId token (.judge doc)) s env ∧ P doc env

/-- A step of the GET read the file at the path, and met what `P` holds of. -/
def ReadInStep (datasetId token : String) (path : PathBuf) (P : Env → Prop) : Prop :=
  ∃ s env, Stepped steps i (.get datasetId token (.media path)) s env ∧ P env

end

theorem JudgedInStep.mono {steps : List (System × Act)} {i : ℕ} {datasetId token : String}
    {P Q : Json.Value → Env → Prop} (h : JudgedInStep steps i datasetId token P)
    (hPQ : ∀ doc env, P doc env → Q doc env) : JudgedInStep steps i datasetId token Q := by
  obtain ⟨doc, s, env, hstep, hp⟩ := h
  exact ⟨doc, s, env, hstep, hPQ doc env hp⟩

/-! ## What a step can do -/

section
variable {ox : Sparql.Engine} {uuid : ℕ → String} {pe : PolicyEngine} {h : FileOfferHandler}
  {grain : Grain} {i : ℕ} {env : Env} {s : ServiceState} {flow : DataFlow}

/-- An event about tokens. -/
def Event.OfTokens : Event → Prop
  | .issued _ _ | .revoked _ => True
  | _ => False

/-- An event about seedings. -/
def Event.OfSeeding : Event → Prop
  | .begun _ | .finished _ => True
  | _ => False

theorem inserting_cases (σ : Seeding) (quads : List Quad) :
    (quads = [] ∧ inserting σ quads = (.issue, [.finished σ])) ∨
    (quads ≠ [] ∧ inserting σ quads = (.insert σ.base quads, [])) := by
  cases quads with
  | nil => exact Or.inl ⟨rfl, rfl⟩
  | cons q quads => exact Or.inr ⟨by simp, rfl⟩

theorem stepGet_events (host : Host) (s : ServiceState) (datasetId token : String)
    (stage : GetStage) :
    ∀ e ∈ (stepGet ox pe host i s datasetId token stage).2, ¬ e.OfTokens ∧ ¬ e.OfSeeding := by
  cases stage with
  | lookup =>
    rw [stepGet]
    cases s.tokens.lookup token with
    | none => simp [Event.OfTokens, Event.OfSeeding]
    | some record => dsimp only; split_ifs <;> simp [Event.OfTokens, Event.OfSeeding]
  | header => rw [stepGet]; cases policyHeader ox s.graph.store datasetId <;> simp
  | rows th =>
    rw [stepGet]
    cases policyRows ox s.graph.store datasetId <;> simp [Event.OfTokens, Event.OfSeeding]
  | judge doc => rw [stepGet]; cases refusal pe host.now datasetId doc <;> simp
  | path => rw [stepGet]; cases filePath ox s.graph.store datasetId <;> simp
  | media path => simp [stepGet]
  | answered response => simp [stepGet]

theorem stepSeed_tokens (s : ServiceState) (flow : DataFlow) :
    (stepSeed ox h grain s flow).2.1.tokens = s.tokens ∧
      ∀ e ∈ (stepSeed ox h grain s flow).2.2, ¬ e.OfTokens := by
  cases grain with
  | call =>
    rw [stepSeed]
    rcases seedOffer ox noFaults s.graph (h.offerFor flow.datasetId) with ⟨_ | _, g⟩ <;>
      simp [Event.OfTokens]
  | insert =>
    rw [stepSeed]
    cases offerQuads ox s.graph.fresh (h.offerFor flow.datasetId) with
    | error e => simp
    | ok quads =>
      rcases inserting_cases ⟨h.offerFor flow.datasetId, s.graph.fresh⟩ quads with
        ⟨-, hi⟩ | ⟨-, hi⟩ <;> simp [hi, Event.OfTokens]

theorem stepInsert_tokens (env : Env) (s : ServiceState) (flow : DataFlow) (base : ℕ)
    (quads : List Quad) :
    (stepInsert h env s flow base quads).2.1.tokens = s.tokens ∧
      ∀ e ∈ (stepInsert h env s flow base quads).2.2, ¬ e.OfTokens := by
  cases quads with
  | nil => simp [stepInsert]
  | cons q quads =>
    rw [stepInsert]
    cases env.insertError with
    | some e => simp
    | none =>
      rcases inserting_cases ⟨h.offerFor flow.datasetId, base⟩ quads with ⟨-, hi⟩ | ⟨-, hi⟩ <;>
        simp [hi, Event.OfTokens]

/-- What a step does to the tokens, and what it logs of them. -/
theorem stepThread_tokens (thread : Thread) {result : Thread × ServiceState × List Event}
    (hr : stepThread ox uuid pe h grain i env s thread = result) :
    (result.2.1.tokens = s.tokens ∧ ∀ e ∈ result.2.2, ¬ e.OfTokens) ∨
    (∃ flow, thread = .start flow .issue ∧
      result.2.1.tokens = (s.tokens.issue uuid flow.id flow.datasetId).2 ∧
      result.2.2 = [.issued (uuid s.tokens.drawn) ⟨flow.id, flow.datasetId⟩]) ∨
    (∃ flow, thread = .terminate flow false ∧
      result.2.1.tokens = s.tokens.revokeFlow flow.id ∧ result.2.2 = [.revoked flow.id]) := by
  subst hr
  cases thread with
  | start flow stage =>
    cases stage with
    | check =>
      refine Or.inl ?_
      rw [stepThread, stepStart]
      cases filePath ox s.graph.store flow.datasetId with
      | ok path => simp
      | error e => dsimp only; split_ifs <;> simp
    | seed => exact Or.inl (stepSeed_tokens s flow)
    | insert base quads => exact Or.inl (stepInsert_tokens env s flow base quads)
    | issue => exact Or.inr (Or.inl ⟨flow, rfl, rfl, rfl⟩)
    | done result => exact Or.inl ⟨rfl, fun e he => absurd he List.not_mem_nil⟩
  | terminate flow done =>
    cases done with
    | false => exact Or.inr (Or.inr ⟨flow, rfl, rfl, rfl⟩)
    | true => exact Or.inl ⟨rfl, fun e he => absurd he List.not_mem_nil⟩
  | get d t stage => exact Or.inl ⟨rfl, fun e he => (stepGet_events _ s d t stage e he).1⟩

variable (ox uuid pe h grain) in
/-- What an action does: nothing, a new thread, or a step of one of the threads. -/
theorem System.next_cases (s : System) (a : Act) :
    (∃ request, a = .spawn request ∧
      s.next ox uuid pe h grain a = { s with threads := s.threads ++ [request.thread] }) ∨
    (∃ i env, a = .step i env ∧
      (s.threads[i]? = none ∧ s.next ox uuid pe h grain a = s ∨
      ∃ thread result, s.threads[i]? = some thread ∧
        stepThread ox uuid pe h grain i env s.state thread = result ∧
        s.next ox uuid pe h grain a =
          ⟨result.2.1, s.threads.set i result.1, s.log ++ result.2.2⟩)) := by
  cases a with
  | spawn request => exact Or.inl ⟨request, rfl, rfl⟩
  | step i env =>
    refine Or.inr ⟨i, env, rfl, ?_⟩
    rw [System.next]
    cases s.threads[i]? with
    | none => exact Or.inl ⟨rfl, rfl⟩
    | some thread => exact Or.inr ⟨thread, _, rfl, rfl, rfl⟩

/-- What holds of every thread still does after an action, if it holds of new threads, and if a step
keeps it for the thread that takes it and for the others. -/
theorem forall_threads_next {P : ServiceState → List Event → ℕ → Thread → Prop} {s : System}
    {a : Act} (hold : ∀ i thread, s.threads[i]? = some thread → P s.state s.log i thread)
    (hnew : ∀ i request, P s.state s.log i (Request.thread request))
    (hstep : ∀ i env thread result, a = .step i env → s.threads[i]? = some thread →
      stepThread ox uuid pe h grain i env s.state thread = result →
      P result.2.1 (s.log ++ result.2.2) i result.1 ∧ ∀ j other, s.threads[j]? = some other →
        P s.state s.log j other → P result.2.1 (s.log ++ result.2.2) j other) :
    ∀ i thread, (s.next ox uuid pe h grain a).threads[i]? = some thread →
      P (s.next ox uuid pe h grain a).state (s.next ox uuid pe h grain a).log i thread := by
  intro j thread hj
  rcases s.next_cases ox uuid pe h grain a with
    ⟨request, -, hn⟩ | ⟨i, env, ha, ⟨-, hn⟩ | ⟨old, result, hi, hr, hn⟩⟩
  · rw [hn] at hj ⊢
    dsimp only at hj ⊢
    -- the new thread is the last one
    rw [List.getElem?_append] at hj
    split_ifs at hj
    · exact hold j thread hj
    · obtain rfl : request.thread = thread :=
        List.mem_singleton.mp (List.mem_of_getElem? hj) ▸ rfl
      exact hnew j request
  · rw [hn] at hj ⊢
    exact hold j thread hj
  · obtain ⟨hi', hother⟩ := hstep i env old result ha hi hr
    rw [hn] at hj ⊢
    dsimp only at hj ⊢
    -- thread `i` is the one that took the step
    rw [List.getElem?_set] at hj
    split_ifs at hj with hij hlt
    · subst hij
      obtain rfl := Option.some.inj hj
      exact hi'
    · exact hother j thread hj (hold j thread hj)

end

/-! ## The steps of a GET -/

/-- The steps that a GET is from its answer. -/
def GetStage.left : GetStage → ℕ
  | .lookup => 6
  | .header => 5
  | .rows _ => 4
  | .judge _ => 3
  | .path => 2
  | .media _ => 1
  | .answered _ => 0

def Thread.getLeft : Thread → ℕ
  | .get _ _ stage => stage.left
  | _ => 0

/-- The steps that the GET of the thread `i` is from its answer, also before it was spawned. -/
def System.getLeft (i : ℕ) (s : System) : ℕ := (s.threads[i]?.map Thread.getLeft).getD 7

theorem System.getLeft_le (i : ℕ) (s : System) : s.getLeft i ≤ 7 := by
  unfold System.getLeft
  cases s.threads[i]? with
  | none => exact Nat.le_refl 7
  | some thread =>
    cases thread with
    | start | terminate => exact Nat.zero_le 7
    | get d t stage => cases stage <;> simp [Thread.getLeft, GetStage.left]

section
variable {ox : Sparql.Engine} {uuid : ℕ → String} {pe : PolicyEngine} {h : FileOfferHandler}
  {grain : Grain}

variable (ox pe) in
/-- A step of a GET brings it nearer to its answer. -/
theorem stepGet_left (host : Host) (i : ℕ) (s : ServiceState) (d token : String)
    (stage : GetStage) :
    (stepGet ox pe host i s d token stage).1.left ≤ stage.left - 1 := by
  cases stage with
  | lookup =>
    rw [stepGet]
    cases s.tokens.lookup token with
    | none => simp [GetStage.left]
    | some record => dsimp only; split_ifs <;> simp [GetStage.left]
  | header => rw [stepGet]; cases policyHeader ox s.graph.store d <;> simp [GetStage.left]
  | rows header => rw [stepGet]; cases policyRows ox s.graph.store d <;> simp [GetStage.left]
  | judge doc => rw [stepGet]; cases refusal pe host.now d doc <;> simp [GetStage.left]
  | path => rw [stepGet]; cases filePath ox s.graph.store d <;> simp [GetStage.left]
  | media path => simp [stepGet, GetStage.left]
  | answered response => simp [stepGet, GetStage.left]

theorem getLeft_stepThread (i : ℕ) (env : Env) (s : ServiceState) (thread : Thread) :
    (stepThread ox uuid pe h grain i env s thread).1.getLeft ≤ thread.getLeft - 1 := by
  cases thread with
  | start flow stage => exact Nat.zero_le _
  | terminate flow done => cases done <;> exact Nat.zero_le _
  | get d t stage => exact stepGet_left ox pe env.toHost i s d t stage

theorem System.getLeft_next (i : ℕ) (s : System) (a : Act) :
    (s.next ox uuid pe h grain a).getLeft i ≤ s.getLeft i := by
  cases hi : s.threads[i]? with
  | none =>
    have h7 : s.getLeft i = 7 := by rw [System.getLeft, hi]; rfl
    rw [h7]
    exact getLeft_le i _
  | some thread =>
    have hlt := (List.getElem?_eq_some_iff.mp hi).1
    rcases s.next_cases ox uuid pe h grain a with
      ⟨request, -, hn⟩ | ⟨j, env, -, ⟨-, hn⟩ | ⟨other, result, hj, hr, hn⟩⟩
    · rw [hn, System.getLeft, List.getElem?_append_left hlt]
      exact Nat.le_refl _
    · rw [hn]
    · rw [hn, System.getLeft, System.getLeft, hi]
      dsimp only
      by_cases hij : j = i
      · subst hij
        obtain rfl := Option.some.inj (hi.symm.trans hj)
        rw [List.getElem?_set_self hlt, ← hr]
        exact (getLeft_stepThread j env s.state thread).trans (Nat.sub_le _ _)
      · rw [List.getElem?_set_ne hij, hi]

variable (ox uuid pe h grain) in
/-- A step of a GET that is not answered lowers what is left. -/
theorem Stepped.getLeft_lt {steps : List (System × Act)} {i : ℕ} {d t : String} {stage : GetStage}
    {s : System} {env : Env} (hs : Stepped steps i (.get d t stage) s env) (hl : 0 < stage.left) :
    s.getLeft i = stage.left ∧
      (s.next ox uuid pe h grain (.step i env)).getLeft i < stage.left := by
  obtain ⟨-, hi⟩ := hs
  refine ⟨by rw [System.getLeft, hi]; rfl, ?_⟩
  rw [System.next, hi, System.getLeft, List.getElem?_set_self (List.getElem?_eq_some_iff.mp hi).1]
  have hlt := stepGet_left ox pe env.toHost i s.state d t stage
  exact (Nat.lt_of_le_of_lt hlt (Nat.sub_lt hl Nat.one_pos))

variable (ox uuid pe h grain) in
/-- A GET takes the step from each of its stages once. -/
theorem stepped_unique {s₀ : System} {acts : List Act} {i : ℕ} {d t d' t' : String}
    {stage stage' : GetStage} {s s' : System} {env env' : Env}
    (hs : Stepped (System.history ox uuid pe h grain s₀ acts) i (.get d t stage) s env)
    (hs' : Stepped (System.history ox uuid pe h grain s₀ acts) i (.get d' t' stage') s' env')
    (hl : 0 < stage.left) (he : stage'.left = stage.left) : env = env' := by
  obtain ⟨hleft, hlt⟩ := hs.getLeft_lt ox uuid pe h grain hl
  obtain ⟨hleft', hlt'⟩ := hs'.getLeft_lt ox uuid pe h grain (he ▸ hl)
  have hp := Machine.eq_of_mem_history (fun s a => System.getLeft_next i s a) hs.1 hs'.1 hleft
    (hleft'.trans he) hlt (hlt'.trans_eq he)
  injection hp with _ ha
  injection ha

end

end DsSqlDps
