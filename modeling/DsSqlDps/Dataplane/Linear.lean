import DsSqlDps.Dataplane.AutoSeed
import DsSqlDps.Dataplane.Sequential
import DsSqlDps.Lib.Histories

/-!
# Linearizability

A request is performed in one of its steps: a START when its token is issued or when it fails, a GET
when its token is looked up. In this order the reference service gives the same answers, although
the steps of the requests were interleaved.
-/

namespace DsSqlDps
open Rdf Sparql Machine

/-! ## When a request is performed -/

/-- Whether the request is still to be performed. -/
def Thread.pending : Thread → Bool
  | .start _ (.done _) => false
  | .start _ _ => true
  | .terminate _ done => !done
  | .get _ _ .lookup => true
  | .get _ _ _ => false

def Thread.request : Thread → Request
  | .start flow _ => .start flow
  | .terminate flow _ => .terminate flow
  | .get datasetId token _ => .get datasetId token

/-- The request that the thread `i` performs in a step. -/
def performed (i : ℕ) (thread thread' : Thread) : List (ℕ × Request) :=
  if thread.pending && !thread'.pending then [(i, thread.request)] else []

/-- The request that an action performs. -/
def System.performs (ox : Engine) (uuid : ℕ → String) (pe : PolicyEngine) (h : FileOfferHandler)
    (grain : Grain) (s : System) : Act → List (ℕ × Request)
  | .spawn _ => []
  | .step i env =>
    match s.threads[i]? with
    | none => []
    | some thread => performed i thread (stepThread ox uuid pe h grain i env s.state thread).1

def System.request (s : System) (i : ℕ) : Option Request := s.threads[i]?.map Thread.request

def System.answer (s : System) (i : ℕ) : Option Answer := s.threads[i]?.bind Thread.answer

theorem performed_cases (i : ℕ) (thread thread' : Thread) :
    performed i thread thread' = [] ∨
      thread.pending = true ∧ performed i thread thread' = [(i, thread.request)] := by
  unfold performed
  split_ifs with h
  · exact Or.inr ⟨(Bool.and_eq_true_iff.mp h).1, rfl⟩
  · exact Or.inl rfl

theorem stepThread_request (ox : Engine) (uuid : ℕ → String) (pe : PolicyEngine)
    (h : FileOfferHandler) (grain : Grain) (i : ℕ) (env : Env) (s : ServiceState)
    (thread : Thread) :
    (stepThread ox uuid pe h grain i env s thread).1.request = thread.request := by
  cases thread with
  | start | get => rfl
  | terminate flow done => cases done <;> rfl

theorem System.request_of_performs {ox : Engine} {uuid : ℕ → String} {pe : PolicyEngine}
    {h : FileOfferHandler} {grain : Grain} {s : System} {a : Act} {p : ℕ × Request}
    (hp : p ∈ s.performs ox uuid pe h grain a) : s.request p.1 = some p.2 := by
  cases a with
  | spawn request => exact absurd hp List.not_mem_nil
  | step i env =>
    rw [System.performs] at hp
    cases hi : s.threads[i]? with
    | none =>
      rw [hi] at hp
      exact absurd hp List.not_mem_nil
    | some thread =>
      rw [hi] at hp
      dsimp only at hp
      rcases performed_cases i thread (stepThread ox uuid pe h grain i env s.state thread).1 with
        he | ⟨-, he⟩
      · rw [he] at hp
        exact absurd hp List.not_mem_nil
      · rw [he] at hp
        rw [List.mem_singleton.mp hp, System.request, hi]
        rfl

/-- No request is forgotten or changed. -/
theorem System.request_next {s : System} {i : ℕ} {request : Request}
    (hr : s.request i = some request) (ox : Engine) (uuid : ℕ → String) (pe : PolicyEngine)
    (h : FileOfferHandler) (grain : Grain) (a : Act) :
    (s.next ox uuid pe h grain a).request i = some request := by
  obtain ⟨thread, hi, rfl⟩ := Option.map_eq_some_iff.mp hr
  rcases s.next_cases ox uuid pe h grain a with
    ⟨request, -, hnext⟩ | ⟨j, env, -, ⟨-, hnext⟩ | ⟨other, result, hj, hr', hnext⟩⟩
  · rw [hnext, System.request, List.getElem?_append_left (List.getElem?_eq_some_iff.mp hi).1, hi]
    rfl
  · rw [hnext]
    exact hr
  · rw [hnext, System.request]
    dsimp only
    by_cases hij : j = i
    · subst hij
      obtain rfl := Option.some.inj (hi.symm.trans hj)
      rw [List.getElem?_set_self (List.getElem?_eq_some_iff.mp hi).1, ← hr', Option.map_some,
        stepThread_request]
    · rw [List.getElem?_set_ne hij, hi]
      rfl

theorem System.request_run {s : System} {i : ℕ} {request : Request}
    (hr : s.request i = some request) (ox : Engine) (uuid : ℕ → String) (pe : PolicyEngine)
    (h : FileOfferHandler) (grain : Grain) (acts : List Act) :
    (run (System.next ox uuid pe h grain) s acts).request i = some request :=
  invariant (P := fun s : System => s.request i = some request)
    (fun _ a hs => System.request_next hs ox uuid pe h grain a) hr acts

/-- A START names a dataset id that `seed_offer` accepts. -/
def Request.Named : Request → Prop
  | .start flow => accepts flow.datasetId = true
  | _ => True

def Act.Named : Act → Prop
  | .spawn request => request.Named
  | .step _ _ => True

/-- The host is the one that the GET of the thread `i` met: its clock when the GET judged a policy,
its files when it read one. -/
def MetBy (steps : List (System × Act)) (i : ℕ) (host : Host) : Prop :=
  (∀ d token doc s env, Stepped steps i (.get d token (.judge doc)) s env → host.now = env.now) ∧
    ∀ d token path s env, Stepped steps i (.get d token (.media path)) s env →
      host.readFile = env.readFile ∧ host.headerValue = env.headerValue

/-- A GET judges and reads once, so there is such a host. -/
theorem exists_metBy (ox : Engine) (uuid : ℕ → String) (pe : PolicyEngine) (h : FileOfferHandler)
    (grain : Grain) (s : System) (acts : List Act) (i : ℕ) :
    ∃ host, MetBy (System.history ox uuid pe h grain s acts) i host := by
  have hnow : ∃ now : String, ∀ d token doc s' env,
      Stepped (System.history ox uuid pe h grain s acts) i (.get d token (.judge doc)) s' env →
        now = env.now := by
    by_cases hj : ∃ d token doc s' env, Stepped (System.history ox uuid pe h grain s acts) i
      (.get d token (.judge doc)) s' env
    · obtain ⟨d, token, doc, s', env, hs⟩ := hj
      exact ⟨env.now, fun _ _ _ _ _ hs' => congrArg (·.now)
        (stepped_unique ox uuid pe h grain hs hs' (Nat.succ_pos 2) rfl)⟩
    · exact ⟨"", fun d token doc s' env hs => absurd ⟨d, token, doc, s', env, hs⟩ hj⟩
  obtain ⟨now, hnow⟩ := hnow
  by_cases hm : ∃ d token path s' env, Stepped (System.history ox uuid pe h grain s acts) i
    (.get d token (.media path)) s' env
  · obtain ⟨d, token, path, s', env, hs⟩ := hm
    refine ⟨⟨now, env.readFile, env.headerValue⟩, hnow, fun _ _ _ _ _ hs' => ?_⟩
    rw [stepped_unique ox uuid pe h grain hs hs' Nat.one_pos rfl]
    exact ⟨rfl, rfl⟩
  · exact ⟨⟨now, fun _ => .error "", fun _ => .ok ()⟩, hnow,
      fun d token path s' env hs => absurd ⟨d, token, path, s', env, hs⟩ hm⟩

namespace Reference

section
variable (uuid : ℕ → String) (pe : PolicyEngine) (c : Config) (port : UInt16)

/-- What a request does to the reference. -/
def perform (r : Reference) : Request → Reference
  | .start flow => (r.start uuid c port flow).2
  | .terminate flow => r.terminate flow
  | .get _ _ => r

/-- The reference with the answers to each request; that to a GET depends on the host it met. -/
def object (steps : List (System × Act)) : Object ℕ Reference Request Answer where
  update := perform uuid c port
  Legal i r request answer := ∃ command : Command, command.request = request ∧
    (∀ host datasetId token, command = .get host datasetId token → MetBy steps i host) ∧
    r.serve uuid pe c port command = (answer, r.perform uuid c port request)

/-- The token is live, and for this dataset. -/
def Grants (r : Reference) (datasetId token : String) : Prop :=
  ∃ record, r.live token = some record ∧ record.datasetId = datasetId

/-- The policy of the dataset allows the request at the time that the GET met. -/
def Allows (met : Host → Prop) (datasetId : String) : Prop :=
  ∀ host, met host →
    refusal pe host.now datasetId ((c.handler port).offerFor datasetId).document = none

/-- What is known of a GET that has looked its token up in the state `r`, and meets such a host. -/
def Past (met : Host → Prop) (r : Reference) (datasetId token : String) : GetStage → Prop
  | .lookup => False
  | .header => r.Grants datasetId token
  | .rows header => r.Grants datasetId token ∧ header = (datasetIri datasetId, c.assigner)
  | .judge doc => r.Grants datasetId token ∧
      doc = ((c.handler port).offerFor datasetId).document
  | .path => r.Grants datasetId token ∧ Allows pe c port met datasetId
  | .media path => r.Grants datasetId token ∧ Allows pe c port met datasetId ∧ path = servedPath c
  | .answered response => ∀ host, met host → response = r.get pe c host datasetId token

end

end Reference

/-! ## The invariant -/

/-- Some seeding is of the dataset. -/
def Listed (ss : List Seeding) (log : List Event) (d : String) : Prop :=
  ∃ σ ∈ ss ++ begun log, σ.offer.datasetId = d

/-- The tokens are those of the reference, and in the mode that seeds nothing it knows the datasets
that are listed. -/
structure Agrees (c : Config) (ss : List Seeding) (tokens : TokenStore) (log : List Event)
    (r : Reference) : Prop where
  live : tokens.tokens = r.live
  drawn : tokens.drawn = r.drawn
  issued : ∀ token record, r.live token = some record → Listed ss log record.datasetId
  known : c.tckMode = false → ∀ d, d ∈ r.known ↔ Listed ss log d

section
variable (uuid : ℕ → String) (pe : PolicyEngine) (c : Config) (port : UInt16)
  (steps : List (System × Act))

/-- The request of the thread `i` took effect in the order, in a state of which `P` holds. -/
def TookEffect (order : List (ℕ × Request)) (i : ℕ) (P : Reference → Request → Prop) : Prop :=
  (Reference.object uuid pe c port steps).Took (.initial c) order i P

/-- What is known of a thread: it is not in the order while it is pending, and then its stage is
that of a request to the reference. -/
def Settled (ss : List Seeding) (order : List (ℕ × Request)) (log : List Event) (i : ℕ) :
    Thread → Prop
  | .start flow .check => accepts flow.datasetId = true ∧ i ∉ order.map Prod.fst
  | .start flow .seed => accepts flow.datasetId = true ∧ i ∉ order.map Prod.fst ∧ c.tckMode = true
  | .start _ (.insert _ _) => False
  | .start flow .issue => accepts flow.datasetId = true ∧ i ∉ order.map Prod.fst
  | .start flow (.done result) => TookEffect uuid pe c port steps order i fun r request =>
      request = .start flow ∧ result = (r.start uuid c port flow).1
  | .terminate _ false => i ∉ order.map Prod.fst
  | .terminate flow true => TookEffect uuid pe c port steps order i fun _ request =>
      request = .terminate flow
  | .get _ _ .lookup => i ∉ order.map Prod.fst
  | .get datasetId token stage => TookEffect uuid pe c port steps order i fun r request =>
      request = .get datasetId token ∧ r.Past pe c port (MetBy steps i) datasetId token stage ∧
        (r.Grants datasetId token → Listed ss log datasetId)

/-- A system whose requests took effect in this order. -/
structure Ordered (ss : List Seeding) (s : System) (order : List (ℕ × Request)) : Prop
    extends Called (c.handler port) ss s where
  once : ∀ d, SeededOnce s.log d
  agrees : Agrees c ss s.state.tokens s.log
    ((Reference.object uuid pe c port steps).replay (.initial c) order)
  nodup : (order.map Prod.fst).Nodup
  request : ∀ p ∈ order, s.request p.1 = some p.2
  settled : ∀ (i : ℕ) (thread : Thread), s.threads[i]? = some thread →
    Settled uuid pe c port steps ss order s.log i thread

end

section
variable {uuid : ℕ → String} {pe : PolicyEngine} {c : Config} {port : UInt16}
  {steps : List (System × Act)} {ss : List Seeding} {log : List Event}
  {order : List (ℕ × Request)} {i : ℕ}

theorem Listed.append {d : String} (h : Listed ss log d) (events : List Event) :
    Listed ss (log ++ events) d := by
  obtain ⟨σ, hσ, hd⟩ := h
  refine ⟨σ, ?_, hd⟩
  rw [begun_append, ← List.append_assoc]
  exact List.mem_append_left _ hσ

theorem listed_of_known {d : String} (h : Known (ss ++ begun log) d) (ha : accepts d = true) :
    Listed ss log d := by
  obtain ⟨σ, hσ, hs⟩ := h (gt_not_mem_of_accepts ha)
  rw [spelled_of_accepts ha] at hs
  exact ⟨σ, hσ, (Option.some.inj hs).symm⟩

theorem Settled.not_mem {thread : Thread} (h : Settled uuid pe c port steps ss order log i thread)
    (hp : thread.pending = true) : i ∉ order.map Prod.fst := by
  cases thread with
  | start flow stage =>
    cases stage with
    | check | issue => exact h.2
    | seed => exact h.2.1
    | insert base quads => exact absurd h id
    | done result => cases hp
  | terminate flow done =>
    cases done with
    | false => exact h
    | true => cases hp
  | get d token stage =>
    cases stage with
    | lookup => exact h
    | header | rows | judge | path | media | answered => cases hp

namespace Agrees
variable {tokens : TokenStore} {r : Reference}

theorem append (h : Agrees c ss tokens log r) {events : List Event}
    (he : c.tckMode = false → begun events = []) : Agrees c ss tokens (log ++ events) r where
  live := h.live
  drawn := h.drawn
  issued token record hl := (h.issued token record hl).append events
  known ht d := by
    rw [h.known ht d, Listed, Listed, begun_append, he ht, List.append_nil]

variable (uuid port) in
theorem issue (h : Agrees c ss tokens log r) {flow : DataFlow} (hl : Listed ss log flow.datasetId) :
    (Except.ok ((c.handler port).startedMessage flow (uuid tokens.drawn)) =
        (r.start uuid c port flow).1) ∧
      Agrees c ss (tokens.issue uuid flow.id flow.datasetId).2 log
        (r.start uuid c port flow).2 := by
  have hk : flow.datasetId ∈ r.known ∨ c.tckMode = true := by
    cases ht : c.tckMode with
    | true => exact Or.inr rfl
    | false => exact Or.inl ((h.known ht _).mpr hl)
  rw [Reference.start, if_pos hk]
  refine ⟨by rw [h.drawn], ?_, ?_, ?_, fun ht d => ?_⟩
  · rw [← h.live, ← h.drawn]
    rfl
  · rw [TokenStore.issue_drawn, h.drawn]
  · intro token record ht
    dsimp only at ht
    rw [Function.update_apply] at ht
    split_ifs at ht
    · rw [← Option.some.inj ht]
      exact hl
    · exact h.issued token record ht
  · rw [Finset.insert_eq_of_mem ((h.known ht _).mpr hl)]
    exact h.known ht d

theorem terminate (h : Agrees c ss tokens log r) (flow : DataFlow) :
    Agrees c ss (tokens.revokeFlow flow.id) log (r.terminate flow) where
  live := by
    rw [Reference.terminate, ← h.live]
    rfl
  drawn := h.drawn
  issued token record ht := h.issued token record (Option.filter_eq_some_iff.mp ht).1
  known := h.known

end Agrees

/-- What the other threads do changes nothing for a thread. -/
theorem Settled.append {thread : Thread} (h : Settled uuid pe c port steps ss order log i thread)
    {label : List (ℕ × Request)} (hl : i ∉ label.map Prod.fst) (events : List Event) :
    Settled uuid pe c port steps ss (order ++ label) (log ++ events) i thread := by
  have hnot (hn : i ∉ order.map Prod.fst) : i ∉ (order ++ label).map Prod.fst := by
    rw [List.map_append, List.mem_append, not_or]
    exact ⟨hn, hl⟩
  cases thread with
  | start flow stage =>
    cases stage with
    | check => exact ⟨h.1, hnot h.2⟩
    | seed => exact ⟨h.1, hnot h.2.1, h.2.2⟩
    | insert base quads => exact h
    | issue => exact ⟨h.1, hnot h.2⟩
    | done result =>
      have ht : TookEffect uuid pe c port steps order i _ := h
      exact Object.Took.append ht label
  | terminate flow done =>
    cases done with
    | false => exact hnot h
    | true =>
      have ht : TookEffect uuid pe c port steps order i _ := h
      exact Object.Took.append ht label
  | get d t stage =>
    have htook {P : Reference → Prop}
        (hp : TookEffect uuid pe c port steps order i fun r request => request = .get d t ∧ P r ∧
          (r.Grants d t → Listed ss log d)) :
        TookEffect uuid pe c port steps (order ++ label) i fun r request =>
          request = .get d t ∧ P r ∧ (r.Grants d t → Listed ss (log ++ events) d) :=
      Object.Took.mono (Object.Took.append hp label)
        fun r request h => ⟨h.1, h.2.1, fun hg => (h.2.2 hg).append events⟩
    cases stage with
    | lookup => exact hnot h
    | header | rows | judge | path | media | answered => exact htook h

end

/-! ## What is read -/

/-- What is read of a dataset that was seeded once. -/
theorem Called.reads_listed {h : FileOfferHandler} {ss : List Seeding} {s : System}
    (hs : Called h ss s) (ox : Engine) (hos : ∀ σ ∈ ss, σ.offer = h.offerFor σ.offer.datasetId)
    (hn : (ss.map fun σ => σ.offer.datasetId).Nodup) {d : String} (ho : SeededOnce s.log d)
    (hl : Listed ss s.log d) :
    policyJsonld ox s.state.graph.store d = .ok (h.offerFor d).document ∧
      filePath ox s.state.graph.store d =
        .ok (.ofString h.defaultOffer.filePath.toStringLossy) ∧
      mediaType ox s.state.graph.store d = .ok h.defaultOffer.mediaType := by
  obtain ⟨σ, hσ, rfl⟩ := hl
  have hoffer : σ.offer = h.offerFor σ.offer.datasetId := by
    rcases List.mem_append.mp hσ with hσ | hσ
    · exact hos σ hσ
    · exact hs.graph.offer σ hσ
  -- it was seeded either before the run or in it
  have hone : (ss ++ begun s.log).filter (fun τ => τ.offer.datasetId = σ.offer.datasetId) =
      [σ] := by
    rcases List.mem_append.mp hσ with hσ | hσ
    · rw [List.filter_append, filter_eq_singleton hσ hn,
        List.filter_eq_nil_iff.mpr fun τ hτ => by simpa using (hs.graph.disjoint σ hσ τ hτ).symm,
        List.append_nil]
    · rw [List.filter_append, ho.filter_eq hσ rfl,
        List.filter_eq_nil_iff.mpr fun τ hτ => by simpa using hs.graph.disjoint τ hτ σ hσ,
        List.nil_append]
  have hreads := hs.full.reads ox hσ hone
  rw [hoffer] at hreads
  exact hreads

/-- The two queries of a policy that can be read. -/
theorem Ledger.queries_of_policyJsonld {ox : Engine} {g : ConfigGraph} {ss : List Seeding}
    (hl : Ledger g ss) (offer : FileOffer) (ha : accepts offer.datasetId = true)
    (hp : policyJsonld ox g.store offer.datasetId = .ok offer.document)
    (hassign : ∀ σ ∈ ss, σ.offer.datasetId = offer.datasetId → σ.offer.assigner = offer.assigner) :
    policyHeader ox g.store offer.datasetId =
        .ok (datasetIri offer.datasetId, offer.assigner) ∧
      ∃ rows, policyRows ox g.store offer.datasetId = .ok rows ∧
        policyObject (policyIri offer.datasetId) (datasetIri offer.datasetId) offer.assigner
          (permissionEntries rows) = offer.document := by
  obtain ⟨target, assigner, rows, hh, hr, hd⟩ := policyJsonld_eq_ok ox hp
  rcases hl.policyHeader_cases ox (gt_not_mem_of_accepts ha) (spelled_of_accepts ha) ha with
    ⟨hn, -⟩ | ⟨σ, hσ, hσd, hok⟩
  · rw [hn] at hh
    cases hh
  · rw [hassign σ hσ hσd] at hok
    rw [hok] at hh
    obtain ⟨rfl, rfl⟩ := Prod.mk.inj (Except.ok.inj hh)
    exact ⟨hok, rows, hr, hd.symm⟩

/-! ## What a step leaves -/

section
variable (uuid : ℕ → String) (pe : PolicyEngine) (c : Config) (port : UInt16)
  (steps : List (System × Act))

/-- What a step of the thread `i` leaves: the tokens and the thread are settled in the order that it
extends. -/
def Leaves (ss : List Seeding) (order : List (ℕ × Request)) (log : List Event) (i : ℕ)
    (thread : Thread) (result : Thread × ServiceState × List Event) : Prop :=
  Agrees c ss result.2.1.tokens (log ++ result.2.2) ((Reference.object uuid pe c port steps).replay
      (.initial c) (order ++ performed i thread result.1)) ∧
    Settled uuid pe c port steps ss (order ++ performed i thread result.1) (log ++ result.2.2) i
      result.1

end

section
variable {uuid : ℕ → String} {pe : PolicyEngine} {c : Config} {port : UInt16}
  {steps : List (System × Act)} {ss : List Seeding} {s : System} {order : List (ℕ × Request)}
  {i : ℕ} {thread : Thread} {env : Env}

/-- A step that performs no request and leaves the tokens. -/
theorem Ordered.leaves_quiet (hs : Ordered uuid pe c port steps ss s order)
    {result : Thread × ServiceState × List Event} (hp : performed i thread result.1 = [])
    (ht : result.2.1.tokens = s.state.tokens)
    (hb : c.tckMode = false → begun result.2.2 = [])
    (hset : Settled uuid pe c port steps ss order (s.log ++ result.2.2) i result.1) :
    Leaves uuid pe c port steps ss order s.log i thread result := by
  unfold Leaves
  rw [hp, List.append_nil, ht]
  exact ⟨hs.agrees.append hb, hset⟩

/-- A step that performs the request of its thread. -/
theorem leaves_performed {result : Thread × ServiceState × List Event}
    (hp : performed i thread result.1 = [(i, thread.request)])
    (hb : begun result.2.2 = [])
    (ha : Agrees c ss result.2.1.tokens s.log (((Reference.object uuid pe c port steps).replay
      (.initial c) order).perform uuid c port thread.request))
    (hset : Settled uuid pe c port steps ss (order ++ [(i, thread.request)]) (s.log ++ result.2.2) i
      result.1) :
    Leaves uuid pe c port steps ss order s.log i thread result := by
  unfold Leaves
  rw [hp, Object.replay_concat]
  exact ⟨ha.append fun _ => hb, hset⟩

variable (ox : Engine) (hos : ∀ σ ∈ ss, σ.offer = (c.handler port).offerFor σ.offer.datasetId)
  (hn : (ss.map fun σ => σ.offer.datasetId).Nodup)
include hos hn

theorem Ordered.reads (hs : Ordered uuid pe c port steps ss s order) {d : String}
    (hl : Listed ss s.log d) :
    (policyHeader ox s.state.graph.store d = .ok (datasetIri d, c.assigner) ∧
      ∃ rows, policyRows ox s.state.graph.store d = .ok rows ∧
        policyObject (policyIri d) (datasetIri d) c.assigner (permissionEntries rows) =
          ((c.handler port).offerFor d).document) ∧
      filePath ox s.state.graph.store d = .ok (Reference.servedPath c) ∧
      mediaType ox s.state.graph.store d = .ok c.mediaType := by
  obtain ⟨hp, hf, hm⟩ := hs.toCalled.reads_listed ox hos hn (hs.once d) hl
  refine ⟨?_, hf, hm⟩
  obtain ⟨σ, hσ, rfl⟩ := hl
  have hassign : ∀ τ ∈ ss ++ begun s.log, τ.offer.datasetId = σ.offer.datasetId →
      τ.offer.assigner = c.assigner := by
    intro τ hτ _
    have ho : τ.offer = (c.handler port).offerFor τ.offer.datasetId := by
      rcases List.mem_append.mp hτ with hτ | hτ
      · exact hos τ hτ
      · exact hs.graph.offer τ hτ
    rw [ho]
    rfl
  exact hs.graph.ledger.queries_of_policyJsonld ((c.handler port).offerFor σ.offer.datasetId)
    (hs.graph.accepts σ hσ) hp hassign

/-! ## START -/

theorem Ordered.leaves_check (hs : Ordered uuid pe c port steps ss s order) {flow : DataFlow}
    (hi : s.threads[i]? = some (.start flow .check)) :
    let result := stepStart ox uuid (c.handler port) .call env s.state flow .check
    Leaves uuid pe c port steps ss order s.log i (.start flow .check)
      (.start flow result.1, result.2) := by
  obtain ⟨ha, hnot⟩ := hs.settled i _ hi
  rw [stepStart]
  by_cases hl : Listed ss s.log flow.datasetId
  · rw [(hs.reads ox hos hn hl).2.1]
    exact hs.leaves_quiet rfl rfl (fun _ => rfl) ⟨ha, hnot⟩
  · rw [hs.toCalled.full.filePath_eq_error ha (fun σ hσ hd => hl ⟨σ, hσ, hd⟩) ox]
    dsimp only
    have htck : (c.handler port).tckMode = c.tckMode := rfl
    rw [htck]
    split_ifs with ht
    · exact hs.leaves_quiet rfl rfl (fun _ => rfl) ⟨ha, hnot, ht⟩
    · -- the START fails here, and the reference knows no more datasets than are listed
      rw [Bool.not_eq_true] at ht
      have hk := mt (hs.agrees.known ht flow.datasetId).mp hl
      have hr : ((Reference.object uuid pe c port steps).replay (.initial c) order).start uuid c
          port flow = (.error (FileOfferHandler.unknownDataset flow.datasetId
            (.notFound flow.datasetId)), (Reference.object uuid pe c port steps).replay (.initial c)
              order) := by
        rw [Reference.start, if_neg (by simp [hk, ht])]
      refine leaves_performed rfl rfl ?_ ?_
      · rw [Thread.request, Reference.perform, hr]
        exact hs.agrees
      · show TookEffect uuid pe c port steps _ i _
        exact Object.took_concat ⟨rfl, by rw [hr]⟩

omit hos hn in
theorem Ordered.leaves_seed (hs : Ordered uuid pe c port steps ss s order) {flow : DataFlow}
    (hi : s.threads[i]? = some (.start flow .seed)) :
    let result := stepStart ox uuid (c.handler port) .call env s.state flow .seed
    Leaves uuid pe c port steps ss order s.log i (.start flow .seed)
      (.start flow result.1, result.2) := by
  obtain ⟨ha, hnot, ht⟩ := hs.settled i _ hi
  rw [stepStart, stepSeed_call ox _ _ flow ha]
  exact hs.leaves_quiet rfl rfl (fun hf => by rw [ht] at hf; cases hf) ⟨ha, hnot⟩

omit hos hn in
theorem Ordered.leaves_issue (hs : Ordered uuid pe c port steps ss s order) {flow : DataFlow}
    (hi : s.threads[i]? = some (.start flow .issue)) :
    let result := stepStart ox uuid (c.handler port) .call env s.state flow .issue
    Leaves uuid pe c port steps ss order s.log i (.start flow .issue)
      (.start flow result.1, result.2) := by
  obtain ⟨ha, hnot⟩ := hs.settled i _ hi
  have hk : Known (ss ++ begun s.log) flow.datasetId := hs.threads i _ hi
  obtain ⟨hr, hag⟩ := hs.agrees.issue uuid port (listed_of_known hk ha)
  refine leaves_performed rfl rfl hag ?_
  show TookEffect uuid pe c port steps _ i _
  exact Object.took_concat ⟨rfl, hr⟩

theorem Ordered.leaves_start (hs : Ordered uuid pe c port steps ss s order) {flow : DataFlow}
    {stage : StartStage} (hi : s.threads[i]? = some (.start flow stage)) :
    let result := stepStart ox uuid (c.handler port) .call env s.state flow stage
    Leaves uuid pe c port steps ss order s.log i (.start flow stage)
      (.start flow result.1, result.2) := by
  cases stage with
  | check => exact hs.leaves_check ox hos hn hi
  | seed => exact hs.leaves_seed ox hi
  | insert base quads => exact absurd (hs.settled i _ hi) id
  | issue => exact hs.leaves_issue ox hi
  | done result =>
    have hset := hs.settled i _ hi
    rw [← List.append_nil s.log] at hset
    exact hs.leaves_quiet rfl rfl (fun _ => rfl) hset

/-! ## GET -/

variable (port) in
omit hos hn in
/-- The response to a GET whose token is live and for its dataset. -/
theorem get_of_grants {r : Reference} {d token : String} (hg : r.Grants d token) (host : Host) :
    r.get pe c host d token =
      (refusal pe host.now d ((c.handler port).offerFor d).document).getD
        (fileResponse host (Reference.servedPath c) c.mediaType) := by
  obtain ⟨record, hl, rfl⟩ := hg
  rw [Reference.get, hl]
  exact if_neg (not_not.mpr rfl)

omit hos hn in
theorem Ordered.leaves_lookup (hs : Ordered uuid pe c port steps ss s order) {d token : String} :
    let result := stepGet ox pe env.toHost i s.state d token .lookup
    Leaves uuid pe c port steps ss order s.log i (.get d token .lookup)
      (.get d token result.1, s.state, result.2) := by
  generalize hr : (Reference.object uuid pe c port steps).replay (.initial c) order = r
  have hag := hs.agrees
  rw [hr] at hag
  have hlist : r.Grants d token → Listed ss s.log d := by
    rintro ⟨record, hl, rfl⟩
    exact hag.issued token record hl
  -- whatever the lookup finds, the GET is performed by it
  have htook (stage : GetStage) (e : Event) (hp : r.Past pe c port (MetBy steps i) d token stage) :
      TookEffect uuid pe c port steps (order ++ [(i, .get d token)]) i fun r request =>
        request = .get d token ∧ r.Past pe c port (MetBy steps i) d token stage ∧
          (r.Grants d token → Listed ss (s.log ++ [e]) d) := by
    apply Object.took_concat
    rw [hr]
    exact ⟨rfl, hp, fun hg => (hlist hg).append [e]⟩
  rw [stepGet, TokenStore.lookup, hag.live]
  cases hl : r.live token with
  | none =>
    refine leaves_performed rfl rfl hs.agrees (htook (.answered _) _ fun host _ => ?_)
    rw [Reference.get, hl]
  | some record =>
    dsimp only
    split_ifs with hd
    · refine leaves_performed rfl rfl hs.agrees (htook (.answered _) _ fun host _ => ?_)
      rw [Reference.get, hl]
      exact (if_pos hd).symm
    · rw [not_not] at hd
      exact leaves_performed rfl rfl hs.agrees
        (htook .header (.lookedUp i d token) ⟨record, hl, hd⟩)

theorem Ordered.past_stepGet (hs : Ordered uuid pe c port steps ss s order) {d token : String}
    {stage : GetStage} {r : Reference} (hstep : Stepped steps i (.get d token stage) s env)
    (hp : r.Past pe c port (MetBy steps i) d token stage)
    (hlist : r.Grants d token → Listed ss s.log d) :
    r.Past pe c port (MetBy steps i) d token
      (stepGet ox pe env.toHost i s.state d token stage).1 := by
  cases stage with
  | lookup => exact absurd hp id
  | header =>
    rw [stepGet, (hs.reads ox hos hn (hlist hp)).1.1]
    exact ⟨hp, rfl⟩
  | rows header =>
    obtain ⟨hg, rfl⟩ := hp
    obtain ⟨-, rows, hr, hd⟩ := (hs.reads ox hos hn (hlist hg)).1
    rw [stepGet, hr]
    exact ⟨hg, hd⟩
  | judge doc =>
    obtain ⟨hg, rfl⟩ := hp
    rw [stepGet]
    cases hf : refusal pe env.now d ((c.handler port).offerFor d).document with
    | some response =>
      intro host hmet
      rw [get_of_grants port hg, hmet.1 _ _ _ _ _ hstep, hf]
      rfl
    | none =>
      refine ⟨hg, fun host hmet => ?_⟩
      rw [hmet.1 _ _ _ _ _ hstep]
      exact hf
  | path =>
    obtain ⟨hg, ha⟩ := hp
    rw [stepGet, (hs.reads ox hos hn (hlist hg)).2.1]
    exact ⟨hg, ha, rfl⟩
  | media path =>
    obtain ⟨hg, ha, rfl⟩ := hp
    rw [stepGet, (hs.reads ox hos hn (hlist hg)).2.2]
    intro host hmet
    -- the files are those of this step
    obtain ⟨hread, hvalue⟩ := hmet.2 _ _ _ _ _ hstep
    rw [get_of_grants port hg, ha host hmet, fileResponse, fileResponse, hread, hvalue]
    rfl
  | answered response => exact hp

omit hos hn in
/-- A GET that has looked its token up is settled by what it is past. -/
theorem settled_get {log : List Event} {d token : String} {stage : GetStage}
    (h : TookEffect uuid pe c port steps order i fun r request => request = .get d token ∧
      r.Past pe c port (MetBy steps i) d token stage ∧ (r.Grants d token → Listed ss log d)) :
    Settled uuid pe c port steps ss order log i (.get d token stage) := by
  cases stage with
  | lookup =>
    obtain ⟨_, _, _, _, _, hp, _⟩ := h
    exact absurd hp id
  | header | rows | judge | path | media | answered => exact h

theorem Ordered.leaves_get (hs : Ordered uuid pe c port steps ss s order) {d token : String}
    {stage : GetStage} (ha : (s, Act.step i env) ∈ steps)
    (hi : s.threads[i]? = some (.get d token stage)) :
    let result := stepGet ox pe env.toHost i s.state d token stage
    Leaves uuid pe c port steps ss order s.log i (.get d token stage)
      (.get d token result.1, s.state, result.2) := by
  have hset := hs.settled i _ hi
  -- after its lookup a GET stays where it is in the order
  have hstep (hp : Thread.pending (.get d token stage) = false)
      (hset : TookEffect uuid pe c port steps order i fun r request => request = .get d token ∧
        r.Past pe c port (MetBy steps i) d token stage ∧ (r.Grants d token → Listed ss s.log d)) :
      let result := stepGet ox pe env.toHost i s.state d token stage
      Leaves uuid pe c port steps ss order s.log i (.get d token stage)
        (.get d token result.1, s.state, result.2) := by
    have hq : ∀ e ∈ (stepGet ox pe env.toHost i s.state d token stage).2, ¬ e.OfSeeding :=
      fun e he => (stepGet_events env.toHost s.state d token stage e he).2
    refine hs.leaves_quiet (by simp [performed, hp]) rfl
      (fun _ => begun_of_not_ofSeeding hq) (settled_get ?_)
    exact Object.Took.mono hset fun r request ⟨hr, hp, hl⟩ =>
      ⟨hr, hs.past_stepGet ox hos hn ⟨ha, hi⟩ hp hl, fun hg => (hl hg).append _⟩
  cases stage with
  | lookup => exact hs.leaves_lookup ox
  | header | rows | judge | path | media | answered => exact hstep rfl hset

/-! ## The run -/

theorem Ordered.leaves (hs : Ordered uuid pe c port steps ss s order)
    (ha : (s, Act.step i env) ∈ steps) (hi : s.threads[i]? = some thread)
    {result : Thread × ServiceState × List Event}
    (hr : stepThread ox uuid pe (c.handler port) .call i env s.state thread = result) :
    Leaves uuid pe c port steps ss order s.log i thread result := by
  subst hr
  cases thread with
  | start flow stage => exact hs.leaves_start ox hos hn hi
  | terminate flow done =>
    cases done with
    | false =>
      refine leaves_performed rfl rfl (hs.agrees.terminate flow) ?_
      show TookEffect uuid pe c port steps _ i _
      exact Object.took_concat rfl
    | true =>
      have hset := hs.settled i _ hi
      rw [← List.append_nil s.log] at hset
      exact hs.leaves_quiet rfl rfl (fun _ => rfl) hset
  | get d token stage => exact hs.leaves_get ox hos hn ha hi

omit hos hn in
theorem Ordered.mem_threads (hs : Ordered uuid pe c port steps ss s order) {j : ℕ}
    (hj : j ∈ order.map Prod.fst) : ∃ other, s.threads[j]? = some other := by
  obtain ⟨p, hp, rfl⟩ := List.mem_map.mp hj
  have hr := hs.request p hp
  unfold System.request at hr
  obtain ⟨other, ho, -⟩ := Option.map_eq_some_iff.mp hr
  exact ⟨other, ho⟩

omit hos hn in
/-- A request that is spawned is settled, since it is not in the order. -/
theorem Ordered.settled_spawn (hs : Ordered uuid pe c port steps ss s order) {request : Request}
    (hr : request.Named) :
    Settled uuid pe c port steps ss order s.log s.threads.length request.thread := by
  have hnot : s.threads.length ∉ order.map Prod.fst := by
    intro hm
    obtain ⟨other, ho⟩ := hs.mem_threads hm
    rw [List.getElem?_eq_none (le_refl _)] at ho
    cases ho
  cases request with
  | start flow => exact ⟨hr, hnot⟩
  | terminate flow => exact hnot
  | get d token => exact hnot

theorem Ordered.next (hs : Ordered uuid pe c port steps ss s order) {a : Act} (ha : a.Named)
    (hu : SeedsUnknown ox s a) (hm : (s, a) ∈ steps) :
    Ordered uuid pe c port steps ss (s.next ox uuid pe (c.handler port) .call a)
      (order ++ s.performs ox uuid pe (c.handler port) .call a) := by
  have hcalled : Called (c.handler port) ss (s.next ox uuid pe (c.handler port) .call a) :=
    hs.toCalled.next a
  have honce : ∀ d, SeededOnce (s.next ox uuid pe (c.handler port) .call a).log d :=
    hs.toCalled.seededOnce_next hs.once hu
  have hreq : ∀ p ∈ order ++ s.performs ox uuid pe (c.handler port) .call a,
      (s.next ox uuid pe (c.handler port) .call a).request p.1 = some p.2 := by
    intro p hp
    apply System.request_next
    rcases List.mem_append.mp hp with hp | hp
    · exact hs.request p hp
    · exact System.request_of_performs hp
  rcases s.next_cases ox uuid pe (c.handler port) .call a with
    ⟨request, rfl, hnext⟩ | ⟨i, env, rfl, ⟨hi, hnext⟩ | ⟨thread, result, hi, hr, hnext⟩⟩
  · rw [System.performs, List.append_nil] at hreq ⊢
    rw [hnext] at hcalled honce hreq ⊢
    refine ⟨hcalled, honce, hs.agrees, hs.nodup, hreq, fun j other hj => ?_⟩
    dsimp only at hj ⊢
    rw [List.getElem?_append] at hj
    split_ifs at hj with hlt
    · exact hs.settled j other hj
    · -- the new thread is the last one
      obtain ⟨hj', rfl⟩ := List.getElem?_eq_some_iff.mp hj
      rw [List.length_singleton] at hj'
      obtain rfl : j = s.threads.length := by omega
      simpa using hs.settled_spawn ha
  · rw [System.performs, hi, List.append_nil, hnext]
    exact hs
  · obtain ⟨hag, hset⟩ := hs.leaves ox hos hn hm hi hr
    have hlabel : s.performs ox uuid pe (c.handler port) .call (.step i env) =
        performed i thread result.1 := by
      rw [System.performs, hi]
      dsimp only
      rw [hr]
    rw [hlabel] at hreq ⊢
    rw [hnext] at hcalled honce hreq ⊢
    refine ⟨hcalled, honce, hag, ?_, hreq, fun j other hj => ?_⟩
    · rcases performed_cases i thread result.1 with hp | ⟨hpend, hp⟩
      · rw [hp, List.append_nil]
        exact hs.nodup
      · rw [hp, List.map_append]
        exact List.nodup_append_comm.mp (List.nodup_cons.mpr
          ⟨(hs.settled i thread hi).not_mem hpend, hs.nodup⟩)
    · dsimp only at hj ⊢
      rw [List.getElem?_set] at hj
      split_ifs at hj with hij hlt
      · -- thread `i` is the one that took the step
        subst hij
        obtain rfl := Option.some.inj hj
        exact hset
      · refine (hs.settled j other hj).append (fun hm => hij ?_) _
        rcases performed_cases i thread result.1 with hp | ⟨-, hp⟩
        · rw [hp] at hm
          exact absurd hm List.not_mem_nil
        · rw [hp] at hm
          exact (List.mem_singleton.mp hm).symm

end

/-! ## Without automatic seeding -/

/-- The thread is neither about to seed nor seeding. -/
def Thread.Idle : Thread → Prop
  | .start _ .seed | .start _ (.insert _ _) => False
  | _ => True

section
variable (ox : Engine) (uuid : ℕ → String) (pe : PolicyEngine) {h : FileOfferHandler}
  (grain : Grain)

/-- In the mode that seeds nothing, the grain of a seeding makes no difference. -/
theorem stepThread_of_idle (ht : h.tckMode = false) {thread : Thread} (hi : thread.Idle) (i : ℕ)
    (env : Env) (s : ServiceState) :
    stepThread ox uuid pe h grain i env s thread = stepThread ox uuid pe h .call i env s thread ∧
      (stepThread ox uuid pe h grain i env s thread).1.Idle := by
  cases thread with
  | start flow stage =>
    cases stage with
    | check =>
      refine ⟨rfl, ?_⟩
      rw [stepThread, stepStart, ht]
      cases filePath ox s.graph.store flow.datasetId <;> trivial
    | seed | insert => exact absurd hi id
    | issue | done => exact ⟨rfl, trivial⟩
  | terminate flow done => cases done <;> exact ⟨rfl, trivial⟩
  | get d token stage => exact ⟨rfl, trivial⟩

theorem next_of_idle (ht : h.tckMode = false) {s : System}
    (hs : ∀ thread ∈ s.threads, thread.Idle) (a : Act) :
    s.next ox uuid pe h grain a = s.next ox uuid pe h .call a ∧
      ∀ thread ∈ (s.next ox uuid pe h grain a).threads, thread.Idle := by
  rcases s.next_cases ox uuid pe h grain a with
    ⟨request, rfl, hnext⟩ | ⟨i, env, rfl, ⟨hi, hnext⟩ | ⟨thread, result, hi, hr, hnext⟩⟩
  · refine ⟨rfl, fun thread hm => ?_⟩
    rw [hnext] at hm
    rcases List.mem_append.mp hm with hm | hm
    · exact hs thread hm
    · rw [List.mem_singleton.mp hm]
      cases request <;> trivial
  · rw [hnext]
    refine ⟨?_, hs⟩
    rw [System.next, hi]
  · obtain ⟨he, hidle⟩ := stepThread_of_idle ox uuid pe grain ht
      (hs thread (List.mem_of_getElem? hi)) i env s.state
    rw [hr] at hidle
    refine ⟨?_, fun other hm => ?_⟩
    · rw [System.next, System.next, hi]
      dsimp only
      rw [he]
    · rw [hnext] at hm
      rcases List.mem_or_eq_of_mem_set hm with hm | rfl
      · exact hs other hm
      · exact hidle

theorem after_of_not_tckMode (ht : h.tckMode = false) (g : ConfigGraph) (acts : List Act) :
    System.after ox uuid pe h grain g acts = System.after ox uuid pe h .call g acts :=
  run_congr (P := fun s => ∀ thread ∈ s.threads, thread.Idle)
    (fun _ a hs => next_of_idle ox uuid pe grain ht hs a) (fun _ hm => absurd hm List.not_mem_nil)
    acts

variable {grain} in
theorem after_eq_call (hg : h.tckMode = false ∨ grain = .call) (g : ConfigGraph)
    (acts : List Act) :
    System.after ox uuid pe h grain g acts = System.after ox uuid pe h .call g acts := by
  rcases hg with ht | rfl
  · exact after_of_not_tckMode ox uuid pe grain ht g acts
  · rfl

/-- Nor do the steps differ, from any system that was reached. -/
theorem history_after_of_not_tckMode (ht : h.tckMode = false) (g : ConfigGraph)
    (acts acts' : List Act) :
    System.history ox uuid pe h grain (System.after ox uuid pe h .call g acts) acts' =
      System.history ox uuid pe h .call (System.after ox uuid pe h .call g acts) acts' := by
  have hidle : ∀ thread ∈ (System.after ox uuid pe h .call g acts).threads, thread.Idle :=
    invariant (P := fun s : System => ∀ thread ∈ s.threads, thread.Idle)
      (fun _ a hs => (next_of_idle ox uuid pe .call ht hs a).2)
      (fun _ hm => absurd hm List.not_mem_nil) acts
  exact history_congr (P := fun s => ∀ thread ∈ s.threads, thread.Idle)
    (fun _ a hs => next_of_idle ox uuid pe grain ht hs a) hidle

variable {grain} in
theorem history_after_eq_call (hg : h.tckMode = false ∨ grain = .call) (g : ConfigGraph)
    (acts acts' : List Act) :
    System.history ox uuid pe h grain (System.after ox uuid pe h .call g acts) acts' =
      System.history ox uuid pe h .call (System.after ox uuid pe h .call g acts) acts' := by
  rcases hg with ht | rfl
  · exact history_after_of_not_tckMode ox uuid pe grain ht g acts acts'
  · rfl

variable {grain} in
theorem history_eq_call (hg : h.tckMode = false ∨ grain = .call) (g : ConfigGraph)
    (acts : List Act) :
    System.history ox uuid pe h grain (.start g) acts =
      System.history ox uuid pe h .call (.start g) acts :=
  history_after_eq_call ox uuid pe hg g [] acts

/-- Nor is anything seeded. -/
theorem along_of_not_tckMode (ht : h.tckMode = false) (g : ConfigGraph) (acts : List Act) :
    Along (System.next ox uuid pe h .call) (SeedsUnknown ox) (.start g) acts := by
  refine along_of_invariant (P := fun s => ∀ thread ∈ s.threads, thread.Idle) ?_
    (fun _ hm => absurd hm List.not_mem_nil)
  intro s a _ hs
  refine ⟨?_, (next_of_idle ox uuid pe .call ht hs a).2⟩
  cases a with
  | spawn request => trivial
  | step i env => exact fun flow hi => absurd (hs _ (List.mem_of_getElem? hi)) id

end

/-! ## The result -/

section
variable {ox : Engine} {uuid : ℕ → String} {pe : PolicyEngine} {c : Config} {port : UInt16}
  {steps : List (System × Act)} {ss : List Seeding} {s : System} {order : List (ℕ × Request)}

theorem Ordered.explains (hs : Ordered uuid pe c port steps ss s order)
    (hmet : ∀ i, ∃ host, MetBy steps i host) :
    (Reference.object uuid pe c port steps).Explains (.initial c) s.request s.answer order where
  nodup := hs.nodup
  request := hs.request
  result := by
    intro i answer ha
    obtain ⟨thread, hi, ha⟩ := Option.bind_eq_some_iff.mp ha
    have hset := hs.settled i thread hi
    cases thread with
    | start flow stage =>
      cases stage with
      | done result =>
        obtain rfl := Option.some.inj ha
        have ht : TookEffect uuid pe c port steps order i _ := hset
        refine Object.Took.mono ht ?_
        rintro r request ⟨rfl, rfl⟩
        exact ⟨.start flow, rfl, by rintro _ _ _ ⟨⟩, rfl⟩
      | check | seed | insert | issue => cases ha
    | terminate flow done =>
      cases done with
      | true =>
        obtain rfl := Option.some.inj ha
        have ht : TookEffect uuid pe c port steps order i _ := hset
        refine Object.Took.mono ht ?_
        rintro r request rfl
        exact ⟨.terminate flow, rfl, by rintro _ _ _ ⟨⟩, rfl⟩
      | false => cases ha
    | get d token stage =>
      cases stage with
      | answered response =>
        obtain rfl := Option.some.inj ha
        have ht : TookEffect uuid pe c port steps order i _ := hset
        refine Object.Took.mono ht ?_
        rintro r request ⟨rfl, hp, -⟩
        obtain ⟨host, hhost⟩ := hmet i
        refine ⟨.get host d token, rfl, fun _ _ _ he => ?_, ?_⟩
        · obtain ⟨rfl, -, -⟩ := Command.get.inj he
          exact hhost
        · rw [hp host hhost]
          rfl
      | lookup | header | rows | judge | path | media => cases ha

variable (uuid pe steps) in
theorem ordered_start {h : FileOfferHandler} {s : ServiceState}
    (hb : build ox c port = .ok (h, s)) :
    ∃ ss, Ordered uuid pe c port steps ss (.start s.graph) [] ∧
      (∀ σ ∈ ss, σ.offer = (c.handler port).offerFor σ.offer.datasetId) ∧
      (ss.map fun σ => σ.offer.datasetId).Nodup := by
  obtain ⟨-, ss, hr⟩ := represents_build ox hb
  refine ⟨ss, ⟨called_start hr.ledger, fun _ => Nat.zero_le 1, ⟨rfl, rfl, ?_, ?_⟩,
    List.nodup_nil, ?_, ?_⟩, hr.offer, hr.nodup⟩
  · intro token record hl
    cases hl
  · intro _ d
    rw [Object.replay_nil, hr.known d, Listed]
    simp [System.start, begun]
  · exact fun p hp => absurd hp List.not_mem_nil
  · exact fun i thread hi => absurd hi (by simp [System.start])

variable (ox) in
theorem ordered_after {g : ConfigGraph} (acts : List Act)
    (hs : Ordered uuid pe c port steps ss (.start g) [])
    (hos : ∀ σ ∈ ss, σ.offer = (c.handler port).offerFor σ.offer.datasetId)
    (hn : (ss.map fun σ => σ.offer.datasetId).Nodup)
    (h : Along (System.next ox uuid pe (c.handler port) .call)
      (fun s a => a.Named ∧ SeedsUnknown ox s a ∧ (s, a) ∈ steps) (.start g) acts) :
    Ordered uuid pe c port steps ss (System.after ox uuid pe (c.handler port) .call g acts)
      (trace (System.next ox uuid pe (c.handler port) .call)
        (System.performs ox uuid pe (c.handler port) .call) (.start g) acts) := by
  have hinv := invariant_trace (P := fun s order => Ordered uuid pe c port steps ss s order)
    (fun s l a ha hs => hs.next ox hos hn ha.1 ha.2.1 ha.2.2) hs h
  rw [List.nil_append] at hinv
  exact hinv

variable (ox uuid pe) in
/-- Every run of a service that was built, without TCK mode or with seedings that run as a whole and
seed only what the check would not find, is linearizable: the requests can be put in an order in
which the reference answers as they were answered, to the hosts that the GETs met, and which keeps a
request that was answered before one that came later. -/
theorem linearizable {h : FileOfferHandler} {s₀ : ServiceState}
    (hb : build ox c port = .ok (h, s₀)) {grain : Grain} {acts : List Act}
    (hn : ∀ a ∈ acts, a.Named)
    (hr : c.tckMode = false ∨ grain = .call ∧
      Along (System.next ox uuid pe h .call) (SeedsUnknown ox) (.start s₀.graph) acts) :
    let s := System.after ox uuid pe h grain s₀.graph acts
    let steps := System.history ox uuid pe h grain (.start s₀.graph) acts
    ∃ order, (Reference.object uuid pe c port steps).Explains (.initial c) s.request s.answer
        order ∧
      ∀ acts₁ acts₂ i j, acts = acts₁ ++ acts₂ →
        (System.after ox uuid pe h grain s₀.graph acts₁).answer i ≠ none →
        (System.after ox uuid pe h grain s₀.graph acts₁).request j = none →
        s.answer j ≠ none → [i, j].Sublist (order.map Prod.fst) := by
  obtain ⟨rfl, -, -⟩ := build_cases hb
  have hmode : (c.handler port).tckMode = false ∨ grain = .call := hr.imp_right And.left
  have hgrain := after_eq_call ox uuid pe hmode s₀.graph
  have hu : Along (System.next ox uuid pe (c.handler port) .call) (SeedsUnknown ox)
      (.start s₀.graph) acts := by
    rcases hr with ht | ⟨-, hu⟩
    · exact along_of_not_tckMode ox uuid pe ht s₀.graph acts
    · exact hu
  rw [history_eq_call ox uuid pe hmode]
  intro s steps
  have hmet (i : ℕ) : ∃ host, MetBy steps i host :=
    exists_metBy ox uuid pe (c.handler port) .call (.start s₀.graph) acts i
  obtain ⟨ss, hstart, hos, hnd⟩ := ordered_start uuid pe steps hb
  have hordered (acts' : List Act) := ordered_after ox acts' hstart hos hnd
  have hall : Along (System.next ox uuid pe (c.handler port) .call)
      (fun s a => a.Named ∧ SeedsUnknown ox s a ∧ (s, a) ∈ steps) (.start s₀.graph) acts :=
    along_and hn (along_iff_history.mpr fun p hp => ⟨along_iff_history.mp hu p hp, hp⟩)
  refine ⟨trace (System.next ox uuid pe (c.handler port) .call)
    (System.performs ox uuid pe (c.handler port) .call) (.start s₀.graph) acts, ?_,
    fun acts₁ acts₂ i j he hi hj hj' => ?_⟩
  · have hs := (hordered acts hall).explains hmet
    rw [← hgrain] at hs
    exact hs
  · subst he
    rw [hgrain] at hi hj
    have hj' : (System.after ox uuid pe (c.handler port) .call s₀.graph (acts₁ ++ acts₂)).answer j ≠
        none := by
      rw [← hgrain]
      exact hj'
    have h₁ := (hordered acts₁ (along_append.mp hall).1).explains hmet
    have h₂ := (hordered _ hall).explains hmet
    rw [trace_append] at h₂ ⊢
    obtain ⟨answer, hi⟩ := Option.ne_none_iff_exists'.mp hi
    obtain ⟨answer', hj'⟩ := Option.ne_none_iff_exists'.mp hj'
    refine sublist_of_mem (h₁.result i answer hi).mem (fun hm => ?_) (h₂.result j answer' hj').mem
    -- what is in the order was spawned
    obtain ⟨p, hp, rfl⟩ := List.mem_map.mp hm
    rw [h₁.request p hp] at hj
    cases hj

end

/-- A START that seeds its dataset while a GET with the token that it is going to issue looks the
token up. -/
def overlappingActs (env : Env) : List Act :=
  [.spawn (.start ⟨"flow", "other"⟩), .spawn (.get "other" "0"), .step 0 env, .step 0 env,
    .step 1 env, .step 0 env]

/-- The first START of a dataset that is not configured seeds it when the check would fail. -/
theorem along_overlappingActs {ox : Engine} (uuid : ℕ → String) (pe : PolicyEngine) {port : UInt16}
    {h : FileOfferHandler} {s : ServiceState} (hb : build ox sampleConfig port = .ok (h, s))
    (env : Env) :
    Along (System.next ox uuid pe h .call) (SeedsUnknown ox) (.start s.graph)
      (overlappingActs env) := by
  obtain ⟨rfl, ss, hr⟩ := represents_build ox hb
  have hf := hr.unknown ox accepts_other (by simp [Reference.initial, sampleConfig])
  have ht : (sampleConfig.handler port).tckMode = true := rfl
  simp [overlappingActs, Along, SeedsUnknown, System.next, System.start, Request.thread,
    stepThread, stepStart, stepGet, hf, ht, stepSeed_call, accepts_other, TokenStore.lookup_empty]

theorem linearizable_sample :
    ∃ s₀, build plainEngine sampleConfig 9192 = .ok (sampleConfig.handler 9192, s₀) ∧
      (let s := System.after plainEngine Nat.repr permissionEngine (sampleConfig.handler 9192) .call
          s₀.graph (overlappingActs sampleEnv)
      let steps := System.history plainEngine Nat.repr permissionEngine (sampleConfig.handler 9192)
          .call (.start s₀.graph) (overlappingActs sampleEnv)
      ∃ order, (Reference.object Nat.repr permissionEngine sampleConfig 9192 steps).Explains
          (.initial sampleConfig) s.request s.answer order ∧
        ∀ acts₁ acts₂ i j, overlappingActs sampleEnv = acts₁ ++ acts₂ →
          (System.after plainEngine Nat.repr permissionEngine (sampleConfig.handler 9192) .call
            s₀.graph acts₁).answer i ≠ none →
          (System.after plainEngine Nat.repr permissionEngine (sampleConfig.handler 9192) .call
            s₀.graph acts₁).request j = none →
          s.answer j ≠ none → [i, j].Sublist (order.map Prod.fst)) := by
  have ha : accepts sampleConfig.fileOffer.datasetId = true := accepts_sampleOffer
  obtain ⟨s₀, hb⟩ := build_of_accepts plainEngine 9192 ha
  refine ⟨s₀, hb, linearizable plainEngine Nat.repr permissionEngine hb ?_
    (Or.inr ⟨rfl, along_overlappingActs Nat.repr permissionEngine hb sampleEnv⟩)⟩
  unfold overlappingActs
  simp [Act.Named, Request.Named, accepts_other]

end DsSqlDps
