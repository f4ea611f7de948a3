import DsSqlDps.Dataplane.Seedings
import DsSqlDps.Dataplane.Reference

/-!
# Requests without interleaving

A request that takes all its steps before any other one does answers like the handler or the
endpoint, so the requests of a client that waits for each response are one of the interleavings.
-/

namespace DsSqlDps
open Rdf Sparql

/-! ## A thread alone -/

def Command.request : Command → Request
  | .start flow => .start flow
  | .terminate flow => .terminate flow
  | .get _ datasetId token => .get datasetId token

/-- No insertion fails, and a GET meets its host. -/
def Command.Meets (env : Env) : Command → Prop
  | .get host _ _ => env.insertError = none ∧ env.toHost = host
  | _ => env.insertError = none

/-- The answer of a thread that is done. -/
def Thread.answer : Thread → Option Answer
  | .start _ (.done result) => some (.started result)
  | .terminate _ true => some (.terminated (.ok ()))
  | .get _ _ (.answered response) => some (.got response)
  | _ => none

section
variable (ox : Engine) (uuid : ℕ → String) (pe : PolicyEngine) (h : FileOfferHandler)
  (grain : Grain) (i : ℕ) (env : Env)

/-- A step of the thread with the number `i`, which meets `env`. -/
def Solo (p q : Thread × ServiceState) : Prop :=
  ∃ events, stepThread ox uuid pe h grain i env p.2 p.1 = (q.1, q.2, events)

end

open Relation

section
variable {ox : Engine} {uuid : ℕ → String} {pe : PolicyEngine} {h : FileOfferHandler}
  {grain : Grain} {i : ℕ} {env : Env}

/-- The steps of a thread alone are steps of the system. -/
theorem exists_steps {p q : Thread × ServiceState}
    (hs : ReflTransGen (Solo ox uuid pe h grain i env) p q) :
    ∃ n, ∀ (threads : List Thread) (log : List Event), threads.length = i →
      ∃ log', Machine.run (System.next ox uuid pe h grain) ⟨p.2, threads ++ [p.1], log⟩
        (List.replicate n (.step i env)) = ⟨q.2, threads ++ [q.1], log'⟩ := by
  induction hs using ReflTransGen.head_induction_on with
  | refl => exact ⟨0, fun threads log _ => ⟨log, rfl⟩⟩
  | @head p p' hstep _ ih =>
    obtain ⟨events, he⟩ := hstep
    obtain ⟨n, hn⟩ := ih
    refine ⟨n + 1, fun threads log hi => ?_⟩
    obtain ⟨log', hr⟩ := hn threads (log ++ events) hi
    refine ⟨log', ?_⟩
    -- the thread is the last one, so its number is the length of the others
    have hnext : System.next ox uuid pe h grain ⟨p.2, threads ++ [p.1], log⟩ (.step i env) =
        ⟨p'.2, threads ++ [p'.1], log ++ events⟩ := by
      rw [System.next, List.getElem?_append_right hi.le, hi, Nat.sub_self]
      dsimp only [List.getElem?_cons_zero]
      rw [he, ← hi, List.set_append_right _ _ (le_refl _), Nat.sub_self]
      rfl
    rw [List.replicate_succ, Machine.run_cons, hnext, hr]

/-! ## START -/

theorem solo_start {s s' : ServiceState} {flow : DataFlow} {stage stage' : StartStage}
    {events : List Event}
    (hs : stepStart ox uuid h grain env s flow stage = (stage', s', events)) :
    Solo ox uuid pe h grain i env (.start flow stage, s) (.start flow stage', s') :=
  ⟨events, by rw [stepThread, hs]⟩

/-- The insertions of a seeding, one by one. -/
theorem solo_insert (hn : env.insertError = none) (flow : DataFlow) (base : ℕ) {quads : List Quad}
    (hq : quads ≠ []) (s : ServiceState) :
    ReflTransGen (Solo ox uuid pe h grain i env) (.start flow (.insert base quads), s)
      (.start flow .issue,
        { s with graph := ⟨s.graph.store.insertAll quads, s.graph.fresh⟩ }) := by
  induction quads generalizing s with
  | nil => exact absurd rfl hq
  | cons q quads ih =>
    have hstep : stepStart ox uuid h grain env s flow (.insert base (q :: quads)) =
        ((inserting ⟨h.offerFor flow.datasetId, base⟩ quads).1,
          { s with graph := ⟨s.graph.store.insert q, s.graph.fresh⟩ },
          (inserting ⟨h.offerFor flow.datasetId, base⟩ quads).2) := by
      rw [stepStart, stepInsert, hn]
    rw [Store.insertAll_cons]
    rcases inserting_cases ⟨h.offerFor flow.datasetId, base⟩ quads with ⟨rfl, hi⟩ | ⟨hne, hi⟩
    · -- the last insertion, after which the token is issued
      rw [hi] at hstep
      rw [Store.insertAll_nil]
      exact ReflTransGen.single (solo_start hstep)
    · rw [hi] at hstep
      exact ReflTransGen.head (solo_start hstep) (ih hne _)

variable (pe i) in
/-- The call of `seed_offer`, in one step or in many. -/
theorem solo_seed (hn : env.insertError = none) (flow : DataFlow) (s : ServiceState) :
    ∃ graph, (seedOffer ox noFaults s.graph (h.offerFor flow.datasetId) = (.ok (), graph) ∧
        ReflTransGen (Solo ox uuid pe h grain i env) (.start flow .seed, s)
          (.start flow .issue, { s with graph := graph })) ∨
      ∃ e, seedOffer ox noFaults s.graph (h.offerFor flow.datasetId) = (.error e, graph) ∧
        ReflTransGen (Solo ox uuid pe h grain i env) (.start flow .seed, s)
          (.start flow (.done (.error (FileOfferHandler.seedFailed flow.datasetId e))),
            { s with graph := graph }) := by
  by_cases ha : accepts flow.datasetId = true
  · have ha' : accepts (h.offerFor flow.datasetId).datasetId = true := ha
    refine ⟨_, Or.inl ⟨seedOffer_of_accepts ox s.graph ha', ?_⟩⟩
    cases grain with
    | call => exact ReflTransGen.single (solo_start (stepSeed_call ox h s flow ha))
    | insert =>
      exact ReflTransGen.head (solo_start (stepSeed_insert ox h s flow ha))
        (solo_insert hn flow _ (Seeding.quads_ne_nil _) _)
  · have ha' : accepts (h.offerFor flow.datasetId).datasetId = false := Bool.eq_false_iff.mpr ha
    obtain ⟨e, he⟩ := offerQuads_of_not_accepts ox ha'
    have hs : seedOffer ox noFaults s.graph (h.offerFor flow.datasetId) =
        (.error (.iri e), s.graph) := by
      rw [seedOffer, he]
    -- the quads are made before any of them is inserted
    refine ⟨_, Or.inr ⟨_, hs, ReflTransGen.single ⟨[], ?_⟩⟩⟩
    cases grain with
    | call => rw [stepThread, stepStart, stepSeed, hs]
    | insert => rw [stepThread, stepStart, stepSeed, he]

theorem solo_onStart (hn : env.insertError = none) (flow : DataFlow) (s : ServiceState) :
    ReflTransGen (Solo ox uuid pe h grain i env) (.start flow .check, s)
      (.start flow (.done (h.onStart ox uuid noFaults s flow).1),
        (h.onStart ox uuid noFaults s flow).2) := by
  have hissue (s : ServiceState) : Solo ox uuid pe h grain i env (.start flow .issue, s)
      (.start flow (.done (h.issueToken uuid s flow).1), (h.issueToken uuid s flow).2) :=
    solo_start rfl
  rw [FileOfferHandler.onStart]
  cases hf : filePath ox s.graph.store flow.datasetId with
  | ok path =>
    refine ReflTransGen.head (b := (.start flow .issue, s)) ⟨[], ?_⟩
      (ReflTransGen.single (hissue s))
    rw [stepThread, stepStart, hf]
  | error e =>
    dsimp only
    split_ifs with ht
    · refine ReflTransGen.head (b := (.start flow .seed, s)) ⟨[], ?_⟩ ?_
      · rw [stepThread, stepStart, hf]
        dsimp only
        rw [if_pos ht]
      · obtain ⟨graph, ⟨hs, hr⟩ | ⟨e, hs, hr⟩⟩ := solo_seed pe i hn flow s
        · rw [hs]
          exact ReflTransGen.tail hr (hissue _)
        · rw [hs]
          exact hr
    · refine ReflTransGen.single ⟨[], ?_⟩
      rw [stepThread, stepStart, hf]
      dsimp only
      rw [if_neg ht]

/-! ## GET -/

theorem solo_get {s : ServiceState} {d token : String} {stage stage' : GetStage}
    (hs : (stepGet ox pe env.toHost i s d token stage).1 = stage') :
    Solo ox uuid pe h grain i env (.get d token stage, s) (.get d token stage', s) :=
  ⟨(stepGet ox pe env.toHost i s d token stage).2, by rw [stepThread, ← hs]⟩

theorem solo_serveFile (d token : String) (s : ServiceState) :
    ReflTransGen (Solo ox uuid pe h grain i env) (.get d token .path, s)
      (.get d token (.answered (serveFile ox env.toHost s.graph.store d)), s) := by
  rw [serveFile]
  cases hf : filePath ox s.graph.store d with
  | error e => exact ReflTransGen.single (solo_get (by rw [stepGet, hf]))
  | ok path =>
    exact ReflTransGen.head (solo_get (by rw [stepGet, hf])) (ReflTransGen.single (solo_get rfl))

/-- The policy and what comes after it; the two queries of `policy_jsonld` are two steps. -/
theorem solo_judged (d token : String) (s : ServiceState) :
    ReflTransGen (Solo ox uuid pe h grain i env) (.get d token .header, s)
      (.get d token (.answered (judged ox pe env.toHost s.graph.store d)), s) := by
  cases hh : policyHeader ox s.graph.store d with
  | error e =>
    rw [judged, policyJsonld, hh]
    exact ReflTransGen.single (solo_get (by rw [stepGet, hh]; rfl))
  | ok header =>
    obtain ⟨target, assigner⟩ := header
    apply ReflTransGen.head (solo_get (by rw [stepGet, hh]))
    cases hr : policyRows ox s.graph.store d with
    | error e =>
      rw [judged, policyJsonld, hh, hr]
      exact ReflTransGen.single (solo_get (by rw [stepGet, hr]; rfl))
    | ok rows =>
      have hp : policyJsonld ox s.graph.store d =
          .ok (policyObject (policyIri d) target assigner (permissionEntries rows)) := by
        rw [policyJsonld, hh, hr]
        rfl
      apply ReflTransGen.head (solo_get (by rw [stepGet, hr]))
      rw [judged, hp]
      dsimp only
      cases hf : refusal pe env.now d
          (policyObject (policyIri d) target assigner (permissionEntries rows)) with
      | some response => exact ReflTransGen.single (solo_get (by rw [stepGet, hf]))
      | none => exact ReflTransGen.head (solo_get (by rw [stepGet, hf])) (solo_serveFile d token s)

theorem solo_getFile (d token : String) (s : ServiceState) :
    ReflTransGen (Solo ox uuid pe h grain i env) (.get d token .lookup, s)
      (.get d token (.answered (getFile ox pe env.toHost s d token)), s) := by
  cases ht : s.tokens.lookup token with
  | none =>
    rw [getFile, ht]
    exact ReflTransGen.single (solo_get (by rw [stepGet, ht]))
  | some record =>
    by_cases hd : record.datasetId = d
    · obtain ⟨f, d'⟩ := record
      obtain rfl : d' = d := hd
      rw [getFile_of_lookup ht]
      apply ReflTransGen.head (solo_get ?_) (solo_judged d' token s)
      rw [stepGet, ht]
      dsimp only
      rw [if_neg (not_not.mpr rfl)]
    · rw [getFile, ht]
      dsimp only
      rw [if_pos hd]
      apply ReflTransGen.single (solo_get ?_)
      rw [stepGet, ht]
      dsimp only
      rw [if_pos hd]

/-! ## The system -/

variable (ox uuid pe h grain i) in
theorem Command.exists_solo {command : Command} (hm : command.Meets env) (s : ServiceState) :
    ∃ thread, thread.answer = some (serve ox uuid pe h s command).1 ∧
      ReflTransGen (Solo ox uuid pe h grain i env) (command.request.thread, s)
        (thread, (serve ox uuid pe h s command).2) := by
  cases command with
  | start flow => exact ⟨_, rfl, solo_onStart hm flow s⟩
  | terminate flow =>
    exact ⟨.terminate flow true, rfl, ReflTransGen.single ⟨[.revoked flow.id], rfl⟩⟩
  | get host d token =>
    obtain ⟨-, rfl⟩ := hm
    exact ⟨_, rfl, solo_getFile d token s⟩

theorem Command.exists_meets (command : Command) : ∃ env, command.Meets env := by
  cases command with
  | start flow => exact ⟨⟨sampleHost, none⟩, rfl⟩
  | terminate flow => exact ⟨⟨sampleHost, none⟩, rfl⟩
  | get host d token => exact ⟨⟨host, none⟩, rfl, rfl⟩

end

/-- What the service does with requests one after the other, the interleaved system can do too: it
ends in the same state, and its threads have the same answers. -/
theorem exists_acts (ox : Engine) (uuid : ℕ → String) (pe : PolicyEngine) (h : FileOfferHandler)
    (grain : Grain) (commands : List Command) (s : System) :
    ∃ acts threads, (Machine.run (System.next ox uuid pe h grain) s acts).state =
        Machine.run (fun s command => (serve ox uuid pe h s command).2) s.state commands ∧
      (Machine.run (System.next ox uuid pe h grain) s acts).threads = s.threads ++ threads ∧
      threads.map Thread.answer =
        (Machine.outputs (serve ox uuid pe h) s.state commands).map some := by
  induction commands generalizing s with
  | nil => exact ⟨[], [], rfl, (List.append_nil _).symm, rfl⟩
  | cons command commands ih =>
    obtain ⟨env, hm⟩ := command.exists_meets
    obtain ⟨thread, ha, hs⟩ := Command.exists_solo ox uuid pe h grain s.threads.length hm s.state
    obtain ⟨n, hn⟩ := exists_steps hs
    obtain ⟨log, hr⟩ := hn s.threads s.log rfl
    obtain ⟨acts, threads, hstate, hthreads, hanswers⟩ :=
      ih ⟨(serve ox uuid pe h s.state command).2, s.threads ++ [thread], log⟩
    have hrun : Machine.run (System.next ox uuid pe h grain) s
        (.spawn command.request :: List.replicate n (.step s.threads.length env) ++ acts) =
        Machine.run (System.next ox uuid pe h grain)
          ⟨(serve ox uuid pe h s.state command).2, s.threads ++ [thread], log⟩ acts := by
      rw [Machine.run_append, Machine.run_cons, System.next, hr]
    refine ⟨.spawn command.request :: List.replicate n (.step s.threads.length env) ++ acts,
      thread :: threads, ?_, ?_, ?_⟩
    · rw [hrun, hstate]
      rfl
    · rw [hrun, hthreads, List.append_assoc, List.singleton_append]
    · rw [List.map_cons, ha, hanswers]
      rfl

end DsSqlDps
