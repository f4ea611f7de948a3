import DsSqlDps.Dataplane.Process
import DsSqlDps.Dataplane.Promise

/-!
# The deadline

`POLICY_NOT_AFTER` from the environment to the GETs. A GET that is served a file was allowed, in one
of its own steps, by a policy whose every permission has the deadline in it.
-/

namespace DsSqlDps
open Rdf Sparql Machine

/-! ## Policies with a deadline -/

/-- The permission to use until a deadline. -/
def useUntil (notAfter : String) : PermissionSpec := ⟨"use", [⟨"dateTime", "lteq", notAfter⟩]⟩

/-- Every permission is to use, and its only constraint is the deadline. -/
def HasDeadline (doc : Json.Value) (notAfter : String) : Prop :=
  ∃ permissions, doc.field? "permission" = some (.arr permissions) ∧
    ∀ permission ∈ permissions, permission = (useUntil notAfter).json

/-- An engine that grants nothing past a deadline, in this order of times. -/
def PolicyEngine.HonoursDeadlines (pe : PolicyEngine) (atMost : String → String → Prop) : Prop :=
  ∀ now datasetId doc notAfter, HasDeadline doc notAfter → Allowed pe now datasetId doc →
    atMost now notAfter

section
variable {c : Config} {notAfter : String}

theorem permissions_of_policyNotAfter (h : c.policyNotAfter = some notAfter) :
    c.fileOffer.permissions = [useUntil notAfter] := by
  rw [Config.fileOffer, h]
  rfl

/-- Repeating the permission does not weaken it. -/
theorem hasDeadline_copiesOf (h : c.policyNotAfter = some notAfter) (d e : String) (k : ℕ) :
    HasDeadline (copiesOf c d e k) notAfter := by
  refine ⟨_, rfl, fun permission hp => ?_⟩
  obtain ⟨spec, hspec, rfl⟩ := List.mem_map.mp hp
  obtain ⟨specs, hspecs, hmem⟩ := List.mem_flatten.mp hspec
  rw [List.eq_of_mem_replicate hspecs, permissions_of_policyNotAfter h] at hmem
  rw [List.mem_singleton.mp hmem]

end

/-! ## The invariant -/

/-- What is known of a GET, whatever its token: it was answered with a text, or as promised. -/
def Thread.Judged (pe : PolicyEngine) (c : Config) (steps : List (System × Act)) (i : ℕ) :
    Thread → Prop
  | .get d token stage => '>' ∉ d.toList →
      (∃ status message, stage = .answered (.text status message)) ∨
        PromisedGet pe c steps i d token stage
  | _ => True

/-- A system that serves nothing that was not judged. -/
structure Enforces (pe : PolicyEngine) (c : Config) (port : UInt16) (ss : List Seeding)
    (steps : List (System × Act)) (s : System) : Prop extends Sound c port ss s where
  judged : ∀ (i : ℕ) (thread : Thread), s.threads[i]? = some thread → thread.Judged pe c steps i

section
variable {ox : Engine} {uuid : ℕ → String} {pe : PolicyEngine} {c : Config} {port : UInt16}
  {ss : List Seeding} {steps : List (System × Act)} {s : System}

theorem Enforces.next (hs : Enforces pe c port ss steps s)
    (hos : ∀ σ ∈ ss, σ.offer = (c.handler port).offerFor σ.offer.datasetId) {a : Act}
    (ha : (s, a) ∈ steps) :
    Enforces pe c port ss steps (s.next ox uuid pe (c.handler port) .call a) where
  toSound := hs.toSound.next hos a
  judged := by
    refine forall_threads_next (P := fun _ _ i thread => thread.Judged pe c steps i) hs.judged ?_ ?_
    · intro i request
      cases request with
      | start | terminate => trivial
      | get d t => exact fun _ => Or.inr trivial
    · rintro i env thread result rfl hi hr
      refine ⟨?_, fun j other _ ho => ho⟩
      subst hr
      cases thread with
      | start flow stage => trivial
      | terminate flow done => cases done <;> trivial
      | get d t stage =>
        intro hd
        rcases hs.judged i _ hi hd with ⟨status, message, rfl⟩ | hp
        · exact Or.inl ⟨status, message, rfl⟩
        · exact (hs.promised_stepGet ox hos ha hd hi hp).imp_left And.right

variable (ox uuid pe) in
theorem enforces_after {h : FileOfferHandler} {s₀ : ServiceState}
    (hb : build ox c port = .ok (h, s₀)) (acts : List Act) :
    ∃ ss, Enforces pe c port ss (System.history ox uuid pe h .call (.start s₀.graph) acts)
      (System.after ox uuid pe h .call s₀.graph acts) := by
  obtain ⟨rfl, -, -⟩ := build_cases hb
  obtain ⟨ss, hstart, hos⟩ := sound_start hb
  exact ⟨ss, invariant_of_history (fun _ hp hs => hs.next hos hp)
    ⟨hstart, fun i thread hi => absurd hi (by simp [System.start])⟩⟩

/-- A file that is promised is the configured one, and was allowed. -/
theorem Promised.of_file {i : ℕ} {d token media : String} {bytes : ByteArray}
    (h : Promised pe c steps i d token (.file media bytes)) :
    AllowedInStep pe c steps i d token ∧ media = c.mediaType ∧
      ReadInStep steps i d token (Reference.servedPath c) fun env =>
        env.readFile (Reference.servedPath c) = .ok bytes := by
  rcases h with ⟨doc, s, env, -, -, hr⟩ | ⟨hallowed, s, env, ha, hf⟩
  · exact absurd rfl ((refusal_past hr).2 media bytes)
  · unfold fileResponse at hf
    cases hread : env.readFile (Reference.servedPath c) with
    | error e => rw [hread] at hf; cases hf
    | ok bytes' =>
      rw [hread] at hf
      dsimp only at hf
      cases hv : env.headerValue c.mediaType with
      | error e => rw [hv] at hf; cases hf
      | ok u =>
        rw [hv] at hf
        obtain ⟨rfl, rfl⟩ := Response.file.inj hf
        exact ⟨hallowed, rfl, s, env, ha, hread⟩

end

/-- No file is served past the deadline. A process was told of a deadline by its environment;
whatever the interleaving, a GET that is served a file was allowed, by a policy with the deadline
and within it, in the step in which it judged this policy, and the bytes are those that it read from
the configured file. In TCK mode this takes seedings that run as a whole. -/
theorem deadline_enforced (ox : Engine) (uuid : ℕ → String) {pe : PolicyEngine} {grain : Grain}
    {os : Os} {sdk : Sdk} {env : Environment} {app : BoundApp} {calls : List HostCall}
    (hm : Process.main ox os sdk env = (.ok app, calls))
    (hmode : app.handler.tckMode = false ∨ grain = .call) {notAfter : String}
    (hv : env.var "POLICY_NOT_AFTER" = some notAfter) {atMost : String → String → Prop}
    (hpe : pe.HonoursDeadlines atMost) (acts : List Act) {i : ℕ} {d token media : String}
    {bytes : ByteArray} (hd : '>' ∉ d.toList)
    (hi : (System.after ox uuid pe app.handler grain app.state.graph acts).threads[i]? =
      some (.get d token (.answered (.file media bytes)))) :
    let steps := System.history ox uuid pe app.handler grain (.start app.state.graph) acts
    (JudgedInStep steps i d token fun doc step => HasDeadline doc notAfter ∧
      Allowed pe step.now d doc ∧ atMost step.now notAfter) ∧
      ∃ c, ServiceConfig.fromEnv env = .ok c ∧ media = c.mediaType ∧
        ReadInStep steps i d token c.filePath fun step => step.readFile c.filePath = .ok bytes := by
  obtain ⟨c, port, henv, -, -, -, hb⟩ := build_of_main hm
  have hnotAfter : c.policyNotAfter = some notAfter := by
    obtain ⟨publicPort, signalingPort, -, -, rfl⟩ := fromEnv_eq_ok_iff.mp henv
    exact hv
  rw [after_eq_call ox uuid pe hmode] at hi
  rw [history_eq_call ox uuid pe hmode]
  intro steps
  obtain ⟨ss, hs⟩ := enforces_after ox uuid pe hb acts
  have hpromised : Promised pe c.toConfig steps i d token (.file media bytes) := by
    rcases hs.judged i _ hi hd with ⟨status, message, htext⟩ | hp
    · cases htext
    · exact hp
  obtain ⟨hallowed, hmedia, hread⟩ := hpromised.of_file
  rw [Reference.servedPath_eq (isUtf8_of_fromEnv henv)] at hread
  refine ⟨hallowed.mono ?_, c, henv, hmedia, hread⟩
  rintro doc step ⟨⟨e, k, -, -, rfl⟩, ha⟩
  have hdeadline := hasDeadline_copiesOf hnotAfter d e k
  exact ⟨hdeadline, ha, hpe _ _ _ _ hdeadline ha⟩

/-! ## An engine with a clock -/

/-- A constraint `dateTime lteq v`, of which the times are compared as texts. -/
def withinDeadline (now : String) (constraint : Json.Value) : Bool :=
  match constraint.field? "leftOperand", constraint.field? "operator",
    constraint.field? "rightOperand" with
  | some (.str left), some (.str op), some (.str right) =>
    decide (left = "dateTime" ∧ op = "lteq" ∧ now ≤ right)
  | _, _, _ => false

/-- A permission without constraints, or with constraints that all hold. -/
def grantedAt (now : String) (permission : Json.Value) : Bool :=
  match permission.field? "constraint" with
  | none => true
  | some (.arr constraints) => constraints.all (withinDeadline now)
  | some _ => false

/-- An engine that grants what some permission grants at the time. -/
def deadlineEngine : PolicyEngine where
  Policy := Json.Value
  Request := Json.Value × List (String × String)
  ingestPolicyValue := .ok
  requestFor policy _ _ claims _ _ := (policy, claims)
  evaluateRequest request :=
    match request.1.field? "permission", request.2.lookup "dateTime" with
    | some (.arr permissions), some now => ⟨permissions.any (grantedAt now), "deadline"⟩
    | _, _ => ⟨false, "no permission applies"⟩

theorem grantedAt_useUntil (now notAfter : String) :
    grantedAt now (useUntil notAfter).json = decide (now ≤ notAfter) := by
  show [_].all (withinDeadline now) = _
  simp [withinDeadline, ConstraintSpec.json, Json.Value.field?, List.lookup]

theorem allowed_deadlineEngine_iff {now datasetId : String} {doc : Json.Value}
    {permissions : List Json.Value} (h : doc.field? "permission" = some (.arr permissions)) :
    Allowed deadlineEngine now datasetId doc ↔
      ∃ permission ∈ permissions, grantedAt now permission = true := by
  have he : (evaluate deadlineEngine now datasetId doc).allow =
      permissions.any (grantedAt now) := by
    show (match doc.field? "permission", [("dateTime", now)].lookup "dateTime" with
      | some (.arr permissions), some now =>
        Evaluation.mk (permissions.any (grantedAt now)) "deadline"
      | _, _ => ⟨false, "no permission applies"⟩).allow = _
    rw [h]
    rfl
  rw [← List.any_eq_true, ← he]
  constructor
  · rintro ⟨policy, hp, ha⟩
    obtain rfl := Except.ok.inj hp
    exact ha
  · exact fun ha => ⟨doc, rfl, ha⟩

theorem honoursDeadlines_deadlineEngine : deadlineEngine.HonoursDeadlines (· ≤ ·) := by
  rintro now datasetId doc notAfter ⟨permissions, hf, hall⟩ ha
  obtain ⟨permission, hp, hg⟩ := (allowed_deadlineEngine_iff hf).mp ha
  rw [hall permission hp, grantedAt_useUntil] at hg
  exact of_decide_eq_true hg

/-- An environment that sets the deadline only. -/
def deadlineVariables : Environment
  | "POLICY_NOT_AFTER" => some (.ofString "2026-12-31T23:59:59Z")
  | _ => none

theorem var_deadlineVariables :
    deadlineVariables.var "POLICY_NOT_AFTER" = some "2026-12-31T23:59:59Z" :=
  var_ofString "POLICY_NOT_AFTER" rfl

theorem fromEnv_deadlineVariables :
    ServiceConfig.fromEnv deadlineVariables = .ok (deadlineVariables.config 9192 9191) :=
  fromEnv_eq_ok_iff.mpr ⟨9192, 9191, expectPort_repr _ 9192, expectPort_repr _ 9191, rfl⟩

theorem deadline_enforced_sample : ∃ app calls media bytes,
    Process.main plainEngine sampleOs sampleSdk deadlineVariables = (.ok app, calls) ∧
    let acts := startingActs sampleEnv ++ [.step 0 sampleEnv] ++ gettingActs sampleEnv
    (System.after plainEngine Nat.repr deadlineEngine app.handler .insert app.state.graph
      acts).threads[1]? = some (.get "primary" "0" (.answered (.file media bytes))) ∧
    let steps := System.history plainEngine Nat.repr deadlineEngine app.handler .insert
      (.start app.state.graph) acts
    (JudgedInStep steps 1 "primary" "0" fun doc step => HasDeadline doc "2026-12-31T23:59:59Z" ∧
      Allowed deadlineEngine step.now "primary" doc ∧ step.now ≤ "2026-12-31T23:59:59Z") ∧
    ∃ c, ServiceConfig.fromEnv deadlineVariables = .ok c ∧ media = c.mediaType ∧
      ReadInStep steps 1 "primary" "0" c.filePath fun step =>
        step.readFile c.filePath = .ok bytes := by
  obtain ⟨app, calls, hm⟩ := exists_main plainEngine fromEnv_deadlineVariables accepts_primary
  obtain ⟨c, port, henv, -, -, hh, hb⟩ := build_of_main hm
  obtain rfl := Except.ok.inj (fromEnv_deadlineVariables.symm.trans henv)
  obtain ⟨-, ss, hr⟩ := represents_build plainEngine hb
  obtain ⟨hdoc, hpath, hmedia⟩ := hr.reads plainEngine (d := "primary") (by decide)
  have hallowed : Allowed deadlineEngine sampleEnv.now "primary"
      (deadlineVariables.config 9192 9191).fileOffer.document := by
    have hp := permissions_of_policyNotAfter (c := (deadlineVariables.config 9192 9191).toConfig)
      var_deadlineVariables
    refine (allowed_deadlineEngine_iff rfl).mpr ⟨(useUntil "2026-12-31T23:59:59Z").json, ?_, ?_⟩
    · rw [hp]
      exact List.mem_singleton_self _
    · rw [grantedAt_useUntil]
      decide
  have hserved := after_gettingActs hpath deadlineEngine app.handler .insert sampleEnv hdoc hmedia
    hallowed rfl rfl
  refine ⟨app, calls, _, _, hm, hserved, ?_⟩
  exact deadline_enforced plainEngine Nat.repr hm (Or.inl (by rw [hh]; rfl)) var_deadlineVariables
    honoursDeadlines_deadlineEngine _ (by decide +kernel) hserved

end DsSqlDps
