import DsSqlDps.Dataplane.Linear
import DsSqlDps.Config.Ties

/-!
# Repeated seedings

STARTs that race seed the configured offer more than once. What a GET then judges is the configured
permission, with its constraint, repeated: no race makes a policy weaker.
-/

namespace DsSqlDps
open Rdf Sparql

/-! ## Policies with copies -/

/-- The policy that is read by the text `d` for the dataset `e` after `k` seedings of it. -/
def copiesOf (c : Config) (d e : String) (k : ℕ) : Json.Value :=
  policyObject (policyIri d) (datasetIri e) c.assigner
    ((List.replicate k c.fileOffer.permissions).flatten.map (·.json))

/-- How often a dataset was seeded. -/
def seedings (ss : List Seeding) (log : List Event) (e : String) : ℕ :=
  ((ss ++ begun log).filter fun σ => σ.offer.datasetId = e).length

theorem permissionsOf_eq {os : List FileOffer} (ps : List PermissionSpec)
    (h : ∀ o ∈ os, o.permissions = ps) (e : String) :
    permissionsOf os e =
      (List.replicate (os.filter fun o => o.datasetId = e).length ps).flatten := by
  rw [permissionsOf, List.flatMap, List.map_congr_left fun o ho => h o (List.mem_filter.mp ho).1,
    List.map_const']

theorem seedings_append (ss : List Seeding) (log events : List Event) (e : String) :
    seedings ss log e ≤ seedings ss (log ++ events) e := by
  unfold seedings
  rw [begun_append, ← List.append_assoc]
  exact ((List.sublist_append_left _ _).filter _).length_le

theorem permissions_fileOffer (c : Config) :
    ∃ p, c.fileOffer.permissions = [p] ∧ p.constraints.length ≤ 1 := by
  refine ⟨_, rfl, ?_⟩
  rw [List.length_map]
  cases c.policyNotAfter <;> simp

/-! ## What is read -/

/-- A text by which a dataset that was seeded is read. -/
def Spells (ss : List Seeding) (log : List Event) (d e : String) : Prop :=
  spelled d = some e ∧ ∃ σ ∈ ss ++ begun log, σ.offer.datasetId = e

/-- What is known of a GET of a text that stays within its brackets. -/
def Copied (c : Config) (ss : List Seeding) (log : List Event) : Thread → Prop
  | .get d _ (.rows header) => '>' ∉ d.toList →
      ∃ e, Spells ss log d e ∧ header = (datasetIri e, c.assigner)
  | .get d _ (.judge doc) => '>' ∉ d.toList →
      ∃ e k, Spells ss log d e ∧ 0 < k ∧ k ≤ seedings ss log e ∧ doc = copiesOf c d e k
  | _ => True

section
variable {ox : Engine} {uuid : ℕ → String} {pe : PolicyEngine} {c : Config} {port : UInt16}
  {ss : List Seeding} {log : List Event} {s : System} {thread : Thread} {d e : String}

theorem Spells.append (h : Spells ss log d e) (events : List Event) :
    Spells ss (log ++ events) d e := by
  obtain ⟨hs, σ, hσ, he⟩ := h
  refine ⟨hs, σ, ?_, he⟩
  rw [begun_append, ← List.append_assoc]
  exact List.mem_append_left _ hσ

theorem Copied.append (h : Copied c ss log thread) (events : List Event) :
    Copied c ss (log ++ events) thread := by
  cases thread with
  | start | terminate => trivial
  | get d t stage =>
    cases stage with
    | rows header =>
      intro hd
      obtain ⟨e, he, hh⟩ := h hd
      exact ⟨e, he.append events, hh⟩
    | judge doc =>
      intro hd
      obtain ⟨e, k, he, hk, hle, hdoc⟩ := h hd
      exact ⟨e, k, he.append events, hk, hle.trans (seedings_append ss log events e), hdoc⟩
    | lookup | header | path | media | answered => trivial

/-- Every policy has the configured permission, once for each seeding. -/
theorem Called.rows_of_spells (hs : Called (c.handler port) ss s)
    (hos : ∀ σ ∈ ss, σ.offer = (c.handler port).offerFor σ.offer.datasetId)
    (hd : '>' ∉ d.toList) (he : Spells ss s.log d e) {rows : List Solution}
    (hr : policyRows ox s.state.graph.store d = .ok rows) :
    permissionEntries rows =
      (List.replicate (seedings ss s.log e) c.fileOffer.permissions).flatten.map (·.json) := by
  obtain ⟨hspell, σ, hσ, rfl⟩ := he
  have hoffers := hs.graph.offers hos
  obtain ⟨p, hp, hlen⟩ := permissions_fileOffer c
  have hperms : permissionsOf ((ss ++ begun s.log).map (·.offer)) σ.offer.datasetId =
      List.replicate (seedings ss s.log σ.offer.datasetId) p := by
    rw [permissionsOf_eq [p] (fun o ho => ?_), List.filter_map, List.length_map,
      List.flatten_replicate_singleton]
    · rfl
    · obtain ⟨τ, hτ, rfl⟩ := List.mem_map.mp ho
      rw [hoffers τ hτ, ← hp]
      rfl
  -- no permission has two constraints, so the rows of two of them cannot be mixed
  have hapart : Apart (nodesOf (ss ++ begun s.log) σ.offer.datasetId) := by
    intro n hn _ _ _ _ htwo
    have hm := List.mem_map_of_mem (f := (·.spec)) hn
    rw [nodesOf_spec, hperms] at hm
    have hc := congrArg (·.constraints.length) (List.eq_of_mem_replicate hm)
    simp only [PermissionNode.spec, List.length_map] at hc
    omega
  obtain ⟨p', t, a, specs, hperm, hdoc⟩ := hs.full.exists_perm hσ hd hspell hapart ox
  rw [hperms, List.perm_replicate] at hperm
  obtain ⟨target, assigner, rows', -, hr', hdoc'⟩ := policyJsonld_eq_ok ox hdoc
  rw [hr] at hr'
  rw [Except.ok.inj hr', ← policyObject_entries hdoc', hperm, hp, List.flatten_replicate_singleton]

theorem Called.copied_stepGet (hs : Called (c.handler port) ss s)
    (hos : ∀ σ ∈ ss, σ.offer = (c.handler port).offerFor σ.offer.datasetId) {host : Host} {i : ℕ}
    {t : String} {stage : GetStage} (h : Copied c ss s.log (.get d t stage)) :
    Copied c ss (s.log ++ (stepGet ox pe host i s.state d t stage).2)
      (.get d t (stepGet ox pe host i s.state d t stage).1) := by
  cases stage with
  | lookup =>
    rw [stepGet]
    cases s.state.tokens.lookup t with
    | none => trivial
    | some record => dsimp only; split_ifs <;> trivial
  | header =>
    rw [stepGet]
    cases hh : policyHeader ox s.state.graph.store d with
    | error e => trivial
    | ok header =>
      intro hd
      obtain ⟨e, target, assigner, hspell, ht, -, -⟩ := exists_of_policyHeader hd hh
      obtain ⟨σ, hσ, rfl, -⟩ := hs.graph.ledger.mem_target ht
      rcases hs.graph.ledger.policyHeader_cases ox hd hspell (hs.graph.accepts σ hσ) with
        ⟨hn, -⟩ | ⟨τ, hτ, -, hok⟩
      · rw [hn] at hh
        cases hh
      · rw [hok] at hh
        rw [hs.graph.offers hos τ hτ] at hh
        rw [List.append_nil]
        exact ⟨_, ⟨hspell, σ, hσ, rfl⟩, (Except.ok.inj hh).symm⟩
  | rows header =>
    obtain ⟨target, assigner⟩ := header
    rw [stepGet]
    cases hr : policyRows ox s.state.graph.store d with
    | error e => trivial
    | ok rows =>
      intro hd
      obtain ⟨e, he, hh⟩ := h hd
      obtain ⟨rfl, rfl⟩ := Prod.mk.inj hh
      refine ⟨e, seedings ss s.log e, he.append _, ?_, seedings_append ss s.log _ e, ?_⟩
      · obtain ⟨-, σ, hσ, hid⟩ := he
        exact List.length_pos_of_mem (List.mem_filter.mpr ⟨hσ, decide_eq_true hid⟩)
      · rw [copiesOf, ← hs.rows_of_spells hos hd he hr]
  | judge doc =>
    rw [stepGet]
    cases refusal pe host.now d doc <;> trivial
  | path =>
    rw [stepGet]
    cases filePath ox s.state.graph.store d <;> trivial
  | media | answered => trivial

/-! ## The run -/

/-- A system whose GETs judge copies of the configured permission. -/
structure Copying (c : Config) (port : UInt16) (ss : List Seeding) (s : System) : Prop
    extends Called (c.handler port) ss s where
  copied : ∀ (i : ℕ) (thread : Thread), s.threads[i]? = some thread → Copied c ss s.log thread

theorem Copying.next (hs : Copying c port ss s)
    (hos : ∀ σ ∈ ss, σ.offer = (c.handler port).offerFor σ.offer.datasetId) (a : Act) :
    Copying c port ss (s.next ox uuid pe (c.handler port) .call a) where
  toCalled := hs.toCalled.next a
  copied := by
    refine forall_threads_next (P := fun _ log _ thread => Copied c ss log thread) hs.copied ?_ ?_
    · intro i request
      cases request <;> trivial
    · intro i env thread result _ hi hr
      refine ⟨?_, fun j other _ ho => ho.append _⟩
      subst hr
      cases thread with
      | start flow stage => trivial
      | terminate flow done => cases done <;> trivial
      | get d t stage => exact hs.toCalled.copied_stepGet hos (hs.copied i _ hi)

theorem copying_start {g : ConfigGraph} (hg : FullLedger g ss) : Copying c port ss (.start g) where
  toCalled := called_start hg
  copied i thread hi := absurd hi (by simp [System.start])

variable (ox uuid pe) in
/-- Whatever STARTs race, a GET judges the configured permission, repeated at most as often as
STARTs have seeded the dataset; for the configured dataset it judges it once. -/
theorem judged_copies {h : FileOfferHandler} {s₀ : ServiceState}
    (hb : build ox c port = .ok (h, s₀)) (acts : List Act) {i : ℕ} {token : String}
    {doc : Json.Value} (hd : '>' ∉ d.toList)
    (hi : (System.after ox uuid pe h .call s₀.graph acts).threads[i]? =
      some (.get d token (.judge doc))) :
    ∃ e k, spelled d = some e ∧ 0 < k ∧ doc = copiesOf c d e k ∧
      (e ≠ c.datasetId → k ≤ seedings [] (System.after ox uuid pe h .call s₀.graph acts).log e) ∧
      (e = c.datasetId → k = 1) := by
  obtain ⟨rfl, ss, hr⟩ := represents_build ox hb
  have hs : Copying c port ss (System.after ox uuid pe (c.handler port) .call s₀.graph acts) :=
    Machine.invariant (fun s a hs => hs.next hr.offer a) (copying_start hr.ledger) acts
  generalize System.after ox uuid pe (c.handler port) .call s₀.graph acts = s at hs hi ⊢
  obtain ⟨e, k, he, hk, hle, rfl⟩ := hs.copied i _ hi hd
  -- the dataset was there at the start, once, or was seeded in the run
  have hknown (d : String) : (∃ σ ∈ ss, σ.offer.datasetId = d) ↔ d = c.datasetId := by
    rw [← hr.known d]
    exact Finset.mem_singleton
  have hcount : (e = c.datasetId → seedings ss s.log e = 1) ∧
      (e ≠ c.datasetId → seedings ss s.log e = seedings [] s.log e) := by
    unfold seedings
    rw [List.filter_append, List.length_append, List.nil_append]
    refine ⟨fun hc => ?_, fun hc => ?_⟩
    · obtain ⟨σ, hσ, hσd⟩ := (hknown e).mpr hc
      rw [← hσd, filter_eq_singleton hσ hr.nodup,
        List.filter_eq_nil_iff.mpr fun τ hτ => by simpa using (hs.graph.disjoint σ hσ τ hτ).symm]
      rfl
    · rw [List.filter_eq_nil_iff.mpr fun τ hτ => by
        simpa using fun hτd => hc ((hknown e).mp ⟨τ, hτ, hτd⟩)]
      exact Nat.zero_add _
  refine ⟨e, k, he.1, hk, rfl, fun hc => ?_, fun hc => ?_⟩
  · rwa [hcount.2 hc] at hle
  · rw [hcount.1 hc] at hle
    omega

variable (uuid pe) in
/-- A GET that finds its token and a policy, up to the evaluation. -/
theorem run_get_judge {t f : String} (hl : s.state.tokens.lookup t = some ⟨f, d⟩) {doc : Json.Value}
    (hp : policyJsonld ox s.state.graph.store d = .ok doc) (h : FileOfferHandler) (grain : Grain)
    (env : Env) :
    (Machine.run (System.next ox uuid pe h grain) s (.spawn (.get d t) ::
        List.replicate 3 (.step s.threads.length env))).threads[s.threads.length]? =
      some (.get d t (.judge doc)) := by
  obtain ⟨target, assigner, rows, hh, hr, rfl⟩ := policyJsonld_eq_ok ox hp
  simp [List.replicate, System.next, Request.thread, stepThread, stepGet, hl, hh, hr]

end

/-- The token of the first of two STARTs that race is live. -/
theorem lookup_after_racingActs (ox : Engine) (uuid : ℕ → String) (hu : uuid 0 ≠ uuid 1)
    (pe : PolicyEngine) (h : FileOfferHandler) (ht : h.tckMode = true) {os : List FileOffer}
    {g : ConfigGraph} (hg : SeedRun ox os g) (f f' : String) {d : String} (ha : accepts d = true)
    (hd : ∀ o ∈ os, o.datasetId ≠ d) (env : Env) :
    (System.after ox uuid pe h .call g
      (racingActs ⟨f, d⟩ ⟨f', d⟩ env)).state.tokens.lookup (uuid 0) = some ⟨f, d⟩ := by
  obtain ⟨-, -, htokens⟩ := after_racingActs ox uuid pe h ht hg f f' ha hd env
  rw [htokens, TokenStore.lookup_issue, TokenStore.lookup_issue]
  exact (if_neg hu).trans (if_pos rfl)

/-- Two STARTs of one dataset race, and a GET with the token of the first one. -/
theorem judged_copies_sample :
    ∃ s₀ acts doc, build plainEngine sampleConfig 9192 = .ok (sampleConfig.handler 9192, s₀) ∧
      (System.after plainEngine Nat.repr permissionEngine (sampleConfig.handler 9192) .call s₀.graph
        acts).threads[2]? = some (.get "other" "0" (.judge doc)) ∧
      ∃ e k, spelled "other" = some e ∧ 0 < k ∧ doc = copiesOf sampleConfig "other" e k ∧
        (e ≠ sampleConfig.datasetId →
          k ≤ seedings [] (System.after plainEngine Nat.repr permissionEngine
            (sampleConfig.handler 9192) .call s₀.graph acts).log e) ∧
        (e = sampleConfig.datasetId → k = 1) := by
  have ha : accepts sampleConfig.fileOffer.datasetId = true := accepts_sampleOffer
  obtain ⟨s₀, hb⟩ := build_of_accepts plainEngine 9192 ha
  let env : Env := ⟨sampleHost, none⟩
  have hrun := seedRun_of_build hb
  have hne : ∀ o ∈ [sampleConfig.fileOffer], o.datasetId ≠ "other" := by
    simp [Config.fileOffer, sampleConfig]
  have hthreads := (after_racingActs plainEngine Nat.repr permissionEngine
    (sampleConfig.handler 9192) rfl hrun "first" "second" accepts_other hne env).1
  have htoken := lookup_after_racingActs plainEngine Nat.repr (by decide)
    permissionEngine (sampleConfig.handler 9192) rfl hrun "first" "second" accepts_other hne env
  obtain ⟨ss, hl, -⟩ := hrun.exists_ledger
  generalize racingActs ⟨"first", "other"⟩ ⟨"second", "other"⟩ env = racing at hthreads htoken
  have hs : Called (sampleConfig.handler 9192) ss (System.after plainEngine Nat.repr
      permissionEngine (sampleConfig.handler 9192) .call s₀.graph racing) := called_after hl _
  -- the first START has succeeded, so the dataset is known and its policy can be read
  have hplaced := hs.threads 0 _ (by rw [hthreads]; exact List.getElem?_cons_zero)
  have hk : Known (ss ++ begun (System.after plainEngine Nat.repr permissionEngine
      (sampleConfig.handler 9192) .call s₀.graph racing).log) "other" := hplaced
  have hgt := gt_not_mem_of_accepts accepts_other
  obtain ⟨σ, hσ, hspell⟩ := hk hgt
  obtain ⟨τ, -, -, l, -, hdoc⟩ := hs.full.exists_policyJsonld plainEngine hσ hgt hspell
  have hjudge := run_get_judge Nat.repr permissionEngine htoken hdoc
    (sampleConfig.handler 9192) .call env
  rw [hthreads, ← System.after_append] at hjudge
  refine ⟨s₀, _, _, hb, hjudge, ?_⟩
  exact judged_copies plainEngine Nat.repr permissionEngine hb _ hgt hjudge

end DsSqlDps
