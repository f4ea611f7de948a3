import DsSqlDps.Dataplane.Linear

/-!
# Progress

No request waits for another one: each is answered after a number of its own steps that only its
kind and the default offer decide, and it keeps its answer.
-/

namespace DsSqlDps
open Rdf Sparql Machine

/-! ## The steps that are left -/

/-- The most steps that a thread is from its answer, if a seeding takes `n` steps after the first
one. -/
def Thread.left (n : ℕ) : Thread → ℕ
  | .start _ .check => n + 3
  | .start _ .seed => n + 2
  | .start _ (.insert _ quads) => quads.length + 1
  | .start _ .issue => 1
  | .start _ (.done _) => 0
  | .terminate _ done => if done then 0 else 1
  | .get _ _ stage => stage.left

/-- A seeding under way has quads to insert, and no more than its offer. -/
def Thread.Loaded (n : ℕ) : Thread → Prop
  | .start _ (.insert _ quads) => quads ≠ [] ∧ quads.length ≤ n
  | _ => True

/-- The steps of a seeding after the first one. -/
def Grain.insertions (grain : Grain) (offer : FileOffer) : ℕ :=
  match grain with
  | .call => 0
  | .insert => offer.insertions

/-- The most steps that a request takes. -/
def Request.steps (grain : Grain) (offer : FileOffer) : Request → ℕ
  | .start _ => grain.insertions offer + 3
  | .terminate _ => 1
  | .get _ _ => 6

/-- An action is a step of the thread `i`. -/
def Act.isOf (i : ℕ) : Act → Bool
  | .spawn _ => false
  | .step j _ => decide (j = i)

theorem answer_of_left_eq_zero {n : ℕ} {thread : Thread} (h : thread.left n = 0) :
    ∃ answer, thread.answer = some answer := by
  cases thread with
  | start flow stage =>
    cases stage with
    | done result => exact ⟨_, rfl⟩
    | check | seed | insert | issue => simp [Thread.left] at h
  | terminate flow done =>
    cases done with
    | true => exact ⟨_, rfl⟩
    | false => cases h
  | get d token stage =>
    cases stage with
    | answered response => exact ⟨_, rfl⟩
    | lookup | header | rows | judge | path | media => cases h

theorem left_le_steps {grain : Grain} {offer : FileOffer} {thread : Thread}
    (h : thread.Loaded (grain.insertions offer)) :
    thread.left (grain.insertions offer) ≤ thread.request.steps grain offer := by
  cases thread with
  | start flow stage =>
    cases stage with
    | insert base quads =>
      have hle := h.2
      simp only [Thread.left, Thread.request, Request.steps]
      omega
    | check | seed | issue | done => simp [Thread.left, Thread.request, Request.steps]
  | terminate flow done => cases done <;> simp [Thread.left, Thread.request, Request.steps]
  | get d token stage => cases stage <;> simp [Thread.left, GetStage.left, Thread.request,
      Request.steps]

section
variable (ox : Engine) (uuid : ℕ → String) (pe : PolicyEngine) (h : FileOfferHandler)
  (grain : Grain) (i : ℕ) (env : Env) (s : ServiceState)

/-- What a step of a START leaves: fewer steps, and quads to insert only if it is seeding. -/
def Shortens (n : ℕ) (flow : DataFlow) (stage stage' : StartStage) : Prop :=
  (Thread.start flow stage').left n ≤ (Thread.start flow stage).left n - 1 ∧
    (Thread.start flow stage').Loaded n

theorem stepSeed_shortens (flow : DataFlow) :
    Shortens (grain.insertions h.defaultOffer) flow .seed (stepSeed ox h grain s flow).1 := by
  cases ha : accepts flow.datasetId with
  | false =>
    obtain ⟨e, he⟩ := stepSeed_of_not_accepts ox h grain s flow ha
    rw [he]
    exact ⟨Nat.zero_le _, trivial⟩
  | true =>
    cases grain with
    | call =>
      rw [stepSeed_call ox h s flow ha]
      exact ⟨Nat.le_refl 1, trivial⟩
    | insert =>
      rw [stepSeed_insert ox h s flow ha]
      have hl := (h.seeding flow s.graph.fresh).length_quads
      refine ⟨?_, Seeding.quads_ne_nil _, hl.le⟩
      simp only [Thread.left, hl]
      exact Nat.le_refl _

theorem stepInsert_shortens {n : ℕ} (flow : DataFlow) (base : ℕ) {quads : List Quad}
    (hl : (Thread.start flow (.insert base quads)).Loaded n) :
    Shortens n flow (.insert base quads) (stepInsert h env s flow base quads).1 := by
  cases quads with
  | nil => exact absurd rfl hl.1
  | cons q quads =>
    have hle := hl.2
    rw [stepInsert]
    cases env.insertError with
    | some e => exact ⟨Nat.zero_le _, trivial⟩
    | none =>
      rcases inserting_cases ⟨h.offerFor flow.datasetId, base⟩ quads with ⟨rfl, he⟩ | ⟨hne, he⟩
      · simp only [he]
        exact ⟨Nat.le_refl _, trivial⟩
      · simp only [he]
        exact ⟨Nat.le_refl _, hne, (Nat.le_succ _).trans hle⟩

theorem stepStart_shortens (flow : DataFlow) (stage : StartStage)
    (hl : (Thread.start flow stage).Loaded (grain.insertions h.defaultOffer)) :
    Shortens (grain.insertions h.defaultOffer) flow stage
      (stepStart ox uuid h grain env s flow stage).1 := by
  cases stage with
  | check =>
    rw [stepStart]
    cases filePath ox s.graph.store flow.datasetId with
    | ok path => exact ⟨by simp [Thread.left], trivial⟩
    | error e =>
      dsimp only
      split_ifs
      · exact ⟨Nat.le_refl _, trivial⟩
      · exact ⟨Nat.zero_le _, trivial⟩
  | seed => exact stepSeed_shortens ox h grain s flow
  | insert base quads => exact stepInsert_shortens h env s flow base hl
  | issue => exact ⟨Nat.le_refl _, trivial⟩
  | done result => exact ⟨Nat.zero_le _, trivial⟩

/-- A step brings its thread nearer to the answer. -/
theorem stepThread_left {thread : Thread}
    (hl : thread.Loaded (grain.insertions h.defaultOffer)) :
    (stepThread ox uuid pe h grain i env s thread).1.left (grain.insertions h.defaultOffer) ≤
        thread.left (grain.insertions h.defaultOffer) - 1 ∧
      (stepThread ox uuid pe h grain i env s thread).1.Loaded
        (grain.insertions h.defaultOffer) := by
  cases thread with
  | start flow stage => exact stepStart_shortens ox uuid h grain env s flow stage hl
  | terminate flow done => cases done <;> exact ⟨Nat.zero_le _, trivial⟩
  | get d token stage => exact ⟨stepGet_left ox pe env.toHost i s d token stage, trivial⟩

theorem stepThread_of_answer {thread : Thread} {answer : Answer}
    (ha : thread.answer = some answer) :
    (stepThread ox uuid pe h grain i env s thread).1 = thread := by
  cases thread with
  | start flow stage =>
    cases stage with
    | done result => rfl
    | check | seed | insert | issue => cases ha
  | terminate flow done =>
    cases done with
    | true => rfl
    | false => cases ha
  | get d token stage =>
    cases stage with
    | answered response => rfl
    | lookup | header | rows | judge | path | media => cases ha

end

/-! ## The system -/

section
variable (ox : Engine) (uuid : ℕ → String) (pe : PolicyEngine) (h : FileOfferHandler)
  (grain : Grain)

/-- The steps that the thread `i` is from its answer. -/
def System.left (n : ℕ) (i : ℕ) (s : System) : ℕ :=
  match s.threads[i]? with
  | some thread => thread.left n
  | none => 0

/-- The thread `i` has this request, and the seedings under way are loaded. -/
structure System.Serving (n i : ℕ) (request : Request) (s : System) : Prop where
  request : s.request i = some request
  loaded : ∀ (j : ℕ) (thread : Thread), s.threads[j]? = some thread → thread.Loaded n

variable {ox uuid pe h grain} {s : System}

theorem loaded_next (hs : ∀ (j : ℕ) (thread : Thread), s.threads[j]? = some thread →
      thread.Loaded (grain.insertions h.defaultOffer)) (a : Act) :
    ∀ (j : ℕ) (thread : Thread), (s.next ox uuid pe h grain a).threads[j]? = some thread →
      thread.Loaded (grain.insertions h.defaultOffer) := by
  refine forall_threads_next
    (P := fun _ _ _ thread => thread.Loaded (grain.insertions h.defaultOffer)) hs ?_ ?_
  · intro i request
    cases request <;> trivial
  · intro i env thread result _ hi hr
    subst hr
    exact ⟨(stepThread_left ox uuid pe h grain i env s.state (hs i thread hi)).2,
      fun _ _ _ hl => hl⟩

theorem loaded_after (g : ConfigGraph) (acts : List Act) :
    ∀ (j : ℕ) (thread : Thread),
      (System.after ox uuid pe h grain g acts).threads[j]? = some thread →
        thread.Loaded (grain.insertions h.defaultOffer) :=
  invariant (P := fun s : System => ∀ (j : ℕ) (thread : Thread), s.threads[j]? = some thread →
    thread.Loaded (grain.insertions h.defaultOffer)) (fun _ a hs => loaded_next hs a)
    (fun _ _ hj => absurd hj (by simp [System.start])) acts

theorem left_next {i : ℕ} {request : Request}
    (hs : s.Serving (grain.insertions h.defaultOffer) i request) (a : Act) :
    System.left (grain.insertions h.defaultOffer) i (s.next ox uuid pe h grain a) ≤
        System.left (grain.insertions h.defaultOffer) i s ∧
      (a.isOf i = true →
        System.left (grain.insertions h.defaultOffer) i (s.next ox uuid pe h grain a) ≤
          System.left (grain.insertions h.defaultOffer) i s - 1) := by
  obtain ⟨thread, hi, -⟩ := Option.map_eq_some_iff.mp hs.request
  have hlt := (List.getElem?_eq_some_iff.mp hi).1
  rcases s.next_cases ox uuid pe h grain a with
    ⟨request, rfl, hnext⟩ | ⟨j, env, rfl, ⟨hj, hnext⟩ | ⟨other, result, hj, hr, hnext⟩⟩
  · rw [hnext, System.left, System.left]
    dsimp only
    rw [List.getElem?_append_left hlt]
    exact ⟨Nat.le_refl _, fun ha => by cases ha⟩
  · rw [hnext]
    refine ⟨Nat.le_refl _, fun ha => ?_⟩
    rw [of_decide_eq_true ha, hi] at hj
    cases hj
  · rw [hnext, System.left, System.left]
    dsimp only
    by_cases hij : j = i
    · subst hij
      obtain rfl := Option.some.inj (hi.symm.trans hj)
      have hl := (stepThread_left ox uuid pe h grain j env s.state (hs.loaded j thread hi)).1
      rw [List.getElem?_set_self hlt, hi, ← hr]
      exact ⟨hl.trans (Nat.sub_le _ _), fun _ => hl⟩
    · rw [List.getElem?_set_ne hij]
      exact ⟨Nat.le_refl _, fun ha => absurd (of_decide_eq_true ha) hij⟩

theorem System.Serving.next {i : ℕ} {request : Request}
    (hs : s.Serving (grain.insertions h.defaultOffer) i request) (a : Act) :
    (s.next ox uuid pe h grain a).Serving (grain.insertions h.defaultOffer) i request where
  request := System.request_next hs.request ox uuid pe h grain a
  loaded := loaded_next hs.loaded a

/-- An answer stays. -/
theorem answer_next {i : ℕ} {answer : Answer} (ha : s.answer i = some answer) (a : Act) :
    (s.next ox uuid pe h grain a).answer i = some answer := by
  obtain ⟨thread, hi, hanswer⟩ := Option.bind_eq_some_iff.mp ha
  rcases s.next_cases ox uuid pe h grain a with
    ⟨request, -, hnext⟩ | ⟨j, env, -, ⟨-, hnext⟩ | ⟨other, result, hj, hr, hnext⟩⟩
  · rw [hnext, System.answer, List.getElem?_append_left (List.getElem?_eq_some_iff.mp hi).1]
    exact ha
  · rw [hnext]
    exact ha
  · rw [hnext, System.answer]
    dsimp only
    by_cases hij : j = i
    · subst hij
      obtain rfl := Option.some.inj (hi.symm.trans hj)
      rw [List.getElem?_set_self (List.getElem?_eq_some_iff.mp hi).1, ← hr,
        stepThread_of_answer ox uuid pe h grain j env s.state hanswer]
      exact hanswer
    · rw [List.getElem?_set_ne hij]
      exact ha

/-- Whatever the other requests do, and whichever insertions fail, a request is answered once it has
taken the steps of its kind, and it keeps its answer. -/
theorem wait_free (ox : Engine) (uuid : ℕ → String) (pe : PolicyEngine) (h : FileOfferHandler)
    (grain : Grain) (g : ConfigGraph) (acts acts' : List Act) (i : ℕ) (request : Request)
    (hr : (System.after ox uuid pe h grain g acts).request i = some request)
    (hc : request.steps grain h.defaultOffer ≤ acts'.countP (Act.isOf i)) :
    ∃ answer, ∀ acts'',
      (System.after ox uuid pe h grain g (acts ++ acts' ++ acts'')).answer i = some answer := by
  have hs : (System.after ox uuid pe h grain g acts).Serving
      (grain.insertions h.defaultOffer) i request := ⟨hr, loaded_after g acts⟩
  obtain ⟨thread, hi, hreq⟩ := Option.map_eq_some_iff.mp hr
  -- the measure is at most the steps of the request, and each step of the thread lowers it
  have hle := measure_run_le (f := System.next ox uuid pe h grain) (m := Act.isOf i)
    (fun s a hs => hs.next a)
    (fun s a hs => (left_next hs a).1) (fun s a hs => (left_next hs a).2) hs acts'
  have hsteps := left_le_steps (hs.loaded i thread hi)
  rw [hreq] at hsteps
  have hleft : System.left (grain.insertions h.defaultOffer) i
      (System.after ox uuid pe h grain g acts) = thread.left (grain.insertions h.defaultOffer) := by
    rw [System.left, hi]
  rw [hleft, ← System.after_append] at hle
  have hr' : (System.after ox uuid pe h grain g (acts ++ acts')).request i = some request := by
    rw [System.after_append]
    exact System.request_run hr ox uuid pe h grain acts'
  obtain ⟨thread', hi', -⟩ := Option.map_eq_some_iff.mp hr'
  have hzero : thread'.left (grain.insertions h.defaultOffer) = 0 := by
    rw [System.left, hi'] at hle
    dsimp only at hle
    omega
  obtain ⟨answer, ha⟩ := answer_of_left_eq_zero hzero
  have ha' : (System.after ox uuid pe h grain g (acts ++ acts')).answer i = some answer := by
    rw [System.answer, hi']
    exact ha
  refine ⟨answer, fun acts'' => ?_⟩
  rw [System.after_append]
  exact invariant (P := fun s : System => s.answer i = some answer)
    (fun _ a hs => answer_next hs a) ha' acts''

end

/-- A START of the dataset that is there; a GET with its token and a START that seeds another
dataset then take their steps in turn. -/
def servingActs (env : Env) : List Act :=
  [.step 0 env, .step 0 env] ++ (List.replicate 25 [.step 1 env, .step 2 env]).flatten

/-- The GET and the second START are answered. -/
theorem wait_free_sample :
    let spawns : List Act := [.spawn (.start ⟨"flow", "primary"⟩), .spawn (.get "primary" "0"),
      .spawn (.start ⟨"next", "other"⟩)]
    (∃ answer, ∀ acts'', (System.after plainEngine Nat.repr permissionEngine sampleHandler .insert
        sampleGraph (spawns ++ servingActs sampleEnv ++ acts'')).answer 1 = some answer) ∧
      ∃ answer, ∀ acts'', (System.after plainEngine Nat.repr permissionEngine sampleHandler .insert
        sampleGraph (spawns ++ servingActs sampleEnv ++ acts'')).answer 2 = some answer :=
  ⟨wait_free plainEngine Nat.repr permissionEngine sampleHandler .insert sampleGraph _
      (servingActs sampleEnv) 1 (.get "primary" "0") rfl (by decide),
    wait_free plainEngine Nat.repr permissionEngine sampleHandler .insert sampleGraph _
      (servingActs sampleEnv) 2 (.start ⟨"next", "other"⟩) rfl (by decide)⟩

end DsSqlDps
