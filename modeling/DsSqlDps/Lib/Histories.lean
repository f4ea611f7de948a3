import DsSqlDps.Lib.Machine

/-!
# Histories and progress

The steps of a run, each with the state it is taken in. The operations of a concurrent machine take
effect in some of its steps. The order in which they do explains their results if an object that
performs them one after the other, in this order, may give the same results. A measure that falls
whenever one party steps bounds how often it has to.
-/

namespace Machine

variable {σ τ α β ι ρ γ : Type*}

/-! ## Runs that agree -/

theorem run_congr {next next' : σ → α → σ} {P : σ → Prop}
    (hstep : ∀ s a, P s → next s a = next' s a ∧ P (next s a)) {s : σ} (hs : P s) (as : List α) :
    run next s as = run next' s as := by
  induction as generalizing s with
  | nil => rfl
  | cons a as ih =>
    obtain ⟨he, hn⟩ := hstep s a hs
    rw [run_cons, run_cons, ← he, ih hn]

/-- A condition on the actions alone, beside one on the steps. -/
theorem along_and {next : σ → α → σ} {ok : σ → α → Prop} {Q : α → Prop} {s : σ} {as : List α}
    (hQ : ∀ a ∈ as, Q a) (h : Along next ok s as) : Along next (fun s a => Q a ∧ ok s a) s as := by
  induction as generalizing s with
  | nil => trivial
  | cons a as ih =>
    exact ⟨⟨hQ a List.mem_cons_self, h.1⟩, ih (fun b hb => hQ b (List.mem_cons_of_mem a hb)) h.2⟩

/-- The simulation rule for runs whose steps meet a condition of the abstract machine. -/
theorem outputs_eq_of_along {step : σ → α → β × σ} {step' : τ → α → β × τ} {R : σ → τ → Prop}
    {ok : τ → α → Prop}
    (hstep : ∀ s t a, R s t → ok t a → (step s a).1 = (step' t a).1 ∧ R (step s a).2 (step' t a).2)
    {s : σ} {t : τ} (hR : R s t) {as : List α} (h : Along (fun t a => (step' t a).2) ok t as) :
    outputs step s as = outputs step' t as := by
  induction as generalizing s t with
  | nil => rfl
  | cons a as ih =>
    obtain ⟨ho, hs⟩ := hstep s t a hR h.1
    rw [outputs, outputs, ho, ih hs h.2]

/-- Every answer was given in some step. -/
theorem exists_of_mem_outputs {step : σ → α → β × σ} {s : σ} {as : List α} {b : β}
    (h : b ∈ outputs step s as) : ∃ t, ∃ a ∈ as, (step t a).1 = b := by
  induction as generalizing s with
  | nil => cases h
  | cons a as ih =>
    rw [outputs] at h
    rcases List.mem_cons.mp h with rfl | h
    · exact ⟨s, a, List.mem_cons_self, rfl⟩
    · obtain ⟨t, b', hb', he⟩ := ih h
      exact ⟨t, b', List.mem_cons_of_mem a hb', he⟩

/-- The stuttering rule: a machine that also takes actions without effect answers the others as the
machine without them does. -/
theorem filterMap_outputs {step : σ → α → β × σ} {step' : σ → γ → ι × σ} {action : γ → Option α}
    {answer : ι → Option β}
    (hsome : ∀ s c a, action c = some a →
      answer (step' s c).1 = some (step s a).1 ∧ (step' s c).2 = (step s a).2)
    (hnone : ∀ s c, action c = none → answer (step' s c).1 = none ∧ (step' s c).2 = s) (s : σ)
    (cs : List γ) :
    (outputs step' s cs).filterMap answer = outputs step s (cs.filterMap action) := by
  induction cs generalizing s with
  | nil => rfl
  | cons c cs ih =>
    rw [outputs]
    cases ha : action c with
    | none =>
      obtain ⟨ho, hs⟩ := hnone s c ha
      rw [List.filterMap_cons_none ho, List.filterMap_cons_none ha, hs, ih]
    | some a =>
      obtain ⟨ho, hs⟩ := hsome s c a ha
      rw [List.filterMap_cons_some ho, List.filterMap_cons_some ha, hs, outputs, ih]

/-! ## Labels -/

section
variable (next : σ → α → σ) (label : σ → α → List β)

/-- What the steps of a run are labelled with. -/
def trace : σ → List α → List β
  | _, [] => []
  | s, a :: as => label s a ++ trace (next s a) as

theorem trace_append (s : σ) (as bs : List α) :
    trace next label s (as ++ bs) =
      trace next label s as ++ trace next label (run next s as) bs := by
  induction as generalizing s with
  | nil => rfl
  | cons a as ih => rw [List.cons_append, trace, ih, trace, List.append_assoc, run_cons]

variable {next label}

/-- The invariant rule for a state and the labels of the steps that led to it. -/
theorem invariant_trace {ok : σ → α → Prop} {P : σ → List β → Prop}
    (hstep : ∀ s l a, ok s a → P s l → P (next s a) (l ++ label s a)) {s : σ} {l : List β}
    (hs : P s l) {as : List α} (h : Along next ok s as) :
    P (run next s as) (l ++ trace next label s as) := by
  induction as generalizing s l with
  | nil =>
    rw [trace, List.append_nil]
    exact hs
  | cons a as ih =>
    rw [trace, ← List.append_assoc]
    exact ih (hstep s l a h.1 hs) h.2

end

/-! ## The steps of a run -/

section
variable (next : σ → α → σ)

/-- The actions of a run, each with the state before it. -/
def history : σ → List α → List (σ × α)
  | _, [] => []
  | s, a :: as => (s, a) :: history (next s a) as

variable {next} {s : σ} {as : List α}

/-- The invariant rule for what each step of one run keeps. -/
theorem invariant_of_history {P : σ → Prop}
    (hstep : ∀ p ∈ history next s as, P p.1 → P (next p.1 p.2)) (hs : P s) :
    P (run next s as) := by
  induction as generalizing s with
  | nil => exact hs
  | cons a as ih =>
    exact ih (fun p hp => hstep p (List.mem_cons_of_mem _ hp)) (hstep (s, a) List.mem_cons_self hs)

/-- Runs that agree take the same steps. -/
theorem history_congr {next' : σ → α → σ} {P : σ → Prop}
    (hstep : ∀ s a, P s → next s a = next' s a ∧ P (next s a)) (hs : P s) :
    history next s as = history next' s as := by
  induction as generalizing s with
  | nil => rfl
  | cons a as ih =>
    obtain ⟨he, hn⟩ := hstep s a hs
    rw [history, history, ← he, ih hn]

theorem along_iff_history {ok : σ → α → Prop} :
    Along next ok s as ↔ ∀ p ∈ history next s as, ok p.1 p.2 := by
  induction as generalizing s with
  | nil => simp [Along, history]
  | cons a as ih => rw [Along, history, List.forall_mem_cons, ih]

variable {μ : σ → ℕ} (hle : ∀ s a, μ (next s a) ≤ μ s) {p q : σ × α}
include hle

theorem measure_le_of_mem_history (hp : p ∈ history next s as) : μ p.1 ≤ μ s := by
  induction as generalizing s with
  | nil => cases hp
  | cons a as ih =>
    rcases List.mem_cons.mp hp with rfl | hp
    · exact Nat.le_refl _
    · exact (ih hp).trans (hle s a)

/-- Where no step raises a measure, at most one step lowers it from a value. -/
theorem eq_of_mem_history {n : ℕ} (hp : p ∈ history next s as) (hq : q ∈ history next s as)
    (hpn : μ p.1 = n) (hqn : μ q.1 = n) (hp' : μ (next p.1 p.2) < n)
    (hq' : μ (next q.1 q.2) < n) : p = q := by
  induction as generalizing s with
  | nil => cases hp
  | cons a as ih =>
    rcases List.mem_cons.mp hp with rfl | hp <;> rcases List.mem_cons.mp hq with rfl | hq
    · rfl
    · -- the later one starts where the measure is below already
      have hlt := (measure_le_of_mem_history hle hq).trans_lt hp'
      exact absurd hqn (Nat.ne_of_lt hlt)
    · have hlt := (measure_le_of_mem_history hle hp).trans_lt hq'
      exact absurd hpn (Nat.ne_of_lt hlt)
    · exact ih hp hq

end

/-! ## Objects -/

/-- What an operation does to the state of an object, and the results that the operation `i` may
have there. -/
structure Object (ι τ ρ γ : Type*) where
  update : τ → ρ → τ
  Legal : ι → τ → ρ → γ → Prop

namespace Object

/-- The state after the operations in this order. -/
def replay (O : Object ι τ ρ γ) (t : τ) (l : List (ι × ρ)) : τ := run O.update t (l.map Prod.snd)

/-- The operation `i` has taken effect, in a state and with a request of which `P` holds. -/
def Took (O : Object ι τ ρ γ) (t : τ) (l : List (ι × ρ)) (i : ι) (P : τ → ρ → Prop) : Prop :=
  ∃ before r since, l = before ++ (i, r) :: since ∧ P (O.replay t before) r

/-- The order has each operation once, with its request, and explains all results. -/
structure Explains (O : Object ι τ ρ γ) (t : τ) (request : ι → Option ρ) (result : ι → Option γ)
    (l : List (ι × ρ)) : Prop where
  nodup : (l.map Prod.fst).Nodup
  request : ∀ p ∈ l, request p.1 = some p.2
  result : ∀ i g, result i = some g → O.Took t l i fun t r => O.Legal i t r g

section
variable {O : Object ι τ ρ γ} {t : τ} {l : List (ι × ρ)} {i : ι} {P Q : τ → ρ → Prop}

@[simp] theorem replay_nil : O.replay t ([] : List (ι × ρ)) = t := rfl

@[simp] theorem replay_concat (r : ρ) :
    O.replay t (l ++ [(i, r)]) = O.update (O.replay t l) r := by
  rw [replay, List.map_append, run_append]
  rfl

theorem Took.append (h : O.Took t l i P) (l' : List (ι × ρ)) : O.Took t (l ++ l') i P := by
  obtain ⟨before, r, since, rfl, hp⟩ := h
  exact ⟨before, r, since ++ l', by rw [List.append_assoc, List.cons_append], hp⟩

theorem Took.mono (h : O.Took t l i P) (hPQ : ∀ t r, P t r → Q t r) : O.Took t l i Q := by
  obtain ⟨before, r, since, hl, hp⟩ := h
  exact ⟨before, r, since, hl, hPQ _ _ hp⟩

/-- The operation that takes effect last. -/
theorem took_concat {r : ρ} (h : P (O.replay t l) r) : O.Took t (l ++ [(i, r)]) i P :=
  ⟨l, r, [], rfl, h⟩

theorem Took.mem (h : O.Took t l i P) : i ∈ l.map Prod.fst := by
  obtain ⟨before, r, since, rfl, -⟩ := h
  simp

end

end Object

/-- What took effect before an operation did stands before it in every longer order. -/
theorem sublist_of_mem {l l' : List (ι × ρ)} {i j : ι} (hi : i ∈ l.map Prod.fst)
    (hj : j ∉ l.map Prod.fst) (h : j ∈ (l ++ l').map Prod.fst) :
    [i, j].Sublist ((l ++ l').map Prod.fst) := by
  rw [List.map_append] at h ⊢
  have hj' := (List.mem_append.mp h).resolve_left hj
  exact (List.singleton_sublist.mpr hi).append (List.singleton_sublist.mpr hj')

/-! ## Progress -/

/-- A measure that no step raises, and that the steps of one party lower, falls by the number of
its steps. -/
theorem measure_run_le {f : σ → α → σ} {P : σ → Prop} {μ : σ → ℕ} {m : α → Bool}
    (hP : ∀ s a, P s → P (f s a)) (hother : ∀ s a, P s → μ (f s a) ≤ μ s)
    (hmine : ∀ s a, P s → m a = true → μ (f s a) ≤ μ s - 1) {s : σ} (hs : P s) (as : List α) :
    μ (run f s as) ≤ μ s - as.countP m := by
  induction as generalizing s with
  | nil => exact Nat.le_refl _
  | cons a as ih =>
    have hle := ih (hP s a hs)
    rw [run_cons]
    by_cases ha : m a = true
    · have hm := hmine s a hs ha
      rw [List.countP_cons_of_pos ha]
      omega
    · have ho := hother s a hs
      rw [List.countP_cons_of_neg ha]
      omega

end Machine
