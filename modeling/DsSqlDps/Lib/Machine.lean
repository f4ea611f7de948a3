import Mathlib

/-!
# Machines

A machine takes one action after the other. What holds at the start, and is kept by each step that
meets a condition, holds after every run whose steps all meet it. Two machines that answer alike
from related states, and stay related, answer alike in every run.
-/

namespace Machine

variable {σ τ α β : Type*}

/-! ## Runs -/

section
variable (next : σ → α → σ)

/-- The state after the actions. -/
def run (s : σ) (as : List α) : σ := as.foldl next s

/-- Every step meets the condition, which may look at the state before the step. -/
def Along (ok : σ → α → Prop) : σ → List α → Prop
  | _, [] => True
  | s, a :: as => ok s a ∧ Along ok (next s a) as

@[simp] theorem run_nil (s : σ) : run next s [] = s := rfl

@[simp] theorem run_cons (s : σ) (a : α) (as : List α) :
    run next s (a :: as) = run next (next s a) as := rfl

theorem run_append (s : σ) (as bs : List α) :
    run next s (as ++ bs) = run next (run next s as) bs := List.foldl_append

variable {next} {ok : σ → α → Prop} {s : σ}

theorem along_append {as bs : List α} :
    Along next ok s (as ++ bs) ↔ Along next ok s as ∧ Along next ok (run next s as) bs := by
  induction as generalizing s with
  | nil => simp [Along]
  | cons a as ih => exact (and_congr_right fun _ => ih).trans and_assoc.symm

/-- The invariant rule for runs whose steps meet a condition. -/
theorem invariant_of_along {P : σ → Prop} (hstep : ∀ s a, ok s a → P s → P (next s a)) (hs : P s)
    {as : List α} (h : Along next ok s as) : P (run next s as) := by
  induction as generalizing s with
  | nil => exact hs
  | cons a as ih => exact ih (hstep s a h.1 hs) h.2

/-- The invariant rule for all runs. -/
theorem invariant {P : σ → Prop} (hstep : ∀ s a, P s → P (next s a)) (hs : P s) (as : List α) :
    P (run next s as) := by
  induction as generalizing s with
  | nil => exact hs
  | cons a as ih => exact ih (hstep s a hs)

/-- The invariant rule for the actions of a run. -/
theorem invariant_of_mem {P : σ → Prop} {as : List α}
    (hstep : ∀ s, ∀ a ∈ as, P s → P (next s a)) (hs : P s) : P (run next s as) := by
  induction as generalizing s with
  | nil => exact hs
  | cons a as ih =>
    exact ih (fun s b hb => hstep s b (List.mem_cons_of_mem a hb)) (hstep s a List.mem_cons_self hs)

/-- A run meets a condition at each step if an invariant of its actions gives the condition. -/
theorem along_of_invariant {P : σ → Prop} {as : List α}
    (hstep : ∀ s, ∀ a ∈ as, P s → ok s a ∧ P (next s a)) (hs : P s) : Along next ok s as := by
  induction as generalizing s with
  | nil => trivial
  | cons a as ih =>
    obtain ⟨ha, hn⟩ := hstep s a List.mem_cons_self hs
    exact ⟨ha, ih (fun s b hb => hstep s b (List.mem_cons_of_mem a hb)) hn⟩

end

/-! ## Answers -/

/-- The answers to the actions. -/
def outputs (step : σ → α → β × σ) : σ → List α → List β
  | _, [] => []
  | s, a :: as => (step s a).1 :: outputs step (step s a).2 as

/-- The simulation rule. -/
theorem outputs_eq {step : σ → α → β × σ} {step' : τ → α → β × τ} {R : σ → τ → Prop}
    {ok : α → Prop}
    (hstep : ∀ s t a, R s t → ok a → (step s a).1 = (step' t a).1 ∧ R (step s a).2 (step' t a).2)
    {s : σ} {t : τ} (hR : R s t) {as : List α} (h : ∀ a ∈ as, ok a) :
    outputs step s as = outputs step' t as := by
  induction as generalizing s t with
  | nil => rfl
  | cons a as ih =>
    obtain ⟨ho, hs⟩ := hstep s t a hR (h a List.mem_cons_self)
    rw [outputs, outputs, ho, ih hs fun b hb => h b (List.mem_cons_of_mem a hb)]

end Machine
