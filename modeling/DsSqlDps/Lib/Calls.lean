import Mathlib

/-!
# Programs that make calls

A program that asks its host for something, one call after the other, and may stop with an error.
The host may answer each call in view of those before it.
-/

namespace Calls

/-- A program over the calls `κ` that may stop with an error of `ε`. -/
abbrev Program (κ ε : Type) := ExceptT ε (StateM (List κ))

variable {κ ε ε' α β : Type}

/-- The outcome after some calls, and the calls that were made by then. -/
def exec (m : Program κ ε α) (calls : List κ) : Except ε α × List κ := m.run.run calls

/-- A result that needs no call. -/
def attempt (wrap : ε' → ε) : Except ε' α → Program κ ε α
  | .ok a => pure a
  | .error e => throw (wrap e)

/-- A call with its answer. -/
def ask (call : κ) (answer : List κ → α) : Program κ ε α := do
  let calls ← get
  set (calls ++ [call])
  pure (answer calls)

variable {calls calls' : List κ}

@[simp] theorem exec_pure (a : α) : exec (pure a : Program κ ε α) calls = (.ok a, calls) := rfl

@[simp] theorem exec_ask (call : κ) (answer : List κ → α) :
    exec (ask call answer : Program κ ε α) calls = (.ok (answer calls), calls ++ [call]) := rfl

theorem exec_attempt (wrap : ε' → ε) (x : Except ε' α) :
    exec (attempt wrap x : Program κ ε α) calls = (x.mapError wrap, calls) := by
  cases x <;> rfl

theorem exec_bind (m : Program κ ε α) (f : α → Program κ ε β) :
    exec (m >>= f) calls =
      match exec m calls with
      | (.ok a, calls') => exec (f a) calls'
      | (.error e, calls') => (.error e, calls') := by
  show (ExceptT.bindCont f (exec m calls).1).run (exec m calls).2 = _
  rcases exec m calls with ⟨_ | _, _⟩ <;> rfl

theorem exec_bind_of_ok {m : Program κ ε α} {a : α} (h : exec m calls = (.ok a, calls'))
    (f : α → Program κ ε β) : exec (m >>= f) calls = exec (f a) calls' := by
  rw [exec_bind, h]

/-- A program that succeeds, succeeds with its first part and then with the rest. -/
theorem exists_of_exec_bind {m : Program κ ε α} {f : α → Program κ ε β} {b : β}
    (h : exec (m >>= f) calls = (.ok b, calls')) :
    ∃ a middle, exec m calls = (.ok a, middle) ∧ exec (f a) middle = (.ok b, calls') := by
  rw [exec_bind] at h
  rcases hm : exec m calls with ⟨_ | a, middle⟩
  · rw [hm] at h
    cases congrArg Prod.fst h
  · rw [hm] at h
    exact ⟨a, middle, rfl, h⟩

/-- A program that fails, fails in its first part or in the rest. -/
theorem cases_of_exec_bind {m : Program κ ε α} {f : α → Program κ ε β} {e : ε}
    (h : exec (m >>= f) calls = (.error e, calls')) :
    exec m calls = (.error e, calls') ∨
      ∃ a middle, exec m calls = (.ok a, middle) ∧ exec (f a) middle = (.error e, calls') := by
  rw [exec_bind] at h
  rcases hm : exec m calls with ⟨e' | a, middle⟩
  · rw [hm] at h
    obtain ⟨he, rfl⟩ := Prod.mk.inj h
    obtain rfl := Except.error.inj he
    exact Or.inl rfl
  · rw [hm] at h
    exact Or.inr ⟨a, middle, rfl, h⟩

theorem exists_of_exec_attempt {wrap : ε' → ε} {x : Except ε' α} {a : α}
    (h : exec (attempt wrap x : Program κ ε α) calls = (.ok a, calls')) :
    x = .ok a ∧ calls' = calls := by
  cases x with
  | error e => cases congrArg Prod.fst h
  | ok a' =>
    obtain ⟨ha, hc⟩ := Prod.mk.injEq .. ▸ h
    exact ⟨by rw [Except.ok.inj ha], hc.symm⟩

theorem of_exec_pure {a b : α} (h : exec (pure a : Program κ ε α) calls = (.ok b, calls')) :
    a = b ∧ calls' = calls :=
  ⟨Except.ok.inj (congrArg Prod.fst h), (congrArg Prod.snd h).symm⟩

/-! ## The calls that are made -/

/-- The program makes these calls in this order, or stops with an error after some of them. -/
def Makes (m : Program κ ε α) (out : List κ) : Prop :=
  ∀ calls, ∃ made, (exec m calls).2 = calls ++ made ∧ made <+: out ∧
    ∀ a, (exec m calls).1 = .ok a → made = out

theorem makes_pure (a : α) : Makes (pure a : Program κ ε α) [] := fun _ =>
  ⟨[], (List.append_nil _).symm, List.prefix_rfl, fun _ _ => rfl⟩

theorem makes_attempt (wrap : ε' → ε) (x : Except ε' α) :
    Makes (attempt wrap x : Program κ ε α) [] := by
  intro calls
  rw [exec_attempt]
  exact ⟨[], (List.append_nil _).symm, List.prefix_rfl, fun _ _ => rfl⟩

theorem makes_ask (call : κ) (answer : List κ → α) :
    Makes (ask call answer : Program κ ε α) [call] := fun _ =>
  ⟨[call], rfl, List.prefix_rfl, fun _ _ => rfl⟩

theorem Makes.bind {m : Program κ ε α} {f : α → Program κ ε β} {out out' : List κ}
    (hm : Makes m out) (hf : ∀ a, Makes (f a) out') : Makes (m >>= f) (out ++ out') := by
  intro calls
  obtain ⟨made, hmade, hpre, hall⟩ := hm calls
  rw [exec_bind]
  rcases he : exec m calls with ⟨e | a, middle⟩
  · rw [he] at hmade
    exact ⟨made, hmade, hpre.trans (List.prefix_append _ _), fun b hb => nomatch hb⟩
  · rw [he] at hmade hall
    obtain rfl := hall a rfl
    obtain ⟨rest, hrest, hpre', hall'⟩ := hf a middle
    refine ⟨made ++ rest, ?_, (List.prefix_append_right_inj _).mpr hpre', fun b hb => ?_⟩
    · dsimp only at hmade ⊢
      rw [hrest, hmade, List.append_assoc]
    · rw [hall' b hb]

/-- A program that fails has made the first of its calls. -/
theorem Makes.prefix_of_error {m : Program κ ε α} {out : List κ} (hm : Makes m out) {e : ε}
    (h : exec m calls = (.error e, calls')) : ∃ made, calls' = calls ++ made ∧ made <+: out := by
  obtain ⟨made, hmade, hpre, -⟩ := hm calls
  rw [h] at hmade
  exact ⟨made, hmade, hpre⟩

end Calls
