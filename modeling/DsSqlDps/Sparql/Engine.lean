import DsSqlDps.Net.Iri

/-!
# A SPARQL engine

A triple store's IRI check and its query execution, known only through what RFC 3987 and the
SPARQL 1.1 recommendation say of them. Where the recommendation leaves a choice, as for the
order of tied solutions or for text outside the grammar read here, an engine may do anything.
-/

namespace Sparql
open Rdf

def TermPattern.iri? : TermPattern → Option String
  | .term (.iri i) => some i
  | _ => none

def TriplePattern.iris (p : TriplePattern) : List String :=
  [p.subject, p.predicate, p.object].filterMap TermPattern.iri?

def Query.iris (q : Query) : List String :=
  (q.required ++ q.optional.getD []).flatMap TriplePattern.iris

inductive QueryError
  | syntaxError (message : String)
  | evaluation (message : String)
deriving DecidableEq, Repr

/-- Solutions are computed while they are read, so each may be an error. -/
inductive QueryResults
  | solutions (rows : List (Except String Solution))
  | other

structure Engine where
  /-- The error text, for a text that is no IRI. -/
  namedNode : String → Except String Unit
  execute : Store → String → Except QueryError QueryResults
  namedNode_check : ∀ s b, Iri.check s.toList = some b → (namedNode s).isOk = b
  /-- A query is answered, unless one of its IRIs fails the check. -/
  execute_query : ∀ g text q iris, readQuery text = .query q iris →
    (∃ rows, execute g text = .ok (.solutions (rows.map .ok)) ∧ q.Answers g rows) ∨
      ((∃ i ∈ iris ++ q.iris, (namedNode i).isOk = false) ∧ ∃ e, execute g text = .error e)
  execute_syntaxError : ∀ g text, readQuery text = .syntaxError → ∃ e, execute g text = .error e

namespace Engine

theorem execute_of_valid (e : Engine) {g : Store} {text : String} {q : Query} {iris : List String}
    (h : readQuery text = .query q iris) (hv : ∀ i ∈ iris ++ q.iris, (e.namedNode i).isOk = true) :
    ∃ rows, e.execute g text = .ok (.solutions (rows.map .ok)) ∧ q.Answers g rows := by
  rcases e.execute_query g text q iris h with ha | ⟨⟨i, hi, hb⟩, -⟩
  · exact ha
  · rw [hv i hi] at hb
    cases hb

/-- Between sequences of one length, what comes after does not change which is smaller. -/
theorem append_lt_append {as bs : List ℕ} (hl : as.length = bs.length) (h : as < bs)
    (cs ds : List ℕ) : as ++ cs < bs ++ ds := by
  induction as generalizing bs with
  | nil =>
    rw [List.length_eq_zero_iff.mp hl.symm] at h
    exact absurd h (lt_irrefl _)
  | cons a as ih =>
    cases bs with
    | nil => cases hl
    | cons b bs =>
      rw [List.cons_append, List.cons_append, List.cons_lt_cons_iff]
      rcases List.cons_lt_cons_iff.mp h with hab | ⟨rfl, hlt⟩
      · exact Or.inl hab
      · exact Or.inr ⟨rfl, ih (Nat.succ.inj hl) hlt⟩

theorem key_le_of_append {q : Query} {μ ν : Solution} {m n : ℕ}
    (h : q.key μ ++ [m] ≤ q.key ν ++ [n]) : q.key μ ≤ q.key ν := by
  have hl : (q.key μ).length = (q.key ν).length := by simp [Query.key]
  by_contra hlt
  exact absurd h (not_le.mpr (append_lt_append hl.symm (not_le.mp hlt) _ _))

theorem answers_answer (q : Query) (tie : Solution → ℕ) (g : Store) :
    q.Answers g ((q.answer tie g).map (Solution.project q.select)) := by
  exact ⟨q.answer tie g, q.answer_perm tie g,
    fun _ => (q.answer_sorted tie g).imp fun h => key_le_of_append h, rfl⟩

/-- An engine that reads what is read here and rejects any other text. -/
def reference (tie : Solution → ℕ) : Engine where
  namedNode s := if (Iri.check s.toList).getD false then .ok () else .error "not an IRI"
  execute g text :=
    match readQuery text with
    | .query q _ => .ok (.solutions (((q.answer tie g).map (Solution.project q.select)).map .ok))
    | _ => .error (.syntaxError "not read")
  namedNode_check := by
    intro s b h
    cases b <;> simp [h, Except.isOk, Except.toBool]
  execute_query := by
    intro g text q iris h
    exact Or.inl ⟨_, by rw [h], answers_answer q tie g⟩
  execute_syntaxError := by
    intro g text h
    exact ⟨_, by rw [h]⟩

/-- Where the engine answers with a syntax error: a text that is no query, and a query with
something between angle brackets that is no IRI. -/
structure ParsesFirst (e : Engine) : Prop where
  text : ∀ g text, readQuery text = .syntaxError → ∃ m, e.execute g text = .error (.syntaxError m)
  iri : ∀ g text q iris, readQuery text = .query q iris → ∀ i ∈ iris ++ q.iris,
    (e.namedNode i).isOk = false → ∃ m, e.execute g text = .error (.syntaxError m)

/-- The same engine, but it checks the IRIs of a query before it answers it. -/
def strict (tie : Solution → ℕ) : Engine where
  namedNode := (reference tie).namedNode
  execute g text :=
    match readQuery text with
    | .query q iris =>
      if (iris ++ q.iris).all fun i => ((reference tie).namedNode i).isOk then
        .ok (.solutions (((q.answer tie g).map (Solution.project q.select)).map .ok))
      else .error (.syntaxError "not an IRI")
    | _ => .error (.syntaxError "not read")
  namedNode_check := (reference tie).namedNode_check
  execute_query := by
    intro g text q iris h
    by_cases hv : ((iris ++ q.iris).all fun i => ((reference tie).namedNode i).isOk) = true
    · exact Or.inl ⟨_, by rw [h]; exact if_pos hv, answers_answer q tie g⟩
    · obtain ⟨i, hi, hb⟩ := List.all_eq_false.mp (Bool.eq_false_iff.mpr hv)
      exact Or.inr ⟨⟨i, hi, Bool.eq_false_iff.mpr hb⟩, _, by rw [h]; exact if_neg hv⟩
  execute_syntaxError := by
    intro g text h
    exact ⟨_, by rw [h]⟩

theorem parsesFirst_strict (tie : Solution → ℕ) : (strict tie).ParsesFirst where
  text g text h := ⟨"not read", by rw [strict]; dsimp only; rw [h]⟩
  iri g text q iris h i hi hb := by
    have hv : ¬ ((iris ++ q.iris).all fun i => ((reference tie).namedNode i).isOk) = true :=
      fun hv => Bool.false_ne_true (hb.symm.trans (List.all_eq_true.mp hv i hi))
    refine ⟨"not an IRI", ?_⟩
    rw [strict]
    dsimp only
    rw [h]
    exact if_neg hv

end Engine
end Sparql
