import DsSqlDps.Rdf.Store

namespace Sparql
open Rdf

/-- A solution mapping: the variables it binds, the latest binding first. -/
abbrev Solution := List (String × Term)

def Solution.get (μ : Solution) (v : String) : Option Term := μ.lookup v

@[simp] theorem Solution.get_nil (v : String) : Solution.get [] v = none := rfl

@[simp] theorem Solution.get_cons (μ : Solution) (u v : String) (t : Term) :
    Solution.get ((u, t) :: μ) v = if v = u then some t else μ.get v := by
  by_cases h : v = u
  · simp [Solution.get, h]
  · have hb : (v == u) = false := by simpa using h
    simp [Solution.get, List.lookup_cons, h, hb]

theorem Solution.get_eq_none_iff (μ : Solution) (v : String) :
    μ.get v = none ↔ v ∉ μ.map Prod.fst := by
  induction μ with
  | nil => simp
  | cons b μ ih =>
    rw [Solution.get_cons, List.map_cons, List.mem_cons, not_or, ← ih]
    by_cases h : v = b.1 <;> simp [h]

inductive TermPattern
  | var (name : String)
  | term (t : Term)
deriving DecidableEq, Repr

structure TriplePattern where
  subject : TermPattern
  predicate : TermPattern
  object : TermPattern
deriving DecidableEq, Repr

/-- What the pattern stands for under a solution. -/
def TermPattern.value (μ : Solution) : TermPattern → Option Term
  | .var v => μ.get v
  | .term t => some t

/-- A variable that is already bound must be bound to the same term. -/
def TermPattern.extend (μ : Solution) (p : TermPattern) (t : Term) : Option Solution :=
  match p with
  | .term u => if u = t then some μ else none
  | .var v =>
    match μ.get v with
    | some u => if u = t then some μ else none
    | none => some ((v, t) :: μ)

def TriplePattern.extend (μ : Solution) (p : TriplePattern) (q : Quad) : Option Solution := do
  let μ ← p.subject.extend μ q.subject
  let μ ← p.predicate.extend μ q.predicate
  p.object.extend μ q.object

/-- The solutions of a basic graph pattern that extend `μ`. -/
def bgpFrom (g : Store) : List TriplePattern → Solution → List Solution
  | [], μ => [μ]
  | p :: ps, μ => (g.quads.filterMap (p.extend μ)).flatMap (bgpFrom g ps)

/-- `OPTIONAL`: a solution that the optional part does not extend is kept as it is. -/
def optional (g : Store) (ps : List TriplePattern) (μ : Solution) : List Solution :=
  if bgpFrom g ps μ = [] then [μ] else bgpFrom g ps μ

/-! ## One step of a match -/

theorem extend_term_cases {μ ν : Solution} {p : TermPattern} {t : Term}
    (h : p.extend μ t = some ν) :
    (p.value μ = some t ∧ ν = μ) ∨ ∃ v, p = .var v ∧ μ.get v = none ∧ ν = (v, t) :: μ := by
  cases p with
  | term u =>
    simp only [TermPattern.extend, Option.ite_none_right_eq_some, Option.some.injEq] at h
    exact Or.inl ⟨congrArg some h.1, h.2.symm⟩
  | var v =>
    cases hv : μ.get v with
    | none =>
      simp only [TermPattern.extend, hv, Option.some.injEq] at h
      exact Or.inr ⟨v, rfl, hv, h.symm⟩
    | some u =>
      simp only [TermPattern.extend, hv, Option.ite_none_right_eq_some, Option.some.injEq] at h
      exact Or.inl ⟨hv.trans (congrArg some h.1), h.2.symm⟩

theorem extend_of_value {μ : Solution} {p : TermPattern} {s : Term} (h : p.value μ = some s)
    (t : Term) : p.extend μ t = if s = t then some μ else none := by
  cases p with
  | term u =>
    rw [TermPattern.value, Option.some.injEq] at h
    rw [TermPattern.extend, h]
  | var v =>
    rw [TermPattern.value] at h
    simp only [TermPattern.extend, h]

theorem extend_term_suffix {μ ν : Solution} {p : TermPattern} {t : Term}
    (h : p.extend μ t = some ν) : μ <:+ ν := by
  rcases extend_term_cases h with ⟨-, rfl⟩ | ⟨v, -, -, rfl⟩
  · exact List.suffix_rfl
  · exact List.suffix_cons _ _

theorem extend_term_get {μ ν : Solution} {p : TermPattern} {t u : Term} {v : String}
    (h : p.extend μ t = some ν) (hv : μ.get v = some u) : ν.get v = some u := by
  rcases extend_term_cases h with ⟨-, rfl⟩ | ⟨w, -, hw, rfl⟩
  · exact hv
  · have hne : v ≠ w := by
      rintro rfl
      rw [hw] at hv
      cases hv
    rw [Solution.get_cons, if_neg hne, hv]

theorem extend_term_value {μ ν : Solution} {p : TermPattern} {t : Term}
    (h : p.extend μ t = some ν) : p.value ν = some t := by
  rcases extend_term_cases h with ⟨hv, rfl⟩ | ⟨v, rfl, -, rfl⟩
  · exact hv
  · simp [TermPattern.value]

theorem value_of_extend {μ ν : Solution} {p r : TermPattern} {t u : Term}
    (h : p.extend μ t = some ν) (hr : r.value μ = some u) : r.value ν = some u := by
  cases r with
  | term => exact hr
  | var v => exact extend_term_get h hr

/-- Which variables a match binds does not depend on the term matched. -/
theorem extend_term_vars {μ μ' ν ν' : Solution} {p : TermPattern} {t t' : Term}
    (hμ : μ.map Prod.fst = μ'.map Prod.fst)
    (h : p.extend μ t = some ν) (h' : p.extend μ' t' = some ν') :
    ν.map Prod.fst = ν'.map Prod.fst := by
  have hbound : ∀ v, μ.get v = none ↔ μ'.get v = none := fun v => by
    rw [Solution.get_eq_none_iff, Solution.get_eq_none_iff, hμ]
  rcases extend_term_cases h with ⟨hv, rfl⟩ | ⟨v, rfl, hv, rfl⟩ <;>
    rcases extend_term_cases h' with ⟨hv', rfl⟩ | ⟨w, hw, hv', rfl⟩
  · exact hμ
  · rw [hw, TermPattern.value, (hbound w).mpr hv'] at hv
    cases hv
  · rw [TermPattern.value, (hbound v).mp hv] at hv'
    cases hv'
  · cases hw
    simp [hμ]

theorem extend_quad_cases {μ ν : Solution} {p : TriplePattern} {q : Quad}
    (h : p.extend μ q = some ν) :
    ∃ μ₁ μ₂, p.subject.extend μ q.subject = some μ₁ ∧
      p.predicate.extend μ₁ q.predicate = some μ₂ ∧ p.object.extend μ₂ q.object = some ν := by
  simp only [TriplePattern.extend, Option.bind_eq_bind, Option.bind_eq_some_iff] at h
  obtain ⟨μ₁, h₁, μ₂, h₂, h₃⟩ := h
  exact ⟨μ₁, μ₂, h₁, h₂, h₃⟩

theorem extend_quad_suffix {μ ν : Solution} {p : TriplePattern} {q : Quad}
    (h : p.extend μ q = some ν) : μ <:+ ν := by
  obtain ⟨μ₁, μ₂, h₁, h₂, h₃⟩ := extend_quad_cases h
  exact ((extend_term_suffix h₁).trans (extend_term_suffix h₂)).trans (extend_term_suffix h₃)

theorem extend_quad_vars {μ ν ν' : Solution} {p : TriplePattern} {q q' : Quad}
    (h : p.extend μ q = some ν) (h' : p.extend μ q' = some ν') :
    ν.map Prod.fst = ν'.map Prod.fst := by
  obtain ⟨μ₁, μ₂, h₁, h₂, h₃⟩ := extend_quad_cases h
  obtain ⟨μ₁', μ₂', h₁', h₂', h₃'⟩ := extend_quad_cases h'
  exact extend_term_vars (extend_term_vars (extend_term_vars rfl h₁ h₁') h₂ h₂') h₃ h₃'

/-- The solution reached gives the quad back. -/
theorem extend_quad_injective {μ ν : Solution} {p : TriplePattern} {q q' : Quad}
    (h : p.extend μ q = some ν) (h' : p.extend μ q' = some ν) : q = q' := by
  obtain ⟨μ₁, μ₂, h₁, h₂, h₃⟩ := extend_quad_cases h
  obtain ⟨μ₁', μ₂', h₁', h₂', h₃'⟩ := extend_quad_cases h'
  have hs : q.subject = q'.subject := by
    have hv := value_of_extend h₃ (value_of_extend h₂ (extend_term_value h₁))
    rw [value_of_extend h₃' (value_of_extend h₂' (extend_term_value h₁'))] at hv
    exact (Option.some.inj hv).symm
  have hp : q.predicate = q'.predicate := by
    have hv := value_of_extend h₃ (extend_term_value h₂)
    rw [value_of_extend h₃' (extend_term_value h₂')] at hv
    exact (Option.some.inj hv).symm
  have ho : q.object = q'.object := by
    have hv := extend_term_value h₃
    rw [extend_term_value h₃'] at hv
    exact (Option.some.inj hv).symm
  cases q
  cases q'
  simp_all

/-! ## Basic graph patterns -/

theorem mem_bgpFrom_cons {g : Store} {p : TriplePattern} {ps : List TriplePattern}
    {μ ν : Solution} :
    ν ∈ bgpFrom g (p :: ps) μ ↔ ∃ q ∈ g, ∃ μ', p.extend μ q = some μ' ∧ ν ∈ bgpFrom g ps μ' := by
  simp only [bgpFrom, List.mem_flatMap, List.mem_filterMap, Store.mem_def]
  constructor
  · rintro ⟨μ', ⟨q, hq, hμ⟩, hν⟩
    exact ⟨q, hq, μ', hμ, hν⟩
  · rintro ⟨q, hq, μ', hμ, hν⟩
    exact ⟨μ', ⟨q, hq, hμ⟩, hν⟩

@[simp] theorem mem_bgpFrom_nil {g : Store} {μ ν : Solution} :
    ν ∈ bgpFrom g [] μ ↔ ν = μ := List.mem_singleton

/-- The shape of every pattern here: the subject and the predicate are known, the object is a
variable that the pattern binds. -/
theorem mem_bgpFrom_object {g : Store} {s : TermPattern} {t p : Term} {v : String}
    {ps : List TriplePattern} {μ ν : Solution} (hs : s.value μ = some t) (hv : μ.get v = none) :
    ν ∈ bgpFrom g (⟨s, .term p, .var v⟩ :: ps) μ ↔
      ∃ o, ⟨t, p, o⟩ ∈ g ∧ ν ∈ bgpFrom g ps ((v, o) :: μ) := by
  have he (q : Quad) : TriplePattern.extend μ ⟨s, .term p, .var v⟩ q =
      if t = q.subject ∧ p = q.predicate then some ((v, q.object) :: μ) else none := by
    simp only [TriplePattern.extend, extend_of_value hs, Option.bind_eq_bind]
    by_cases h : t = q.subject
    · by_cases h' : p = q.predicate
      · simp [h, h', TermPattern.extend, hv]
      · simp [h, h', TermPattern.extend]
    · simp [h]
  rw [mem_bgpFrom_cons]
  constructor
  · rintro ⟨q, hq, μ', hμ, hν⟩
    rw [he, Option.ite_none_right_eq_some, Option.some.injEq] at hμ
    obtain ⟨⟨rfl, rfl⟩, rfl⟩ := hμ
    exact ⟨q.object, hq, hν⟩
  · rintro ⟨o, ho, hν⟩
    exact ⟨⟨t, p, o⟩, ho, _, by rw [he, if_pos ⟨rfl, rfl⟩], hν⟩

theorem bgpFrom_suffix {g : Store} {ps : List TriplePattern} {μ ν : Solution}
    (h : ν ∈ bgpFrom g ps μ) : μ <:+ ν := by
  induction ps generalizing μ with
  | nil => rw [mem_bgpFrom_nil.mp h]
  | cons p ps ih =>
    obtain ⟨q, -, μ', hμ, hν⟩ := mem_bgpFrom_cons.mp h
    exact (extend_quad_suffix hμ).trans (ih hν)

/-- Two solutions with the same variables that a third one ends in are the same. -/
theorem suffix_unique {μ μ' ν : Solution} (hvars : μ.map Prod.fst = μ'.map Prod.fst)
    (h : μ <:+ ν) (h' : μ' <:+ ν) : μ = μ' := by
  have hl : μ.length = μ'.length := by simpa using congrArg List.length hvars
  exact (List.suffix_of_suffix_length_le h h' hl.le).eq_of_length hl

/-- No solution of a basic graph pattern is found twice. -/
theorem bgpFrom_nodup (g : Store) (ps : List TriplePattern) (μ : Solution) :
    (bgpFrom g ps μ).Nodup := by
  induction ps generalizing μ with
  | nil => exact List.nodup_singleton μ
  | cons p ps ih =>
    have hn : (g.quads.filterMap (p.extend μ)).Nodup :=
      g.nodup.filterMap fun q q' ν h h' => extend_quad_injective h h'
    rw [bgpFrom, List.nodup_flatMap]
    refine ⟨fun μ' _ => ih μ', hn.imp_of_mem ?_⟩
    intro μ₁ μ₂ h₁ h₂ hne ν hν₁ hν₂
    obtain ⟨q₁, -, hq₁⟩ := List.mem_filterMap.mp h₁
    obtain ⟨q₂, -, hq₂⟩ := List.mem_filterMap.mp h₂
    exact hne (suffix_unique (extend_quad_vars hq₁ hq₂) (bgpFrom_suffix hν₁) (bgpFrom_suffix hν₂))

theorem optional_suffix {g : Store} {ps : List TriplePattern} {μ ν : Solution}
    (h : ν ∈ optional g ps μ) : μ <:+ ν := by
  unfold optional at h
  split_ifs at h
  · rw [List.mem_singleton.mp h]
  · exact bgpFrom_suffix h

theorem optional_nodup (g : Store) (ps : List TriplePattern) (μ : Solution) :
    (optional g ps μ).Nodup := by
  unfold optional
  split_ifs
  · exact List.nodup_singleton μ
  · exact bgpFrom_nodup g ps μ

/-- All solutions of a basic graph pattern bind the same variables. -/
theorem bgpFrom_vars {g : Store} {ps : List TriplePattern} {μ μ' ν ν' : Solution}
    (hμ : μ.map Prod.fst = μ'.map Prod.fst)
    (h : ν ∈ bgpFrom g ps μ) (h' : ν' ∈ bgpFrom g ps μ') :
    ν.map Prod.fst = ν'.map Prod.fst := by
  induction ps generalizing μ μ' with
  | nil => rw [mem_bgpFrom_nil.mp h, mem_bgpFrom_nil.mp h', hμ]
  | cons p ps ih =>
    obtain ⟨q, -, μ₁, hμ₁, hν⟩ := mem_bgpFrom_cons.mp h
    obtain ⟨q', -, μ₁', hμ₁', hν'⟩ := mem_bgpFrom_cons.mp h'
    obtain ⟨a, b, ha, hb, hc⟩ := extend_quad_cases hμ₁
    obtain ⟨a', b', ha', hb', hc'⟩ := extend_quad_cases hμ₁'
    exact ih (extend_term_vars (extend_term_vars (extend_term_vars hμ ha ha') hb hb') hc hc') hν hν'

/-! ## Queries -/

/-- `SELECT select WHERE { required OPTIONAL { optional } } ORDER BY orderBy`. -/
structure Query where
  select : List String
  required : List TriplePattern
  optional : Option (List TriplePattern)
  orderBy : List String
deriving DecidableEq, Repr

def Query.solutions (q : Query) (g : Store) : List Solution :=
  match q.optional with
  | none => bgpFrom g q.required []
  | some ps => (bgpFrom g q.required []).flatMap (Sparql.optional g ps)

def Solution.project (vs : List String) (μ : Solution) : Solution := μ.filter fun b => b.1 ∈ vs

theorem Solution.get_project (vs : List String) (μ : Solution) (v : String) (h : v ∈ vs) :
    (μ.project vs).get v = μ.get v := by
  induction μ with
  | nil => rfl
  | cons b μ ih =>
    unfold Solution.project at ih ⊢
    by_cases hb : b.1 ∈ vs
    · rw [List.filter_cons_of_pos (by simpa using hb), Solution.get_cons, Solution.get_cons, ih]
    · have hne : v ≠ b.1 := fun he => hb (he ▸ h)
      rw [List.filter_cons_of_neg (by simpa using hb), Solution.get_cons, if_neg hne, ih]

/-- The value of an `xsd:integer` literal written as digits. -/
def integerValue : Term → Option ℕ
  | .literal v d =>
    if d = xsdInteger ∧ v.toList ≠ [] ∧ v.toList.all Char.isDigit = true then
      some (Nat.ofDigitChars 10 v.toList 0)
    else none
  | _ => none

@[simp] theorem integerValue_integer (n : ℕ) : integerValue (.integer n) = some n := by
  have hd : (Nat.toDigits 10 n).all Char.isDigit = true := by
    rw [List.all_eq_true]
    intro c hc
    exact Nat.isDigit_of_mem_toDigits (by decide) (by decide) hc
  simp only [Term.integer, integerValue, Nat.toList_repr, Nat.ofDigitChars_ten_toDigits]
  rw [if_pos ⟨trivial, Nat.toDigits_ne_nil, hd⟩]

/-- The place of a sort key, where `ORDER BY` fixes one: an unbound variable comes before every
integer, and integers compare by value. -/
def sortRank : Option Term → Option ℕ
  | none => some 0
  | some t => (integerValue t).map (· + 1)

@[simp] theorem sortRank_none : sortRank none = some 0 := rfl

@[simp] theorem sortRank_integer (n : ℕ) : sortRank (some (.integer n)) = some (n + 1) := by
  simp [sortRank]

def Query.key (q : Query) (μ : Solution) : List ℕ :=
  q.orderBy.map fun v => (sortRank (μ.get v)).getD 0

/-- Sorted as `ORDER BY` asks. Other terms than integers have no order fixed here, and nothing
is said of the order of tied solutions. -/
def Query.Ordered (q : Query) (l : List Solution) : Prop :=
  (∀ μ ∈ l, ∀ v ∈ q.orderBy, (sortRank (μ.get v)).isSome) →
    l.Pairwise fun μ ν => q.key μ ≤ q.key ν

/-- The sequences of solutions that are right answers to the query. -/
def Query.Answers (q : Query) (g : Store) (rows : List Solution) : Prop :=
  ∃ l : List Solution,
    l.Perm (q.solutions g) ∧ q.Ordered l ∧ rows = l.map (Solution.project q.select)

theorem Query.solutions_nodup (q : Query) (g : Store) : (q.solutions g).Nodup := by
  unfold Query.solutions
  cases q.optional with
  | none => exact bgpFrom_nodup g q.required []
  | some ps =>
    simp only [List.nodup_flatMap]
    refine ⟨fun μ _ => optional_nodup g ps μ, (bgpFrom_nodup g q.required []).imp_of_mem ?_⟩
    intro μ₁ μ₂ h₁ h₂ hne ν hν₁ hν₂
    exact hne (suffix_unique (bgpFrom_vars rfl h₁ h₂) (optional_suffix hν₁) (optional_suffix hν₂))

/-- One answer: sorted by the keys, tied solutions by a further rank. -/
def Query.answer (q : Query) (tie : Solution → ℕ) (g : Store) : List Solution :=
  (q.solutions g).mergeSort fun μ ν => decide (q.key μ ++ [tie μ] ≤ q.key ν ++ [tie ν])

theorem Query.answer_perm (q : Query) (tie : Solution → ℕ) (g : Store) :
    (q.answer tie g).Perm (q.solutions g) := List.mergeSort_perm _ _

theorem Query.answer_sorted (q : Query) (tie : Solution → ℕ) (g : Store) :
    (q.answer tie g).Pairwise fun μ ν => q.key μ ++ [tie μ] ≤ q.key ν ++ [tie ν] := by
  have h : (q.answer tie g).Pairwise fun μ ν => decide (q.key μ ++ [tie μ] ≤ q.key ν ++ [tie ν]) :=
    List.pairwise_mergeSort
      (by
        intro a b c hab hbc
        simp only [decide_eq_true_eq] at hab hbc ⊢
        exact le_trans hab hbc)
      (by
        intro a b
        simpa using le_total (q.key a ++ [tie a]) (q.key b ++ [tie b])) (q.solutions g)
  simpa only [decide_eq_true_eq] using h

end Sparql
