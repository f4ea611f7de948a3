import Mathlib

/-!
# Runs of equal keys

A list cut into its longest stretches of one key, as a loop does that compares every element with
the group it made last. When the elements of no key are interrupted, each stretch holds all the
elements of its key; when some are, there are more stretches than keys.
-/

namespace Runs

variable {α κ : Type*} [DecidableEq κ] (key : α → κ)

def runs (l : List α) : List (List α) := l.splitBy fun a b => decide (key a = key b)

/-- One step of the loop. -/
def addTo (groups : List (List α)) (a : α) : List (List α) :=
  match groups.getLast? with
  | some g =>
    if g.head?.map key = some (key a) then groups.dropLast ++ [g ++ [a]] else groups ++ [[a]]
  | none => groups ++ [[a]]

theorem flatten_runs (l : List α) : (runs key l).flatten = l := List.flatten_splitBy _ l

/-- Lists that are cut by their keys: no list is empty, the elements of each have one key, and
neighbours have different keys. -/
structure Cut (gs : List (List α)) : Prop where
  ne_nil : ∀ g ∈ gs, g ≠ []
  key_eq : ∀ g ∈ gs, ∀ a ∈ g, ∀ b ∈ g, key a = key b
  chain : gs.IsChain fun g h => ∀ a ∈ g, ∀ b ∈ h, key a ≠ key b

variable {key} {l g : List α} {gs : List (List α)} {a : α}

theorem cut_runs (l : List α) : Cut key (runs key l) := by
  have hk : ∀ g ∈ runs key l, ∀ a ∈ g, ∀ b ∈ g, key a = key b := by
    intro g hg a ha b hb
    have hc : g.IsChain fun a b => key a = key b :=
      (List.isChain_of_mem_splitBy hg).imp fun a b hab => of_decide_eq_true hab
    have hp : g.Pairwise fun a b => key a = key b := List.isChain_iff_pairwise.mp hc
    have hs : Std.Symm fun a b => key a = key b := ⟨fun _ _ h => h.symm⟩
    by_cases he : a = b
    · rw [he]
    · exact hp.forall ha hb he
  refine ⟨fun g hg => List.ne_nil_of_mem_splitBy hg, hk, ?_⟩
  refine (List.isChain_getLast_head_splitBy _ l).imp_of_mem_imp ?_
  rintro g h hg hh ⟨hgn, hhn, hd⟩ a ha b hb hab
  refine of_decide_eq_false hd ?_
  rw [hk g hg _ (List.getLast_mem hgn) a ha, hab, hk h hh b hb _ (List.head_mem hhn)]

theorem runs_flatten (h : Cut key gs) : runs key gs.flatten = gs := by
  refine List.splitBy_flatten (fun hn => h.ne_nil [] hn rfl) ?_ ?_
  · intro g hg
    refine List.Pairwise.isChain (List.pairwise_of_forall_mem_list ?_)
    intro a ha b hb
    exact decide_eq_true (h.key_eq g hg a ha b hb)
  · refine h.chain.imp_of_mem_imp ?_
    intro g g' hg hg' hne
    refine ⟨h.ne_nil g hg, h.ne_nil g' hg', decide_eq_false ?_⟩
    exact hne _ (List.getLast_mem _) _ (List.head_mem _)

/-! ## The loop -/

theorem addTo_cases (h : Cut key gs) (a : α) :
    (∃ init g, gs = init ++ [g] ∧ (∀ b ∈ g, key b = key a) ∧
      addTo key gs a = init ++ [g ++ [a]]) ∨
    ((∀ g ∈ gs.getLast?, ∀ b ∈ g, key b ≠ key a) ∧ addTo key gs a = gs ++ [[a]]) := by
  rcases List.eq_nil_or_concat' gs with rfl | ⟨init, g, rfl⟩
  · exact Or.inr ⟨by simp, rfl⟩
  · have hg : g ∈ init ++ [g] := by simp
    cases g with
    | nil => exact absurd rfl (h.ne_nil [] hg)
    | cons c g =>
      have hc : c ∈ c :: g := List.mem_cons_self
      by_cases hk : key c = key a
      · refine Or.inl ⟨init, c :: g, rfl, fun b hb => ?_, ?_⟩
        · rw [h.key_eq _ hg b hb c hc, hk]
        · simp [addTo, hk]
      · refine Or.inr ⟨?_, ?_⟩
        · simp only [List.getLast?_append, List.getLast?_singleton, Option.some_or,
            Option.mem_some, forall_eq']
          intro b hb he
          exact hk (by rw [← he, h.key_eq _ hg c hc b hb])
        · simp [addTo, hk]

omit [DecidableEq κ] in
theorem key_eq_append (h : ∀ b ∈ g, key b = key a) : ∀ b ∈ g ++ [a], key b = key a := by
  intro b hb
  rcases List.mem_append.mp hb with hg | hs
  · exact h b hg
  · rw [List.mem_singleton.mp hs]

omit [DecidableEq κ] in
/-- The last list may grow by an element of its key. -/
theorem Cut.extend {init : List (List α)} (h : Cut key (init ++ [g]))
    (hk : ∀ b ∈ g, key b = key a) : Cut key (init ++ [g ++ [a]]) := by
  refine ⟨?_, ?_, ?_⟩
  · intro g' hg'
    rcases List.mem_append.mp hg' with hi | hs
    · exact h.ne_nil g' (List.mem_append_left _ hi)
    · rw [List.mem_singleton.mp hs]
      simp
  · intro g' hg' b hb c hc
    rcases List.mem_append.mp hg' with hi | hs
    · exact h.key_eq g' (List.mem_append_left _ hi) b hb c hc
    · rw [List.mem_singleton.mp hs] at hb hc
      rw [key_eq_append hk b hb, key_eq_append hk c hc]
  · have hc := h.chain
    rw [List.isChain_append] at hc ⊢
    refine ⟨hc.1, List.isChain_singleton _, fun x hx y hy b hb c hcy => ?_⟩
    -- the neighbour differs from the first element of `g`, whose key all of them have
    have hg : g ≠ [] := h.ne_nil g (by simp)
    have hy : y = g ++ [a] := by simpa using hy.symm
    have hne := hc.2.2 x hx g (by simp) b hb _ (List.head_mem hg)
    rw [hk _ (List.head_mem hg)] at hne
    rw [hy] at hcy
    rw [key_eq_append hk c hcy]
    exact hne

omit [DecidableEq κ] in
/-- An element of another key than the last list may come after it. -/
theorem Cut.concat (h : Cut key gs) (hk : ∀ g ∈ gs.getLast?, ∀ b ∈ g, key b ≠ key a) :
    Cut key (gs ++ [[a]]) := by
  refine ⟨?_, ?_, ?_⟩
  · intro g hg
    rcases List.mem_append.mp hg with hi | hs
    · exact h.ne_nil g hi
    · rw [List.mem_singleton.mp hs]
      simp
  · intro g hg b hb c hc
    rcases List.mem_append.mp hg with hi | hs
    · exact h.key_eq g hi b hb c hc
    · rw [List.mem_singleton.mp hs] at hb hc
      rw [List.mem_singleton.mp hb, List.mem_singleton.mp hc]
  · rw [List.isChain_append]
    refine ⟨h.chain, List.isChain_singleton _, fun x hx y hy b hb c hc => ?_⟩
    have hy : y = [a] := by simpa using hy.symm
    rw [hy, List.mem_singleton] at hc
    rw [hc]
    exact hk x hx b hb

theorem Cut.addTo (h : Cut key gs) (a : α) : Cut key (addTo key gs a) := by
  rcases addTo_cases h a with ⟨init, g, rfl, hk, he⟩ | ⟨hk, he⟩
  · rw [he]
    exact h.extend hk
  · rw [he]
    exact h.concat hk

theorem flatten_addTo (h : Cut key gs) (a : α) : (addTo key gs a).flatten = gs.flatten ++ [a] := by
  rcases addTo_cases h a with ⟨init, g, rfl, -, he⟩ | ⟨-, he⟩ <;> rw [he] <;> simp

omit [DecidableEq κ] in
theorem cut_nil : Cut key ([] : List (List α)) :=
  ⟨fun _ h => absurd h List.not_mem_nil, fun _ h => absurd h List.not_mem_nil, List.isChain_nil⟩

theorem foldl_addTo_of_cut (h : Cut key gs) (l : List α) :
    Cut key (l.foldl (addTo key) gs) ∧ (l.foldl (addTo key) gs).flatten = gs.flatten ++ l := by
  induction l generalizing gs with
  | nil => exact ⟨h, by simp⟩
  | cons a l ih =>
    obtain ⟨hc, hf⟩ := ih (h.addTo a)
    rw [List.foldl_cons]
    exact ⟨hc, by rw [hf, flatten_addTo h a]; simp⟩

/-- The loop computes the runs. -/
theorem foldl_addTo (l : List α) : l.foldl (addTo key) [] = runs key l := by
  have hnil : Cut key [] := cut_nil
  obtain ⟨hc, hf⟩ := foldl_addTo_of_cut hnil l
  have hr := runs_flatten hc
  rw [hf] at hr
  exact hr.symm

omit [DecidableEq κ] in
theorem Cut.tail (h : Cut key (g :: gs)) : Cut key gs :=
  ⟨fun g hg => h.ne_nil g (List.mem_cons_of_mem _ hg),
    fun g hg => h.key_eq g (List.mem_cons_of_mem _ hg), (List.isChain_cons.mp h.chain).2⟩

/-! ## Uninterrupted keys -/

/-- No element stands between two elements of another key. -/
def Uninterrupted (key : α → κ) (l : List α) : Prop :=
  ∀ a b c, [a, b, c].Sublist l → key a = key c → key b = key a

omit [DecidableEq κ] in
/-- In a sorted list, elements that may not stand the other way round come in their order. -/
theorem sublist_of_pairwise {r : α → α → Prop} (h : l.Pairwise r) {a b c : α} (ha : a ∈ l)
    (hb : b ∈ l) (hc : c ∈ l) (hab : a ≠ b) (hba : ¬ r b a) (hbc : b ≠ c) (hcb : ¬ r c b) :
    [a, b, c].Sublist l := by
  obtain ⟨l₁, l₂, rfl⟩ := List.append_of_mem hb
  obtain ⟨-, ht, hcross⟩ := List.pairwise_append.mp h
  have ha₁ : a ∈ l₁ := by
    rcases List.mem_append.mp ha with ha | ha
    · exact ha
    · rcases List.mem_cons.mp ha with rfl | ha
      · exact absurd rfl hab
      · exact absurd ((List.pairwise_cons.mp ht).1 a ha) hba
  have hc₂ : c ∈ l₂ := by
    rcases List.mem_append.mp hc with hc | hc
    · exact absurd (hcross c hc b List.mem_cons_self) hcb
    · rcases List.mem_cons.mp hc with rfl | hc
      · exact absurd rfl hbc
      · exact hc
  exact (List.singleton_sublist.mpr ha₁).append ((List.singleton_sublist.mpr hc₂).cons_cons b)

omit [DecidableEq κ] in
/-- Then no two runs have the same key. -/
theorem pairwise_of_uninterrupted (h : Cut key gs) (hu : Uninterrupted key gs.flatten) :
    gs.Pairwise fun g g' => ∀ a ∈ g, ∀ b ∈ g', key a ≠ key b := by
  induction gs with
  | nil => exact List.Pairwise.nil
  | cons g gs ih =>
    have hc := (List.isChain_cons.mp h.chain).1
    have ht : Cut key gs := h.tail
    refine List.pairwise_cons.mpr ⟨fun g' hg' a ha c hcg hac => ?_, ih ht fun a b c hs =>
      hu a b c (hs.trans (List.sublist_append_right g gs.flatten))⟩
    cases gs with
    | nil => exact absurd hg' List.not_mem_nil
    | cons n gs =>
      -- the next run stands between `g` and any later one of the same key
      have hn : n ≠ [] := ht.ne_nil n List.mem_cons_self
      have hne := hc n rfl
      rcases List.mem_cons.mp hg' with rfl | hg'
      · exact hne a ha c hcg hac
      · have hs : [a, n.head hn, c].Sublist (g :: n :: gs).flatten :=
          (List.singleton_sublist.mpr ha).append
            ((List.singleton_sublist.mpr (List.head_mem hn)).append
              (List.singleton_sublist.mpr (List.mem_flatten.mpr ⟨g', hg', hcg⟩)))
        exact hne a ha _ (List.head_mem hn) (hu a _ c hs hac).symm

omit [DecidableEq κ] in
theorem uninterrupted_of_pairwise (hk : ∀ g ∈ gs, ∀ a ∈ g, ∀ b ∈ g, key a = key b)
    (h : gs.Pairwise fun g g' => ∀ a ∈ g, ∀ b ∈ g', key a ≠ key b) :
    Uninterrupted key gs.flatten := by
  induction gs with
  | nil =>
    intro a b c hs
    exact absurd (hs.subset List.mem_cons_self) List.not_mem_nil
  | cons g gs ih =>
    obtain ⟨hg, ht⟩ := List.pairwise_cons.mp h
    intro a b c hs hac
    rw [List.flatten_cons, List.sublist_append_iff] at hs
    obtain ⟨l₁, l₂, he, h₁, h₂⟩ := hs
    rcases l₁ with _ | ⟨a', _ | ⟨b', l₁⟩⟩
    · rw [List.nil_append] at he
      rw [← he] at h₂
      exact ih (fun g hg => hk g (List.mem_cons_of_mem _ hg)) ht a b c h₂ hac
    · -- `a` is in `g` and `c` is not
      rw [List.cons_append, List.nil_append, List.cons.injEq] at he
      obtain ⟨rfl, rfl⟩ := he
      obtain ⟨g', hg', hc⟩ := List.mem_flatten.mp (h₂.subset (show c ∈ [b, c] by simp))
      exact absurd hac (hg g' hg' a (h₁.subset (by simp)) c hc)
    · -- `a` and `b` are both in `g`
      rw [List.cons_append, List.cons_append, List.cons.injEq, List.cons.injEq] at he
      obtain ⟨rfl, rfl, -⟩ := he
      exact hk g List.mem_cons_self b (h₁.subset (by simp)) a (h₁.subset (by simp))

/-- A run of an uninterrupted key holds all its elements. -/
theorem run_eq_filter (hu : Uninterrupted key l) (hg : g ∈ runs key l) (ha : a ∈ g) :
    g = l.filter fun b => key b = key a := by
  have hc : Cut key (runs key l) := cut_runs l
  have hp := pairwise_of_uninterrupted hc (by rwa [flatten_runs])
  rw [← flatten_runs key l]
  generalize runs key l = gs at hg hc hp
  induction gs with
  | nil => exact absurd hg List.not_mem_nil
  | cons g' gs ih =>
    obtain ⟨hne, ht⟩ := List.pairwise_cons.mp hp
    rw [List.flatten_cons, List.filter_append]
    rcases List.mem_cons.mp hg with rfl | hg
    · have hin : g.filter (fun b => key b = key a) = g :=
        List.filter_eq_self.mpr fun b hb =>
          decide_eq_true (hc.key_eq g List.mem_cons_self b hb a ha)
      -- no later run has the key of `g`
      have hout : gs.flatten.filter (fun b => key b = key a) = [] := by
        refine List.filter_eq_nil_iff.mpr fun b hb => ?_
        obtain ⟨g', hg', hb⟩ := List.mem_flatten.mp hb
        simpa using (hne g' hg' a ha b hb).symm
      rw [hin, hout, List.append_nil]
    · have hout : g'.filter (fun b => key b = key a) = [] := by
        refine List.filter_eq_nil_iff.mpr fun b hb => ?_
        simpa using hne g hg b hb a ha
      rw [hout, List.nil_append]
      exact ih hg hc.tail ht

/-! ## How many runs there are -/

theorem subset_head_keys {ks : List κ} (h : ∀ k ∈ ks, ∃ a ∈ l, key a = k) :
    ks.map some ⊆ (runs key l).map fun g => g.head?.map key := by
  intro x hx
  obtain ⟨k, hk, rfl⟩ := List.mem_map.mp hx
  obtain ⟨a, ha, rfl⟩ := h k hk
  rw [← flatten_runs key l] at ha
  obtain ⟨g, hg, ha⟩ := List.mem_flatten.mp ha
  refine List.mem_map.mpr ⟨g, hg, ?_⟩
  have hc : Cut key (runs key l) := cut_runs l
  have hn := hc.ne_nil g hg
  rw [List.head?_eq_some_head hn, Option.map_some,
    hc.key_eq g hg _ (List.head_mem hn) a ha]

theorem length_le_length_runs {ks : List κ} (hn : ks.Nodup) (h : ∀ k ∈ ks, ∃ a ∈ l, key a = k) :
    ks.length ≤ (runs key l).length := by
  have hs := List.subperm_of_subset (hn.map (Option.some_injective κ)) (subset_head_keys h)
  simpa using hs.length_le

/-- As many runs as keys: then no key is interrupted. -/
theorem uninterrupted_of_length_le {ks : List κ} (hn : ks.Nodup)
    (h : ∀ k ∈ ks, ∃ a ∈ l, key a = k) (hl : (runs key l).length ≤ ks.length) :
    Uninterrupted key l := by
  have hs := List.subperm_of_subset (hn.map (Option.some_injective κ)) (subset_head_keys h)
  have hp := hs.perm_of_length_le (by simpa using hl)
  -- each key is the head of one run, so no two runs have the same
  have hd := hp.nodup_iff.mp (hn.map (Option.some_injective κ))
  have hc : Cut key (runs key l) := cut_runs l
  rw [← flatten_runs key l]
  refine uninterrupted_of_pairwise hc.key_eq ?_
  have hpair : ((runs key l).Pairwise fun g g' => g.head?.map key ≠ g'.head?.map key) :=
    List.pairwise_map.mp hd
  refine hpair.imp_of_mem fun {g g'} hg hg' hne a ha b hb hab => hne ?_
  have hgn := hc.ne_nil g hg
  have hgn' := hc.ne_nil g' hg'
  rw [List.head?_eq_some_head hgn, List.head?_eq_some_head hgn', Option.map_some, Option.map_some,
    hc.key_eq g hg _ (List.head_mem hgn) a ha, hab,
    hc.key_eq g' hg' b hb _ (List.head_mem hgn')]

end Runs
