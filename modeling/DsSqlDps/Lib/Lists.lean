import Mathlib

/-!
# Lists

Two cuts of one list, the last element of a list, and lists that are images of others.
-/

namespace Lists

variable {α β : Type*}

/-! ## Cuts -/

/-- A beginning of a list that reaches an element has all that stands before it. -/
theorem mem_of_first {l₁ l₂ pre post : List α} {q a : α} (h : l₁ ++ l₂ = pre ++ post)
    (hq : q ∈ pre) (hn : q ∉ l₁) (ha : a ∈ l₁) : a ∈ pre := by
  rcases List.append_eq_append_iff.mp h with ⟨x, rfl, -⟩ | ⟨x, rfl, -⟩
  · exact List.mem_append_left _ ha
  · exact absurd (List.mem_append_left _ hq) hn

/-- A beginning of a list that is no beginning of what stands before an element reaches it. -/
theorem mem_of_append_eq {x : α} {as bs rest : List α} (ds : List α)
    (h : as ++ x :: bs = ds ++ rest) (hn : ∀ cs, as ≠ ds ++ cs) : x ∈ ds := by
  rcases List.append_eq_append_iff.mp h with ⟨es, hd, he⟩ | ⟨es, ha, -⟩
  · cases es with
    | nil => exact absurd (by rw [hd]; simp) (hn [])
    | cons e es =>
      rw [List.cons_append, List.cons.injEq] at he
      rw [hd, ← he.1]
      simp
  · exact absurd ha (hn es)

/-! ## The last element -/

theorem modifyLast_id (l : List α) : l.modifyLast (fun a => a) = l := by
  rcases List.eq_nil_or_concat' l with rfl | ⟨init, a, rfl⟩
  · rfl
  · rw [List.modifyLast_concat]

/-! ## Images -/

theorem exists_map_of_forall (f : α → β) (p : α → Prop) {bs : List β}
    (h : ∀ b ∈ bs, ∃ a, p a ∧ b = f a) : ∃ as : List α, bs = as.map f ∧ ∀ a ∈ as, p a := by
  induction bs with
  | nil => exact ⟨[], rfl, fun _ ha => absurd ha List.not_mem_nil⟩
  | cons b bs ih =>
    obtain ⟨as, rfl, has⟩ := ih fun b hb => h b (List.mem_cons_of_mem _ hb)
    obtain ⟨a, ha, rfl⟩ := h b List.mem_cons_self
    refine ⟨a :: as, rfl, fun x hx => ?_⟩
    rcases List.mem_cons.mp hx with rfl | hx
    · exact ha
    · exact has x hx

end Lists
