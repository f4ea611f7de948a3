import Mathlib

/-!
# Decimal numbers with a bound

A parser of bounded decimal numbers that takes one digit after the other. It may start with a plus
sign, and stops at the first character that is no digit or takes the number over the bound.
-/

namespace Decimal

/-- What keeps a text from being a number. -/
inductive IntErrorKind
  | empty
  | invalidDigit
  | posOverflow
deriving DecidableEq, Repr

def toDigit (c : Char) : Option ℕ := if c.isDigit then some (c.toNat - '0'.toNat) else none

/-- The digits are added to the number that is read so far. -/
def parseDigits (bound : ℕ) : ℕ → List Char → Except IntErrorKind ℕ
  | n, [] => .ok n
  | n, c :: cs =>
    match toDigit c with
    | none => .error .invalidDigit
    | some d =>
      if 10 * n + d ≤ bound then parseDigits bound (10 * n + d) cs else .error .posOverflow

def parse (bound : ℕ) : List Char → Except IntErrorKind ℕ
  | [] => .error .empty
  | '+' :: cs => if cs = [] then .error .invalidDigit else parseDigits bound 0 cs
  | cs => parseDigits bound 0 cs

variable {bound : ℕ}

/-- A text of digits, not empty, for a number that is within the bound. -/
structure Digits (bound : ℕ) (cs : List Char) (n : ℕ) : Prop where
  ne_nil : cs ≠ []
  isDigit : ∀ c ∈ cs, c.isDigit = true
  value : Nat.ofDigitChars 10 cs 0 = n
  le : n ≤ bound

/-- The texts of a number. -/
def Spells (bound : ℕ) (cs : List Char) (n : ℕ) : Prop :=
  Digits bound cs n ∨ ∃ ds, cs = '+' :: ds ∧ Digits bound ds n

theorem toDigit_eq_some {c : Char} (h : c.isDigit = true) :
    toDigit c = some (c.toNat - '0'.toNat) := if_pos h

theorem toDigit_eq_none {c : Char} (h : c.isDigit = false) : toDigit c = none :=
  if_neg (by rw [h]; decide)

theorem le_ofDigitChars (n : ℕ) (cs : List Char) : n ≤ Nat.ofDigitChars 10 cs n := by
  rw [Nat.ofDigitChars_eq_ofDigitChars_zero]
  have hpos : 1 ≤ 10 ^ cs.length := Nat.one_le_pow _ _ (by decide)
  calc n = 1 * n := (Nat.one_mul n).symm
    _ ≤ 10 ^ cs.length * n := Nat.mul_le_mul_right n hpos
    _ ≤ _ := Nat.le_add_right _ _

theorem parseDigits_eq_ok_iff {n m : ℕ} (hn : n ≤ bound) {cs : List Char} :
    parseDigits bound n cs = .ok m ↔
      (∀ c ∈ cs, c.isDigit = true) ∧ Nat.ofDigitChars 10 cs n = m ∧ m ≤ bound := by
  induction cs generalizing n with
  | nil =>
    rw [parseDigits, Nat.ofDigitChars_nil]
    constructor
    · intro h
      obtain rfl := Except.ok.inj h
      exact ⟨fun c hc => absurd hc List.not_mem_nil, rfl, hn⟩
    · rintro ⟨-, rfl, -⟩
      rfl
  | cons c cs ih =>
    rw [parseDigits, List.forall_mem_cons, Nat.ofDigitChars_cons]
    rcases Bool.eq_false_or_eq_true c.isDigit with hc | hc
    · rw [toDigit_eq_some hc]
      dsimp only
      split_ifs with hle
      · rw [ih hle]
        exact (and_congr_left fun _ => (and_iff_right hc).symm)
      · constructor
        · intro h
          cases h
        · -- over the bound once, the number stays over it
          rintro ⟨-, hv, hm⟩
          exact absurd ((le_ofDigitChars _ cs).trans (hv.le.trans hm)) hle
    · rw [toDigit_eq_none hc]
      constructor
      · intro h
        cases h
      · rintro ⟨⟨hd, -⟩, -⟩
        rw [hc] at hd
        cases hd

theorem parseDigits_zero_iff {m : ℕ} {cs : List Char} (hne : cs ≠ []) :
    parseDigits bound 0 cs = .ok m ↔ Digits bound cs m := by
  rw [parseDigits_eq_ok_iff (Nat.zero_le bound)]
  exact ⟨fun ⟨hd, hv, hm⟩ => ⟨hne, hd, hv, hm⟩, fun h => ⟨h.isDigit, h.value, h.le⟩⟩

theorem not_digits_plus {n : ℕ} {cs : List Char} : ¬ Digits bound ('+' :: cs) n := fun h =>
  absurd (h.isDigit '+' List.mem_cons_self) (by decide)

/-- The texts that are parsed are those that spell a number within the bound. -/
theorem parse_eq_ok_iff {n : ℕ} {cs : List Char} : parse bound cs = .ok n ↔ Spells bound cs n := by
  rw [Spells]
  constructor
  · intro h
    rw [parse.eq_def] at h
    split at h
    · cases h
    · split_ifs at h with hne
      exact Or.inr ⟨_, rfl, (parseDigits_zero_iff hne).mp h⟩
    · rename_i hne _
      exact Or.inl ((parseDigits_zero_iff hne).mp h)
  · rintro (h | ⟨ds, rfl, h⟩)
    · rw [parse, (parseDigits_zero_iff h.ne_nil).mpr h]
      · exact h.ne_nil
      · rintro ds rfl
        exact not_digits_plus h
    · rw [parse, if_neg h.ne_nil, (parseDigits_zero_iff h.ne_nil).mpr h]

theorem digits_toDigits {n : ℕ} (h : n ≤ bound) : Digits bound (Nat.toDigits 10 n) n where
  ne_nil := Nat.toDigits_ne_nil
  isDigit _ hc := Nat.isDigit_of_mem_toDigits (by decide) (by decide) hc
  value := Nat.ofDigitChars_ten_toDigits
  le := h

/-- A number within the bound is read back. -/
theorem parse_repr {n : ℕ} (h : n ≤ bound) : parse bound n.repr.toList = .ok n := by
  rw [Nat.toList_repr]
  exact parse_eq_ok_iff.mpr (Or.inl (digits_toDigits h))

end Decimal
