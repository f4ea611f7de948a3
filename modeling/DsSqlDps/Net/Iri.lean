import DsSqlDps.Sparql.Syntax

/-!
# The IRI grammar of RFC 3987

An absolute IRI is read from left to right: a scheme, then, after `//`, an authority, then a
path, a query and a fragment. An authority is only read when it is a plain host name; of other
authorities nothing is said.
-/

namespace Iri

def isUcschar (n : ℕ) : Bool :=
  decide (0xA0 ≤ n ∧ n ≤ 0xD7FF) || decide (0xF900 ≤ n ∧ n ≤ 0xFDCF) ||
    decide (0xFDF0 ≤ n ∧ n ≤ 0xFFEF) ||
    decide (0x10000 ≤ n ∧ n < 0xF0000 ∧ n % 0x10000 ≤ 0xFFFD ∧ ¬ (0xE0000 ≤ n ∧ n < 0xE1000))

def isIprivate (n : ℕ) : Bool :=
  decide (0xE000 ≤ n ∧ n ≤ 0xF8FF) || decide (0xF0000 ≤ n ∧ n % 0x10000 ≤ 0xFFFD)

/-- `ipchar` without the percent-encoded octets. -/
def isPchar (c : Char) : Bool :=
  c.isAlphanum || "-._~!$&'()*+,;=:@".toList.contains c || isUcschar c.toNat

def isHex (c : Char) : Bool := (Sparql.hexValue c).isSome

inductive Part
  | path
  | query
  | fragment
deriving DecidableEq, Repr

def isPartChar (p : Part) (c : Char) : Bool :=
  isPchar c || c = '/' || (p ≠ .path && c = '?') || (p = .query && isIprivate c.toNat)

/-- The part that a delimiter opens. -/
def Part.opens (p : Part) (c : Char) : Option Part :=
  if p = .path ∧ c = '?' then some .query
  else if p ≠ .fragment ∧ c = '#' then some .fragment
  else none

/-- Reads the characters of a part; `k` of them are still to come of a percent-encoded octet. -/
def scan : Part → ℕ → List Char → Bool
  | _, k, [] => k = 0
  | p, k + 1, c :: cs => isHex c && scan p k cs
  | p, 0, c :: cs =>
    if c = '%' then scan p 2 cs
    else
      match p.opens c with
      | some p' => scan p' 0 cs
      | none => isPartChar p c && scan p 0 cs

/-- What follows the colon that ends the scheme. -/
def afterScheme : List Char → Option (List Char)
  | [] => none
  | c :: cs =>
    if c = ':' then some cs
    else if c.isAlphanum || c = '+' || c = '-' || c = '.' then afterScheme cs
    else none

/-- `some b` when the text is decided: is it an absolute IRI? -/
def check (cs : List Char) : Option Bool :=
  if (cs.head?.map Char.isAlpha).getD false then
    match afterScheme cs with
    | none => some false
    | some ('/' :: '/' :: cs) =>
      let host := cs.takeWhile fun c => c ≠ '/' && c ≠ '?' && c ≠ '#'
      if host.all fun c => c.isAlphanum || c = '-' || c = '.' then
        some (scan .path 0 (cs.drop host.length))
      else none
    | some cs => some (scan .path 0 cs)
  else some false

/-! ## What a scan that succeeds says of the characters -/

/-- A property of all ASCII characters is checked by listing them. -/
theorem ascii_induction {P : Char → Bool} (h : ∀ n < 128, P (Char.ofNat n) = true) (c : Char)
    (hc : c.toNat < 128) : P c = true := by
  rw [← Char.ofNat_toNat c]
  exact h c.toNat hc

theorem isIriChar_of_isPartChar {p : Part} {c : Char} (h : isPartChar p c = true) :
    Sparql.isIriChar c = true := by
  by_cases hc : c.toNat < 128
  · have hall : ∀ n < 128,
        (!isPartChar p (Char.ofNat n) || Sparql.isIriChar (Char.ofNat n)) = true := by
      cases p <;> decide +kernel
    have hi := ascii_induction (P := fun c => !isPartChar p c || Sparql.isIriChar c) hall c hc
    simpa [h] using hi
  · have hm : ("<>\"|^`\\\x7b\x7d".toList.contains c) = false := by
      rw [Sparql.toList_literal rfl, Bool.eq_false_iff, ne_eq, List.contains_iff_mem]
      simp only [List.mem_cons, List.not_mem_nil, or_false]
      rintro (rfl | rfl | rfl | rfl | rfl | rfl | rfl | rfl | rfl) <;> exact hc (by decide)
    simp only [Sparql.isIriChar, hm, Bool.not_false, Bool.and_true, decide_eq_true_eq]
    omega

theorem isIriChar_of_isHex {c : Char} (h : isHex c = true) : Sparql.isIriChar c = true := by
  by_cases hc : c.toNat < 128
  · have hall : ∀ n < 128, (!isHex (Char.ofNat n) || Sparql.isIriChar (Char.ofNat n)) = true := by
      decide +kernel
    have hi := ascii_induction (P := fun c => !isHex c || Sparql.isIriChar c) hall c hc
    simpa [h] using hi
  · have hle : ∀ d : Char, d.toNat < 128 → ¬ c ≤ d := by
      intro d hd hcd
      have hn : c.toNat ≤ d.toNat := hcd
      omega
    simp [isHex, Sparql.hexValue, hle] at h

theorem opens_cases {p p' : Part} {c : Char} (h : p.opens c = some p') :
    (c = '?' ∧ p = .path ∧ p' = .query) ∨ (c = '#' ∧ p ≠ .fragment ∧ p' = .fragment) := by
  unfold Part.opens at h
  split_ifs at h with h₁ h₂
  · exact Or.inl ⟨h₁.2, h₁.1, (Option.some.inj h).symm⟩
  · exact Or.inr ⟨h₂.2, h₂.1, (Option.some.inj h).symm⟩

/-- The steps a scan can take. -/
theorem scan_cons_cases {p : Part} {k : ℕ} {c : Char} {cs : List Char}
    (h : scan p k (c :: cs) = true) :
    (∃ j, k = j + 1 ∧ isHex c = true ∧ scan p j cs = true) ∨
    (k = 0 ∧ c = '%' ∧ scan p 2 cs = true) ∨
    (k = 0 ∧ ∃ p', p.opens c = some p' ∧ scan p' 0 cs = true) ∨
    (k = 0 ∧ p.opens c = none ∧ isPartChar p c = true ∧ scan p 0 cs = true) := by
  cases k with
  | succ j =>
    rw [scan, Bool.and_eq_true] at h
    exact Or.inl ⟨j, rfl, h⟩
  | zero =>
    right
    rw [scan] at h
    by_cases hc : c = '%'
    · rw [if_pos hc] at h
      exact Or.inl ⟨rfl, hc, h⟩
    · rw [if_neg hc] at h
      cases ho : p.opens c with
      | some p' =>
        rw [ho] at h
        exact Or.inr (Or.inl ⟨rfl, p', rfl, h⟩)
      | none =>
        simp only [ho, Bool.and_eq_true] at h
        exact Or.inr (Or.inr ⟨rfl, rfl, h⟩)

/-- Every character of an IRI may stand in an IRIREF. -/
theorem scan_legal {p : Part} {k : ℕ} {cs : List Char} (h : scan p k cs = true) :
    cs.all Sparql.isIriChar = true := by
  induction cs generalizing p k with
  | nil => rfl
  | cons c cs ih =>
    rw [List.all_cons, Bool.and_eq_true]
    rcases scan_cons_cases h with ⟨j, -, hc, hs⟩ | ⟨-, rfl, hs⟩ | ⟨-, p', ho, hs⟩ | ⟨-, -, hc, hs⟩
    · exact ⟨isIriChar_of_isHex hc, ih hs⟩
    · exact ⟨by decide +kernel, ih hs⟩
    · refine ⟨?_, ih hs⟩
      rcases opens_cases ho with ⟨rfl, -⟩ | ⟨rfl, -⟩ <;> decide +kernel
    · exact ⟨isIriChar_of_isPartChar hc, ih hs⟩

theorem not_isHex_hash : isHex '#' = false := by decide +kernel

/-- A fragment holds no `#`. -/
theorem not_mem_hash_of_fragment {k : ℕ} {cs : List Char} (h : scan .fragment k cs = true) :
    '#' ∉ cs := by
  induction cs generalizing k with
  | nil => exact List.not_mem_nil
  | cons c cs ih =>
    rw [List.mem_cons, not_or]
    rcases scan_cons_cases h with ⟨j, -, hc, hs⟩ | ⟨-, rfl, hs⟩ | ⟨-, p', ho, hs⟩ | ⟨-, -, hc, hs⟩
    · refine ⟨?_, ih hs⟩
      rintro rfl
      rw [not_isHex_hash] at hc
      cases hc
    · exact ⟨by decide, ih hs⟩
    · exact absurd ho (by simp [Part.opens])
    · refine ⟨?_, ih hs⟩
      rintro rfl
      exact absurd hc (by decide +kernel)

/-- An IRI holds one `#` at most. -/
theorem not_mem_hash_of_scan {p : Part} {k : ℕ} {as bs : List Char}
    (h : scan p k (as ++ '#' :: bs) = true) : '#' ∉ as := by
  induction as generalizing p k with
  | nil => exact List.not_mem_nil
  | cons a as ih =>
    rw [List.cons_append] at h
    rw [List.mem_cons, not_or]
    rcases scan_cons_cases h with ⟨j, -, hc, hs⟩ | ⟨-, rfl, hs⟩ | ⟨-, p', ho, hs⟩ | ⟨-, ho, hc, hs⟩
    · refine ⟨?_, ih hs⟩
      rintro rfl
      rw [not_isHex_hash] at hc
      cases hc
    · exact ⟨by decide, ih hs⟩
    · rcases opens_cases ho with ⟨rfl, -, rfl⟩ | ⟨-, -, rfl⟩
      · exact ⟨by decide, ih hs⟩
      · exact absurd (List.mem_append_right as List.mem_cons_self) (not_mem_hash_of_fragment hs)
    · refine ⟨?_, ih hs⟩
      rintro rfl
      cases p with
      | fragment => exact absurd hc (by decide +kernel)
      | path => exact absurd ho (by decide)
      | query => exact absurd ho (by decide)

/-- Where one fragment may follow, so may any other one, or none. -/
theorem scan_append_hash {p : Part} {k : ℕ} {as bs : List Char}
    (h : scan p k (as ++ '#' :: bs) = true) :
    scan p k as = true ∧
      ∀ cs, scan .fragment 0 cs = true → scan p k (as ++ '#' :: cs) = true := by
  induction as generalizing p k with
  | nil =>
    rw [List.nil_append] at h
    rcases scan_cons_cases h with ⟨j, -, hc, -⟩ | ⟨-, hc, -⟩ | ⟨rfl, p', ho, -⟩ | ⟨-, ho, hc, -⟩
    · rw [not_isHex_hash] at hc
      cases hc
    · exact absurd hc (by decide)
    · refine ⟨by simp [scan], fun cs hcs => ?_⟩
      rcases opens_cases ho with ⟨hc, -⟩ | ⟨-, -, rfl⟩
      · exact absurd hc (by decide)
      · rw [List.nil_append, scan, if_neg (by decide), ho]
        exact hcs
    · cases p with
      | fragment => exact absurd hc (by decide +kernel)
      | path => exact absurd ho (by decide)
      | query => exact absurd ho (by decide)
  | cons a as ih =>
    rw [List.cons_append] at h
    rcases scan_cons_cases h with ⟨j, rfl, hc, hs⟩ | ⟨rfl, rfl, hs⟩ | ⟨rfl, p', ho, hs⟩ |
      ⟨rfl, ho, hc, hs⟩
    · obtain ⟨has, hcs⟩ := ih hs
      refine ⟨by rw [scan, hc, has]; rfl, fun cs hf => ?_⟩
      rw [List.cons_append, scan, hc, hcs cs hf]
      rfl
    · obtain ⟨has, hcs⟩ := ih hs
      refine ⟨by rw [scan, if_pos rfl, has], fun cs hf => ?_⟩
      rw [List.cons_append, scan, if_pos rfl, hcs cs hf]
    · obtain ⟨has, hcs⟩ := ih hs
      have hne : a ≠ '%' := by
        rintro rfl
        rcases opens_cases ho with ⟨hc, -⟩ | ⟨hc, -⟩ <;> exact absurd hc (by decide)
      refine ⟨by rw [scan, if_neg hne, ho]; exact has, fun cs hf => ?_⟩
      rw [List.cons_append, scan, if_neg hne, ho]
      exact hcs cs hf
    · obtain ⟨has, hcs⟩ := ih hs
      have hne : a ≠ '%' := by
        rintro rfl
        cases p <;> exact absurd hc (by decide +kernel)
      refine ⟨by rw [scan, if_neg hne, ho, has, hc]; rfl, fun cs hf => ?_⟩
      rw [List.cons_append, scan, if_neg hne, ho, hcs cs hf, hc]
      rfl

/-- A percent sign begins an octet of two hexadecimal digits. -/
theorem isHex_of_scan {p : Part} {k : ℕ} {as bs : List Char}
    (h : scan p k (as ++ '%' :: bs) = true) :
    ∃ a b cs, bs = a :: b :: cs ∧ isHex a = true ∧ isHex b = true := by
  induction as generalizing p k with
  | nil =>
    rw [List.nil_append] at h
    rcases scan_cons_cases h with ⟨j, -, hc, -⟩ | ⟨-, -, hs⟩ | ⟨-, p', ho, -⟩ | ⟨-, -, hc, -⟩
    · exact absurd hc (by decide +kernel)
    · cases bs with
      | nil => cases hs
      | cons a bs =>
        rw [scan, Bool.and_eq_true] at hs
        cases bs with
        | nil => exact absurd hs.2 (by simp [scan])
        | cons b bs =>
          rw [scan, Bool.and_eq_true] at hs
          exact ⟨a, b, bs, rfl, hs.1, hs.2.1⟩
    · rcases opens_cases ho with ⟨hc, -⟩ | ⟨hc, -⟩ <;> exact absurd hc (by decide)
    · cases p <;> exact absurd hc (by decide +kernel)
  | cons a as ih =>
    rw [List.cons_append] at h
    rcases scan_cons_cases h with ⟨j, -, -, hs⟩ | ⟨-, -, hs⟩ | ⟨-, p', -, hs⟩ | ⟨-, -, -, hs⟩ <;>
      exact ih hs

end Iri
