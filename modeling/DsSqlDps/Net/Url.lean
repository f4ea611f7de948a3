import DsSqlDps.Net.Iri

/-!
# URLs

How the text of a URL is split by a client, and how a server reads the segments of its path. Tabs
and line breaks are dropped, the path ends at the first `?` or `#`, dot segments are resolved, and
each segment is percent-decoded.
-/

namespace Url

/-! ## Percent-decoding -/

/-- What a server does with a `%` that no two hexadecimal digits follow. -/
inductive Malformed
  | keep
  | reject
deriving DecidableEq, Repr

/-- The octet that three characters stand for. -/
def octet (c x y : Char) : Option UInt8 :=
  if c = '%' then
    (Sparql.hexValue x).bind fun hi => (Sparql.hexValue y).map fun lo => UInt8.ofNat (16 * hi + lo)
  else none

/-- A character that begins no octet. -/
def Malformed.literal (m : Malformed) (c : Char) (rest : Option (List UInt8)) :
    Option (List UInt8) :=
  if c = '%' ∧ m = .reject then none else rest.map (String.utf8EncodeChar c ++ ·)

def unescape (m : Malformed) : List Char → Option (List UInt8)
  | [] => some []
  | [c] => m.literal c (some [])
  | [c, d] => m.literal c (m.literal d (some []))
  | c :: x :: y :: cs =>
    match octet c x y with
    | some b => (unescape m cs).map (b :: ·)
    | none => m.literal c (unescape m (x :: y :: cs))

/-- The text of a segment, if its octets are UTF-8. -/
def decode (m : Malformed) (cs : List Char) : Option (List Char) :=
  (unescape m cs).bind fun bytes => bytes.toByteArray.utf8Decode?.map (·.toList)

def HasOctet (cs : List Char) : Prop :=
  ∃ as x y bs, cs = as ++ '%' :: x :: y :: bs ∧ Iri.isHex x = true ∧ Iri.isHex y = true

/-- Nothing in the text is an octet, nor taken for a broken one. -/
def Literal : Malformed → List Char → Prop
  | .keep, cs => ¬ HasOctet cs
  | .reject, cs => '%' ∉ cs

def utf8 (cs : List Char) : List UInt8 := cs.flatMap String.utf8EncodeChar

theorem utf8_cons (c : Char) (cs : List Char) :
    utf8 (c :: cs) = String.utf8EncodeChar c ++ utf8 cs :=
  List.flatMap_cons

theorem utf8Decode_utf8 (cs : List Char) :
    (utf8 cs).toByteArray.utf8Decode? = some cs.toArray := List.utf8Decode?_utf8Encode

theorem utf8_injective : Function.Injective utf8 := by
  intro as bs h
  have hd := utf8Decode_utf8 as
  rw [h, utf8Decode_utf8] at hd
  simpa using (Option.some.inj hd).symm

theorem eq_utf8_of_utf8Decode {bytes : List UInt8} {cs : Array Char}
    (h : bytes.toByteArray.utf8Decode? = some cs) : bytes = utf8 cs.toList := by
  have hs : bytes.toByteArray.utf8Decode?.isSome := by rw [h]; rfl
  have he := ByteArray.utf8Encode_get_utf8Decode? (b := bytes.toByteArray) (h := hs)
  have hg : bytes.toByteArray.utf8Decode?.get hs = cs := by simp [h]
  rw [hg] at he
  exact (List.toByteArray_inj.mp he).symm

/-! ### Texts that decode to themselves -/

theorem octet_eq_some {c x y : Char} {b : UInt8} (h : octet c x y = some b) :
    c = '%' ∧ Iri.isHex x = true ∧ Iri.isHex y = true := by
  unfold octet at h
  split_ifs at h with hc
  obtain ⟨hi, hx, h⟩ := Option.bind_eq_some_iff.mp h
  obtain ⟨lo, hy, -⟩ := Option.map_eq_some_iff.mp h
  exact ⟨hc, by rw [Iri.isHex, hx]; rfl, by rw [Iri.isHex, hy]; rfl⟩

theorem octet_isSome {x y : Char} (hx : Iri.isHex x = true) (hy : Iri.isHex y = true) :
    ∃ b, octet '%' x y = some b := by
  obtain ⟨hi, hx⟩ := Option.isSome_iff_exists.mp hx
  obtain ⟨lo, hy⟩ := Option.isSome_iff_exists.mp hy
  exact ⟨_, by rw [octet, if_pos rfl, hx, hy]; rfl⟩

theorem literal_cons {m : Malformed} {c : Char} {cs : List Char} (h : Literal m (c :: cs)) :
    Literal m cs := by
  cases m with
  | keep =>
    rintro ⟨as, x, y, bs, rfl, hx, hy⟩
    exact h ⟨c :: as, x, y, bs, rfl, hx, hy⟩
  | reject => exact fun hm => h (List.mem_cons_of_mem c hm)

theorem Malformed.literal_of_literal {m : Malformed} {c : Char} {cs : List Char}
    (h : Literal m (c :: cs)) (rest : List UInt8) :
    m.literal c (some rest) = some (String.utf8EncodeChar c ++ rest) := by
  refine if_neg ?_
  rintro ⟨rfl, rfl⟩
  exact h List.mem_cons_self

theorem octet_eq_none {m : Malformed} {c x y : Char} {cs : List Char}
    (h : Literal m (c :: x :: y :: cs)) : octet c x y = none := by
  cases ho : octet c x y with
  | none => rfl
  | some b =>
    obtain ⟨rfl, hx, hy⟩ := octet_eq_some ho
    cases m with
    | keep => exact absurd ⟨[], x, y, cs, rfl, hx, hy⟩ h
    | reject => exact absurd List.mem_cons_self h

theorem unescape_of_literal {m : Malformed} {cs : List Char} (h : Literal m cs) :
    unescape m cs = some (utf8 cs) := by
  induction cs using unescape.induct with
  | case1 => rfl
  | case2 c => rw [unescape, Malformed.literal_of_literal h, utf8_cons]; rfl
  | case3 c d =>
    rw [unescape, Malformed.literal_of_literal (literal_cons h), Malformed.literal_of_literal h,
      utf8_cons, utf8_cons]
    rfl
  | case4 c x y cs b ho ih => rw [octet_eq_none h] at ho; cases ho
  | case5 c x y cs ho ih =>
    rw [unescape, ho]
    dsimp only
    rw [ih (literal_cons h), Malformed.literal_of_literal h, ← utf8_cons]

theorem literal_eq_some {m : Malformed} {c : Char} {rest : Option (List UInt8)}
    {bytes : List UInt8} (h : m.literal c rest = some bytes) :
    ¬ (c = '%' ∧ m = .reject) ∧ ∃ bs, rest = some bs ∧ bytes = String.utf8EncodeChar c ++ bs := by
  unfold Malformed.literal at h
  split_ifs at h with hc
  obtain ⟨bs, hr, rfl⟩ := Option.map_eq_some_iff.mp h
  exact ⟨hc, bs, hr, rfl⟩

theorem literal_of_cons {m : Malformed} {c : Char} {cs : List Char} (h : Literal m cs)
    (hc : ¬ (c = '%' ∧ m = .reject))
    (ho : ∀ x y bs, cs = x :: y :: bs → octet c x y = none) : Literal m (c :: cs) := by
  cases m with
  | keep =>
    rintro ⟨as, x, y, bs, he, hx, hy⟩
    cases as with
    | nil =>
      obtain ⟨rfl, rfl⟩ := List.cons.inj he
      obtain ⟨b, hb⟩ := octet_isSome hx hy
      rw [ho x y bs rfl] at hb
      cases hb
    | cons a as => exact h ⟨as, x, y, bs, (List.cons.inj he).2, hx, hy⟩
  | reject =>
    intro hm
    rcases List.mem_cons.mp hm with rfl | hm
    · exact hc ⟨rfl, rfl⟩
    · exact h hm

theorem literal_nil (m : Malformed) : Literal m [] := by
  cases m with
  | keep =>
    rintro ⟨as, x, y, bs, he, -⟩
    cases as <;> cases he
  | reject => exact List.not_mem_nil

theorem length_utf8EncodeChar_pos (c : Char) : 0 < (String.utf8EncodeChar c).length :=
  List.length_pos_of_ne_nil String.utf8EncodeChar_ne_nil

/-- An octet makes the text shorter. -/
theorem length_unescape {m : Malformed} {cs : List Char} {bytes : List UInt8}
    (h : unescape m cs = some bytes) :
    bytes.length ≤ (utf8 cs).length ∧ (bytes.length = (utf8 cs).length → Literal m cs) := by
  induction cs using unescape.induct generalizing bytes with
  | case1 =>
    obtain rfl := Option.some.inj h
    exact ⟨le_refl _, fun _ => literal_nil m⟩
  | case2 c =>
    obtain ⟨hc, bs, hb, rfl⟩ := literal_eq_some h
    obtain rfl := Option.some.inj hb
    rw [utf8_cons]
    exact ⟨le_refl _, fun _ => literal_of_cons (literal_nil m) hc (by simp)⟩
  | case3 c d =>
    obtain ⟨hc, bs, hb, rfl⟩ := literal_eq_some h
    obtain ⟨hd, ds, hn, rfl⟩ := literal_eq_some hb
    obtain rfl := Option.some.inj hn
    rw [utf8_cons, utf8_cons]
    exact ⟨le_refl _, fun _ => literal_of_cons (literal_of_cons (literal_nil m) hd (by simp)) hc
      (by simp)⟩
  | case4 c x y cs b ho ih =>
    rw [unescape, ho] at h
    obtain ⟨bs, hb, rfl⟩ := Option.map_eq_some_iff.mp h
    -- an octet is one byte, its text three at least
    have hle := (ih hb).1
    have hc := length_utf8EncodeChar_pos c
    have hx := length_utf8EncodeChar_pos x
    have hy := length_utf8EncodeChar_pos y
    simp only [utf8_cons, List.length_append, List.length_cons]
    exact ⟨by omega, fun he => by omega⟩
  | case5 c x y cs ho ih =>
    rw [unescape, ho] at h
    obtain ⟨hc, bs, hb, rfl⟩ := literal_eq_some h
    obtain ⟨hle, hl⟩ := ih hb
    rw [utf8_cons, List.length_append, List.length_append]
    refine ⟨by omega, fun he => literal_of_cons (hl (by omega)) hc ?_⟩
    intro x' y' bs' he'
    injection he' with hx he'
    injection he' with hy
    rw [← hx, ← hy, ho]

theorem decode_eq_some {m : Malformed} {cs ds : List Char} (h : decode m cs = some ds) :
    unescape m cs = some (utf8 ds) := by
  obtain ⟨bytes, hb, h⟩ := Option.bind_eq_some_iff.mp h
  obtain ⟨array, ha, rfl⟩ := Option.map_eq_some_iff.mp h
  rw [hb, eq_utf8_of_utf8Decode ha]

/-- A text decodes to itself if and only if it is literal. -/
theorem decode_eq_self_iff {m : Malformed} {cs : List Char} :
    decode m cs = some cs ↔ Literal m cs := by
  constructor
  · intro h
    exact (length_unescape (decode_eq_some h)).2 rfl
  · intro h
    rw [decode, unescape_of_literal h, Option.bind_some, utf8Decode_utf8]
    rfl

/-- A part of a text that decodes to all of it is all of it. -/
theorem eq_of_decode {m : Malformed} {cs ds : List Char} (hs : cs.Sublist ds)
    (h : decode m cs = some ds) : cs = ds ∧ Literal m ds := by
  have hle := (length_unescape (decode_eq_some h)).1
  have hs' : (utf8 cs).Sublist (utf8 ds) := hs.flatMap _
  have he : cs = ds := utf8_injective (hs'.eq_of_length (le_antisymm hs'.length_le hle))
  subst he
  exact ⟨rfl, decode_eq_self_iff.mp h⟩

/-! ## Splitting -/

/-- A client drops tabs and line breaks wherever they are. -/
def isIgnored (c : Char) : Bool := c = '\t' || c = '\n' || c = '\r'

def endsPath (c : Char) : Bool := c = '?' || c = '#'

/-- The schemes for which a backslash is a slash. -/
def isSpecial (scheme : List Char) : Bool :=
  decide (scheme.map Char.toLower ∈ ["http", "https", "ws", "wss", "ftp", "file"].map String.toList)

def isSlash (special : Bool) (c : Char) : Bool := c = '/' || (special && c = '\\')

theorem isSlash_slash (special : Bool) : isSlash special '/' = true := rfl

def isDot (segment : List Char) : Bool :=
  decide (segment ∈ [".", "%2e", "%2E"].map String.toList)

def isDoubleDot (segment : List Char) : Bool :=
  decide (segment ∈ ["..", ".%2e", ".%2E", "%2e.", "%2E.", "%2e%2e", "%2e%2E", "%2E%2e",
    "%2E%2E"].map String.toList)

/-- The segments in front, last one first, and those that are still to be resolved. -/
def resolve : List (List Char) → List (List Char) → List (List Char)
  | done, [] => done.reverse
  | done, segment :: rest =>
    if isDoubleDot segment then resolve (if rest = [] then [] :: done.tail else done.tail) rest
    else if isDot segment then resolve (if rest = [] then [] :: done else done) rest
    else resolve (segment :: done) rest

def schemeOf (url : List Char) : List Char := url.takeWhile (· ≠ ':')

/-- What follows the authority. -/
def afterAuthority (url : List Char) : List Char :=
  ((url.drop (schemeOf url).length).drop 3).dropWhile fun c =>
    !isSlash (isSpecial (schemeOf url)) c && !endsPath c

/-- The segments of the path, before any of them is decoded. -/
def segments (url : List Char) : List (List Char) :=
  let url := url.filter fun c => !isIgnored c
  let path := (afterAuthority url).takeWhile fun c => !endsPath c
  resolve [] (path.splitOnP (isSlash (isSpecial (schemeOf url)))).tail

/-- A scheme and an authority, as a URL begins with them. -/
structure Origin where
  scheme : List Char
  authority : List Char
  scheme_ok : ∀ c ∈ scheme, c ≠ ':' ∧ isIgnored c = false
  authority_ok : ∀ c ∈ authority, isSlash true c = false ∧ endsPath c = false ∧ isIgnored c = false
  authority_ne : authority ≠ []

namespace Origin

def text (o : Origin) : List Char := o.scheme ++ ':' :: '/' :: '/' :: o.authority

def special (o : Origin) : Bool := isSpecial o.scheme

end Origin

/-- The segments, each after a slash. -/
def path (segments : List (List Char)) : List Char := segments.flatMap ('/' :: ·)

/-- A text that comes back as it is when it is one segment of a URL. -/
structure Verbatim (special : Bool) (m : Malformed) (segment : List Char) : Prop where
  kept : ∀ c ∈ segment, isIgnored c = false
  inside : ∀ c ∈ segment, endsPath c = false
  one : ∀ c ∈ segment, isSlash special c = false
  not_dot : isDot segment = false
  not_doubleDot : isDoubleDot segment = false
  literal : Literal m segment

def isUnreserved (c : Char) : Bool :=
  c.isAlphanum || c = '-' || c = '.' || c = '_' || c = '~'

/-- Unreserved characters only, and no dot segment. -/
structure Plain (segment : List Char) : Prop where
  unreserved : ∀ c ∈ segment, isUnreserved c = true
  not_dot : segment ≠ ['.']
  not_doubleDot : segment ≠ ['.', '.']

theorem literal_of_not_mem {cs : List Char} (h : '%' ∉ cs) (m : Malformed) : Literal m cs := by
  cases m with
  | keep =>
    rintro ⟨as, x, y, bs, rfl, -⟩
    exact h (List.mem_append_right _ List.mem_cons_self)
  | reject => exact h

/-- The dot segments with an octet in them. -/
def encodedDots : List String :=
  ["%2e", "%2E", ".%2e", ".%2E", "%2e.", "%2E.", "%2e%2e", "%2e%2E", "%2E%2e", "%2E%2E"]

theorem not_literal_of_encoded {segment : List Char} (h : segment ∈ encodedDots.map String.toList)
    (m : Malformed) : ¬ Literal m segment := by
  intro hl
  have hu := unescape_of_literal hl
  have hall : ∀ s ∈ encodedDots.map String.toList, unescape .keep s ≠ some (utf8 s) ∧
      unescape .reject s ≠ some (utf8 s) := by decide +kernel
  cases m with
  | keep => exact (hall segment h).1 hu
  | reject => exact (hall segment h).2 hu

/-- Without octets, the dot segments are the two that are made of dots. -/
theorem verbatim_iff {web : Bool} {m : Malformed} {segment : List Char} :
    Verbatim web m segment ↔ segment ≠ ['.'] ∧ segment ≠ ['.', '.'] ∧
      (∀ c ∈ segment, isIgnored c = false ∧ endsPath c = false ∧ isSlash web c = false) ∧
      Literal m segment := by
  constructor
  · intro h
    refine ⟨?_, ?_, fun c hc => ⟨h.kept c hc, h.inside c hc, h.one c hc⟩, h.literal⟩
    · rintro rfl
      exact absurd h.not_dot (by decide +kernel)
    · rintro rfl
      exact absurd h.not_doubleDot (by decide +kernel)
  · rintro ⟨hd, hdd, hc, hl⟩
    refine ⟨fun c h => (hc c h).1, fun c h => (hc c h).2.1, fun c h => (hc c h).2.2, ?_, ?_, hl⟩
    · refine decide_eq_false fun hs => ?_
      rcases List.mem_cons.mp hs with hs | hs
      · exact hd hs
      · exact not_literal_of_encoded (List.map_subset _ (by decide) hs) m hl
    · refine decide_eq_false fun hs => ?_
      rcases List.mem_cons.mp hs with hs | hs
      · exact hdd hs
      · exact not_literal_of_encoded (List.map_subset _ (by decide) hs) m hl

/-- The characters that a URL does something with inside of a segment. -/
def special : List Char := ['\t', '\n', '\r', '?', '#', '/', '\\', '%']

theorem verbatim_of_not_mem {segment : List Char} (h : ∀ c ∈ special, c ∉ segment)
    (hd : segment ≠ ['.']) (hdd : segment ≠ ['.', '.']) (web : Bool) (m : Malformed) :
    Verbatim web m segment := by
  refine verbatim_iff.mpr
    ⟨hd, hdd, fun c hc => ?_, literal_of_not_mem (h '%' (by simp [special])) m⟩
  have hne {d : Char} (hd : d ∈ special) : c ≠ d := by
    rintro rfl
    exact h c hd hc
  simp only [isIgnored, endsPath, isSlash, Bool.or_eq_false_iff, Bool.and_eq_false_iff,
    decide_eq_false_iff_not]
  exact ⟨⟨⟨hne (by simp [special]), hne (by simp [special])⟩, hne (by simp [special])⟩,
    ⟨hne (by simp [special]), hne (by simp [special])⟩,
    hne (by simp [special]), Or.inr (hne (by simp [special]))⟩

theorem Plain.verbatim {segment : List Char} (h : Plain segment) (web : Bool) (m : Malformed) :
    Verbatim web m segment := by
  refine verbatim_of_not_mem (fun c hc hm => ?_) h.not_dot h.not_doubleDot web m
  have hall : special.all (fun c => !isUnreserved c) = true := by decide +kernel
  have hn := List.all_eq_true.mp hall c hc
  rw [h.unreserved c hm] at hn
  cases hn

theorem plain_of_all {segment : List Char} (h : segment.all isUnreserved = true)
    (hd : segment ≠ ['.']) (hdd : segment ≠ ['.', '.']) : Plain segment :=
  ⟨List.all_eq_true.mp h, hd, hdd⟩

/-! ### Slashes -/

section
variable {p : Char → Bool}

theorem splitOnP_segments (hp : p '/' = true) (segment : List Char) {rest : List (List Char)}
    (h : ∀ s ∈ rest, ∀ c ∈ s, p c = false) :
    (segment ++ path rest).splitOnP p = segment.splitOnP p ++ rest := by
  induction rest generalizing segment with
  | nil => rw [path, List.flatMap_nil, List.append_nil, List.append_nil]
  | cons s rest ih =>
    rw [path, List.flatMap_cons, List.cons_append, List.splitOnP_append_cons _ _ hp, ← path,
      ih _ fun s hs => h s (List.mem_cons_of_mem _ hs),
      List.splitOnP_eq_singleton (h s List.mem_cons_self)]
    rfl

/-- A piece is a part of the text without separators. -/
theorem mem_splitOnP {cs piece : List Char} (h : piece ∈ cs.splitOnP p) :
    piece.Sublist cs ∧ ∀ c ∈ piece, p c = false := by
  induction cs generalizing piece with
  | nil =>
    rw [List.splitOnP_nil, List.mem_singleton] at h
    rw [h]
    exact ⟨List.Sublist.refl _, by simp⟩
  | cons c cs ih =>
    rw [List.splitOnP_cons_eq_if_modifyHead] at h
    split_ifs at h with hc
    · rcases List.mem_cons.mp h with rfl | h
      · exact ⟨List.nil_sublist _, by simp⟩
      · exact ⟨(ih h).1.cons _, (ih h).2⟩
    · cases hs : cs.splitOnP p with
      | nil => exact absurd hs (List.splitOnP_ne_nil _ _)
      | cons s rest =>
        rw [hs, List.modifyHead_cons] at h
        rcases List.mem_cons.mp h with rfl | h
        · obtain ⟨hsub, hall⟩ := ih (hs ▸ List.mem_cons_self)
          exact ⟨hsub.cons_cons _, List.forall_mem_cons.mpr ⟨by simpa using hc, hall⟩⟩
        · obtain ⟨hsub, hall⟩ := ih (hs ▸ List.mem_cons_of_mem _ h)
          exact ⟨hsub.cons _, hall⟩

end

/-! ### Dots -/

theorem resolve_of_not_dot {ss : List (List Char)}
    (h : ∀ s ∈ ss, isDot s = false ∧ isDoubleDot s = false) (done : List (List Char)) :
    resolve done ss = done.reverse ++ ss := by
  induction ss generalizing done with
  | nil => rw [resolve, List.append_nil]
  | cons s ss ih =>
    obtain ⟨hs, hss⟩ := List.forall_mem_cons.mp h
    rw [resolve, hs.2, hs.1, if_neg (by decide), if_neg (by decide), ih hss, List.reverse_cons,
      List.append_assoc, List.singleton_append]

theorem mem_resolve {s : List Char} {ss done : List (List Char)} (h : s ∈ resolve done ss) :
    s ∈ done ∨ s = [] ∨ (s ∈ ss ∧ isDot s = false ∧ isDoubleDot s = false) := by
  induction ss generalizing done with
  | nil =>
    rw [resolve, List.mem_reverse] at h
    exact Or.inl h
  | cons t ss ih =>
    -- what is done after this step was done before, or is `t` or empty
    have hlater {done' : List (List Char)} (h : s ∈ resolve done' ss)
        (hd : s ∈ done' → s ∈ done ∨ s = [] ∨ s = t ∧ isDot t = false ∧ isDoubleDot t = false) :
        s ∈ done ∨ s = [] ∨ (s ∈ t :: ss ∧ isDot s = false ∧ isDoubleDot s = false) := by
      rcases ih h with h | h | ⟨h, hs⟩
      · rcases hd h with h | h | ⟨rfl, hs⟩
        · exact Or.inl h
        · exact Or.inr (Or.inl h)
        · exact Or.inr (Or.inr ⟨List.mem_cons_self, hs⟩)
      · exact Or.inr (Or.inl h)
      · exact Or.inr (Or.inr ⟨List.mem_cons_of_mem _ h, hs⟩)
    rw [resolve] at h
    by_cases hdd : isDoubleDot t = true
    · rw [if_pos hdd] at h
      refine hlater h fun hm => ?_
      split_ifs at hm
      · exact (List.mem_cons.mp hm).elim (fun h => Or.inr (Or.inl h))
          fun h => Or.inl (List.mem_of_mem_tail h)
      · exact Or.inl (List.mem_of_mem_tail hm)
    · rw [if_neg hdd] at h
      by_cases hd : isDot t = true
      · rw [if_pos hd] at h
        refine hlater h fun hm => ?_
        split_ifs at hm
        · exact (List.mem_cons.mp hm).elim (fun h => Or.inr (Or.inl h)) Or.inl
        · exact Or.inl hm
      · rw [if_neg hd] at h
        refine hlater h fun hm => (List.mem_cons.mp hm).elim (fun h => ?_) Or.inl
        exact Or.inr (Or.inr ⟨h, Bool.eq_false_iff.mpr hd, Bool.eq_false_iff.mpr hdd⟩)

/-! ### The path of a URL -/

theorem mem_path {ss : List (List Char)} {c : Char} (h : c ∈ path ss) :
    c = '/' ∨ ∃ s ∈ ss, c ∈ s := by
  obtain ⟨s, hs, hc⟩ := List.mem_flatMap.mp h
  exact (List.mem_cons.mp hc).imp id fun hc => ⟨s, hs, hc⟩

theorem path_append (ss ts : List (List Char)) : path (ss ++ ts) = path ss ++ path ts :=
  List.flatMap_append

theorem path_cons (s : List Char) (ss : List (List Char)) :
    path (s :: ss) = '/' :: (s ++ path ss) := by
  rw [path, List.flatMap_cons, List.cons_append, path]

namespace Origin
variable (o : Origin)

theorem filter_text : o.text.filter (fun c => !isIgnored c) = o.text := by
  refine List.filter_eq_self.mpr fun c hc => ?_
  rw [Bool.not_eq_true']
  rcases List.mem_append.mp hc with hc | hc
  · exact (o.scheme_ok c hc).2
  · rcases List.mem_cons.mp hc with rfl | hc
    · rfl
    · rcases List.mem_cons.mp hc with rfl | hc
      · rfl
      · rcases List.mem_cons.mp hc with rfl | hc
        · rfl
        · exact (o.authority_ok c hc).2.2

theorem schemeOf_text (w : List Char) : schemeOf (o.text ++ w) = o.scheme := by
  rw [schemeOf, text, List.append_assoc, List.takeWhile_append_of_pos fun c hc => ?_,
    List.cons_append, List.takeWhile_cons_of_neg (by simp), List.append_nil]
  simpa using (o.scheme_ok c hc).1

theorem isSlash_of_special {special : Bool} {c : Char} (h : isSlash true c = false) :
    isSlash special c = false := by
  cases special with
  | true => exact h
  | false =>
    unfold isSlash at h ⊢
    simp only [Bool.true_and, Bool.or_eq_false_iff] at h
    rw [h.1]
    rfl

theorem afterAuthority_text {w : List Char} (hw : w.head? = some '/') :
    afterAuthority (o.text ++ w) = w := by
  obtain ⟨t, rfl⟩ : ∃ t, w = '/' :: t := by
    cases w with
    | nil => cases hw
    | cons c t => exact ⟨t, by rw [Option.some.inj hw]⟩
  rw [afterAuthority, schemeOf_text, text, List.append_assoc, List.drop_left, List.cons_append,
    List.cons_append, List.cons_append, List.drop_succ_cons, List.drop_succ_cons,
    List.drop_succ_cons, List.drop_zero, List.dropWhile_append_of_pos fun c hc => ?_]
  · exact List.dropWhile_cons_of_neg (by simp [isSlash])
  · obtain ⟨hs, he, -⟩ := o.authority_ok c hc
    rw [isSlash_of_special hs, he]
    rfl

end Origin

theorem segments_text (o : Origin) {w : List Char} (hw : w.head? = some '/') :
    segments (o.text ++ w) =
      resolve [] (((w.filter fun c => !isIgnored c).takeWhile fun c => !endsPath c).splitOnP
        (isSlash o.special)).tail := by
  have hf : (w.filter fun c => !isIgnored c).head? = some '/' := by
    cases w with
    | nil => cases hw
    | cons c t =>
      obtain rfl := Option.some.inj hw
      rfl
  unfold segments
  dsimp only
  rw [List.filter_append, o.filter_text, o.afterAuthority_text hf, o.schemeOf_text]
  rfl

section
variable {special : Bool} {m : Malformed} {ss : List (List Char)}

theorem filter_path (h : ∀ s ∈ ss, Verbatim special m s) :
    (path ss).filter (fun c => !isIgnored c) = path ss := by
  refine List.filter_eq_self.mpr fun c hc => ?_
  rcases mem_path hc with rfl | ⟨s, hs, hc⟩
  · rfl
  · rw [(h s hs).kept c hc]
    rfl

theorem inside_path (h : ∀ s ∈ ss, Verbatim special m s) :
    ∀ c ∈ path ss, (!endsPath c) = true := by
  intro c hc
  rcases mem_path hc with rfl | ⟨s, hs, hc⟩
  · rfl
  · rw [(h s hs).inside c hc]
    rfl

theorem splitOnP_path (h : ∀ s ∈ ss, Verbatim special m s) :
    (path ss).splitOnP (isSlash special) = [] :: ss := by
  have hsplit := splitOnP_segments (isSlash_slash special) [] fun s hs => (h s hs).one
  rwa [List.nil_append, List.splitOnP_nil] at hsplit

end

/-- Texts that are segments come back as they are. -/
theorem segments_path (o : Origin) {m : Malformed} {ss : List (List Char)} (hn : ss ≠ [])
    (h : ∀ s ∈ ss, Verbatim o.special m s) : segments (o.text ++ path ss) = ss := by
  have hhead : (path ss).head? = some '/' := by
    cases ss with
    | nil => exact absurd rfl hn
    | cons s ss =>
      rw [path_cons]
      rfl
  rw [segments_text o hhead, filter_path h, List.takeWhile_eq_self_iff.mpr (inside_path h),
    splitOnP_path h]
  exact resolve_of_not_dot (fun s hs => ⟨(h s hs).not_dot, (h s hs).not_doubleDot⟩) []

section
variable (o : Origin) {m : Malformed} {pre post : List (List Char)} {text s : List Char}
  (hpre : ∀ s ∈ pre, Verbatim o.special m s) (hpost : ∀ s ∈ post, Verbatim o.special m s)
include hpre hpost

/-- The segments of a URL with a text pasted between others: those others, and pieces of the
text. -/
theorem mem_segments (hs : s ∈ segments (o.text ++ path (pre ++ text :: post))) :
    s = [] ∨ (s ∈ pre ∨ s ∈ post ∨ s ∈ ((text.filter fun c => !isIgnored c).takeWhile fun c =>
      !endsPath c).splitOnP (isSlash o.special)) ∧ isDot s = false ∧ isDoubleDot s = false := by
  have hhead : (path (pre ++ text :: post)).head? = some '/' := by
    cases pre <;> rw [path_append, path_cons] <;> rfl
  rw [segments_text o hhead] at hs
  rcases mem_resolve hs with hs | hs | ⟨hs, hd⟩
  · exact absurd hs List.not_mem_nil
  · exact Or.inl hs
  · have hm := List.mem_of_mem_tail hs
    rw [path_append, path_cons, List.filter_append, filter_path hpre,
      List.filter_cons_of_pos (by rfl), List.filter_append, filter_path hpost,
      List.takeWhile_append_of_pos (inside_path hpre), List.takeWhile_cons_of_pos (by rfl),
      List.splitOnP_append_cons _ _ (isSlash_slash _), splitOnP_path hpre, List.takeWhile_append,
      List.takeWhile_eq_self_iff.mpr (inside_path hpost)] at hm
    rcases List.mem_append.mp hm with hm | hm
    · rcases List.mem_cons.mp hm with hm | hm
      · exact Or.inl hm
      · exact Or.inr ⟨Or.inl hm, hd⟩
    · refine Or.inr ⟨Or.inr ?_, hd⟩
      -- the text may end the path itself, and what comes after it is cut off
      split_ifs at hm with hall
      · rw [splitOnP_segments (isSlash_slash _) _ fun s hs => (hpost s hs).one] at hm
        rcases List.mem_append.mp hm with hm | hm
        · rw [(List.takeWhile_prefix _).eq_of_length hall]
          exact Or.inr hm
        · exact Or.inl hm
      · exact Or.inr hm

/-- A segment of such a URL that decodes to the text is all of it. -/
theorem verbatim_of_decode (hs : s ∈ segments (o.text ++ path (pre ++ text :: post)))
    (hd : decode m s = some text) : Verbatim o.special m text := by
  have hself {t : List Char} (hs : Verbatim o.special m t) (hd : decode m t = some text) :
      Verbatim o.special m text := by
    rw [decode_eq_self_iff.mpr hs.literal] at hd
    rwa [← Option.some.inj hd]
  rcases mem_segments o hpre hpost hs with rfl | ⟨hs | hs | hs, hdot, hdd⟩
  · -- the empty segment that dots leave decodes to the empty text only
    obtain ⟨rfl, hl⟩ := eq_of_decode (List.nil_sublist _) hd
    exact ⟨by simp, by simp, by simp, by decide +kernel, by decide +kernel, hl⟩
  · exact hself (hpre s hs) hd
  · exact hself (hpost s hs) hd
  · -- the piece is a part of the text, and decodes to all of it
    obtain ⟨hsub, hone⟩ := mem_splitOnP hs
    obtain ⟨rfl, hl⟩ := eq_of_decode
      (hsub.trans ((List.takeWhile_sublist _).trans List.filter_sublist)) hd
    refine ⟨fun c hc => ?_, fun c hc => ?_, hone, hdot, hdd, hl⟩
    · simpa using (List.mem_filter.mp ((List.takeWhile_sublist _).subset (hsub.subset hc))).2
    · simpa using List.mem_takeWhile_imp (hsub.subset hc)

end

end Url
