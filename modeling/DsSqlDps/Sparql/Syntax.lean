import DsSqlDps.Sparql.Algebra
import DsSqlDps.Lib.Lists

/-!
# Reading query text

The part of the SPARQL 1.1 grammar that is read here: `PREFIX` declarations, then
`SELECT ?v … WHERE { triples OPTIONAL { triples } } ORDER BY ?v …`, where triples are built of
IRIs, prefixed names and variables, with `.` and `;` between them. Any other text is left
undecided, with one exception: before the first bracket or quote a `<` can only open an IRIREF,
so a text where the characters up to the next `>` are none is no query at all.
-/

namespace Sparql
open Rdf

/-- A token keeps its characters; strings are made of them when a query is. -/
inductive Token
  | iri (value : List Char)
  | pname (ns loc : List Char)
  | var (name : List Char)
  | word (text : List Char)
  | lbrace
  | rbrace
  | dot
  | semicolon
deriving DecidableEq, Repr

/-- Where the lexer is. The characters of an unfinished token are kept in reverse. -/
inductive Mode
  | start
  | iri (acc : List Char)
  | name (acc : List Char)
  | var (acc : List Char)
  | comment
  | rejected
  | beyond
deriving DecidableEq, Repr

def isSpace (c : Char) : Bool := c = ' ' || c = '\t' || c = '\r' || c = '\n'

/-- IRIREF is `'<' ([^<>"{}|^\`\]-[#x00-#x20])* '>'`. -/
def isIriChar (c : Char) : Bool :=
  decide (0x20 < c.toNat) && !("<>\"|^`\\\x7b\x7d".toList.contains c)

def hexValue (c : Char) : Option ℕ :=
  if '0' ≤ c ∧ c ≤ '9' then some (c.toNat - '0'.toNat)
  else if 'a' ≤ c ∧ c ≤ 'f' then some (c.toNat - 'a'.toNat + 10)
  else if 'A' ≤ c ∧ c ≤ 'F' then some (c.toNat - 'A'.toNat + 10)
  else none

/-- The character that a row of hexadecimal digits names. -/
def codepoint (ds : List Char) : Option Char := do
  let vs ← ds.mapM hexValue
  let n := vs.foldl (fun n v => 16 * n + v) 0
  if n.isValidChar then some (Char.ofNat n) else none

/-- Codepoint escapes: `\uXXXX` and `\UXXXXXXXX`, and no other use of a backslash. -/
def unescape : List Char → Option (List Char)
  | [] => some []
  | '\\' :: 'u' :: a :: b :: c :: d :: cs => do
    let e ← codepoint [a, b, c, d]
    let es ← unescape cs
    some (e :: es)
  | '\\' :: 'U' :: a :: b :: c :: d :: a' :: b' :: c' :: d' :: cs => do
    let e ← codepoint [a, b, c, d, a', b', c', d']
    let es ← unescape cs
    some (e :: es)
  | c :: cs => if c = '\\' then none else (unescape cs).map (c :: ·)

/-- What stands between `<` and `>`: an escape may only stand for a character that is legal
there. -/
def readIri (cs : List Char) : Option (List Char) := do
  let es ← unescape cs
  if es.all isIriChar then some es else none

def nameToken (cs : List Char) : Token :=
  match cs.span (· ≠ ':') with
  | (ns, _ :: loc) => .pname ns loc
  | (text, []) => .word text

def Mode.first (c : Char) : List Token × Mode :=
  if isSpace c then ([], .start)
  else if c = '#' then ([], .comment)
  else if c = '<' then ([], .iri [])
  else if c = '?' then ([], .var [])
  else if c = '{' then ([.lbrace], .start)
  else if c = '}' then ([.rbrace], .start)
  else if c = '.' then ([.dot], .start)
  else if c = ';' then ([.semicolon], .start)
  else if c.isAlpha then ([], .name [c])
  else ([], .beyond)

def Mode.next : Mode → Char → List Token × Mode
  | .start, c => Mode.first c
  | .iri acc, c =>
    if c = '>' then
      match readIri acc.reverse with
      | some s => ([.iri s], .start)
      | none => ([], .rejected)
    else ([], .iri (c :: acc))
  | .name acc, c =>
    if c.isAlphanum || c = ':' || c = '_' then ([], .name (c :: acc))
    else if c = '.' then ([], .beyond)  -- a dot may still belong to the name
    else (nameToken acc.reverse :: (Mode.first c).1, (Mode.first c).2)
  | .var acc, c =>
    if c.isAlphanum || c = '_' then ([], .var (c :: acc))
    else if acc = [] then ([], .beyond)
    else (.var acc.reverse :: (Mode.first c).1, (Mode.first c).2)
  | .comment, c =>
    if c = '\n' || c = '\r' then ([], .start)
    else if c = '\\' then ([], .beyond)  -- it may be the escape of a line break
    else ([], .comment)
  | .rejected, _ => ([], .rejected)
  | .beyond, _ => ([], .beyond)

def lexFrom : Mode → List Char → List Token × Mode
  | m, [] => ([], m)
  | m, c :: cs =>
    ((m.next c).1 ++ (lexFrom (m.next c).2 cs).1, (lexFrom (m.next c).2 cs).2)

inductive Lexed
  | tokens (ts : List Token)
  | syntaxError
  | beyond
deriving DecidableEq, Repr

/-- The tokens that the end of the text completes. -/
def Mode.last : Mode → Lexed
  | .start => .tokens []
  | .comment => .tokens []
  | .name acc => .tokens [nameToken acc.reverse]
  | .var acc => if acc = [] then .beyond else .tokens [.var acc.reverse]
  | .iri _ => .syntaxError
  | .rejected => .syntaxError
  | .beyond => .beyond

def lex (cs : List Char) : Lexed :=
  match (lexFrom .start cs).2.last with
  | .tokens us => .tokens ((lexFrom .start cs).1 ++ us)
  | other => other

/-! ## From tokens to a query -/

abbrev Prefixes := List (List Char × List Char)

@[simp] def parsePrologue (ns : Prefixes) : List Token → Prefixes × List Token
  | .word w :: .pname p l :: .iri i :: ts =>
    if w = "PREFIX".toList ∧ l = [] then parsePrologue ((p, i) :: ns) ts
    else (ns, .word w :: .pname p l :: .iri i :: ts)
  | ts => (ns, ts)

@[simp] def parseVars : List Token → List String × List Token
  | .var v :: ts => (String.ofList v :: (parseVars ts).1, (parseVars ts).2)
  | ts => ([], ts)

@[simp] def termPattern (ns : Prefixes) : Token → Option TermPattern
  | .iri i => some (.term (.iri (String.ofList i)))
  | .pname p l => (ns.lookup p).map fun i => .term (.iri (String.ofList (i ++ l)))
  | .var v => some (.var (String.ofList v))
  | _ => none

/-- The triples of a group, up to its end or an `OPTIONAL`. The first argument is the subject
that a `;` goes on with. -/
@[simp] def parseTriples (ns : Prefixes) :
    Option TermPattern → List Token → Option (List TriplePattern × List Token)
  | _, .rbrace :: ts => some ([], .rbrace :: ts)
  | _, .word w :: ts => if w = "OPTIONAL".toList then some ([], .word w :: ts) else none
  | some _, .dot :: ts => parseTriples ns none ts
  | some s, .semicolon :: p :: o :: ts => do
    let p ← termPattern ns p
    let o ← termPattern ns o
    let (ps, rest) ← parseTriples ns (some s) ts
    some (⟨s, p, o⟩ :: ps, rest)
  | none, s :: p :: o :: ts => do
    let s ← termPattern ns s
    let p ← termPattern ns p
    let o ← termPattern ns o
    let (ps, rest) ← parseTriples ns (some s) ts
    some (⟨s, p, o⟩ :: ps, rest)
  | _, _ => none

@[simp] def parseGroup (ns : Prefixes) (ts : List Token) :
    Option ((List TriplePattern × Option (List TriplePattern)) × List Token) :=
  match parseTriples ns none ts with
  | some (req, .rbrace :: rest) => some ((req, none), rest)
  | some (req, .word _ :: .lbrace :: ts) =>
    match parseTriples ns none ts with
    | some (opt, .rbrace :: .rbrace :: rest) => some ((req, some opt), rest)
    | _ => none
  | _ => none

@[simp] def parseOrderBy : List Token → Option (List String)
  | [] => some []
  | .word o :: .word b :: .var v :: ts =>
    match parseVars ts with
    | (vs, []) =>
      if o = "ORDER".toList ∧ b = "BY".toList then some (String.ofList v :: vs) else none
    | _ => none
  | _ => none

@[simp] def parse (ts : List Token) : Option Query :=
  match parsePrologue [] ts with
  | (ns, .word s :: .var v :: ts) =>
    match parseVars ts with
    | (vs, .word w :: .lbrace :: ts) => do
      let (group, rest) ← parseGroup ns ts
      let orderBy ← parseOrderBy rest
      if s = "SELECT".toList ∧ w = "WHERE".toList then
        some ⟨String.ofList v :: vs, group.1, group.2, orderBy⟩
      else none
    | _ => none
  | _ => none

@[simp] def Token.iri? : Token → Option String
  | .iri i => some (String.ofList i)
  | _ => none

/-- What is known of a text: a query, with the IRIs written in it, or no query, or neither. -/
inductive Verdict
  | query (q : Query) (iris : List String)
  | syntaxError
  | beyond
deriving DecidableEq, Repr

def readQuery (text : String) : Verdict :=
  match lex text.toList with
  | .tokens ts =>
    match parse ts with
    | some q => .query q (ts.filterMap Token.iri?)
    | none => .beyond
  | .syntaxError => .syntaxError
  | .beyond => .beyond

/-! ## Lexing a text piece by piece -/

/-- The characters of a string literal, without computing through its UTF-8 bytes. -/
theorem toList_literal {s : String} {cs : List Char} (h : s = String.ofList cs) :
    s.toList = cs := by rw [h, String.toList_ofList]

theorem lexFrom_append (m : Mode) (as bs : List Char) :
    lexFrom m (as ++ bs) =
      ((lexFrom m as).1 ++ (lexFrom (lexFrom m as).2 bs).1, (lexFrom (lexFrom m as).2 bs).2) := by
  induction as generalizing m with
  | nil => simp [lexFrom]
  | cons c as ih => simp [lexFrom, ih, List.append_assoc]

/-- An IRIREF ends at its first `>`. -/
theorem lexFrom_iri (acc cs : List Char) (h : '>' ∉ cs) :
    lexFrom (.iri acc) cs = ([], .iri (cs.reverse ++ acc)) := by
  induction cs generalizing acc with
  | nil => rfl
  | cons c cs ih =>
    have hc : c ≠ '>' := fun he => h (he ▸ List.mem_cons_self)
    have hcs : '>' ∉ cs := fun hm => h (List.mem_cons_of_mem c hm)
    simp [lexFrom, Mode.next, hc, ih _ hcs]

theorem lexFrom_rejected (cs : List Char) : lexFrom .rejected cs = ([], .rejected) := by
  induction cs with
  | nil => rfl
  | cons c cs ih => simp [lexFrom, Mode.next, ih]

/-- Text with an IRIREF in it: the characters before it, inside it and after it. -/
theorem lexFrom_enclosed {pre body post : List Char} {ts us : List Token} {m : Mode} {s : List Char}
    (hpre : lexFrom .start pre = (ts, .iri [])) (hbody : '>' ∉ body)
    (hiri : readIri body = some s) (hpost : lexFrom .start post = (us, m)) :
    lexFrom .start (pre ++ body ++ '>' :: post) = (ts ++ .iri s :: us, m) := by
  rw [lexFrom_append, lexFrom_append, hpre]
  simp [lexFrom_iri _ _ hbody, lexFrom, Mode.next, hiri, hpost]

theorem lexFrom_enclosed_rejected {pre body post : List Char} {ts : List Token}
    (hpre : lexFrom .start pre = (ts, .iri [])) (hbody : '>' ∉ body)
    (hiri : readIri body = none) :
    (lexFrom .start (pre ++ body ++ '>' :: post)).2 = .rejected := by
  rw [lexFrom_append, lexFrom_append, hpre]
  simp [lexFrom_iri _ _ hbody, lexFrom, Mode.next, hiri, lexFrom_rejected]

theorem readQuery_of_lexFrom {text : String} {ts us : List Token} {m : Mode} {q : Query}
    (h : lexFrom .start text.toList = (ts, m)) (hm : m.last = .tokens us)
    (hq : parse (ts ++ us) = some q) :
    readQuery text = .query q ((ts ++ us).filterMap Token.iri?) := by
  simp only [readQuery, lex, h, hm, hq]

theorem readQuery_rejected {text : String} (h : (lexFrom .start text.toList).2 = .rejected) :
    readQuery text = .syntaxError := by
  simp only [readQuery, lex, h, Mode.last]

/-! ## Texts with an open IRI -/

/-- What is known of a text whose open IRI is `body`. -/
def openVerdict (query : String → Query) (iris : List String) (body : List Char) : Verdict :=
  match readIri body with
  | some s => .query (query (String.ofList s)) (iris ++ [String.ofList s])
  | none => .syntaxError

/-- A query text that leaves one IRIREF open: the characters before and after it, their tokens,
and the query that is read for each IRI. -/
structure OpenText where
  pre : List Char
  post : List Char
  before : List Token
  after : List Token
  mode : Mode
  last : List Token
  query : String → Query
  iris : List String
  lex_pre : lexFrom .start pre = (before, .iri [])
  lex_post : lexFrom .start post = (after, mode)
  last_eq : mode.last = .tokens last
  parse_eq : ∀ s, parse (before ++ .iri s :: after ++ last) = some (query (String.ofList s))
  iris_eq : ∀ s, (before ++ .iri s :: after ++ last).filterMap Token.iri? =
    iris ++ [String.ofList s]

theorem OpenText.readQuery (t : OpenText) {text : String} {body : List Char}
    (htext : text.toList = t.pre ++ body ++ '>' :: t.post) (hbody : '>' ∉ body) :
    readQuery text = openVerdict t.query t.iris body := by
  unfold openVerdict
  cases h : readIri body with
  | none => exact readQuery_rejected (by rw [htext, lexFrom_enclosed_rejected t.lex_pre hbody h])
  | some s =>
    have hl := lexFrom_enclosed t.lex_pre hbody h t.lex_post
    rw [← htext] at hl
    rw [readQuery_of_lexFrom hl t.last_eq (t.parse_eq s), t.iris_eq s]

/-- Nothing is read of a text whose open IRI is none. -/
theorem OpenText.readQuery_syntaxError (t : OpenText) {text : String} {body rest : List Char}
    (htext : text.toList = t.pre ++ body ++ '>' :: rest) (hbody : '>' ∉ body)
    (h : readIri body = none) : Sparql.readQuery text = .syntaxError := by
  refine readQuery_rejected ?_
  rw [htext, lexFrom_enclosed_rejected t.lex_pre hbody h]

/-! ## Escapes -/

theorem unescape_cons {c : Char} (cs : List Char) (hc : c ≠ '\\') :
    unescape (c :: cs) = (unescape cs).map (c :: ·) := by
  rw [unescape]
  · simp [hc]
  · intro a b c' d rest he
    exact absurd he hc
  · intro a b c' d a' b' c'' d' rest he
    exact absurd he hc

theorem unescape_of_not_mem {cs : List Char} (h : '\\' ∉ cs) : unescape cs = some cs := by
  induction cs with
  | nil => rfl
  | cons c cs ih =>
    have hc : c ≠ '\\' := fun he => h (he ▸ List.mem_cons_self)
    rw [unescape_cons cs hc, ih fun hm => h (List.mem_cons_of_mem c hm), Option.map_some]

theorem unescape_append_left {as : List Char} (h : '\\' ∉ as) (cs : List Char) :
    unescape (as ++ cs) = (unescape cs).map (as ++ ·) := by
  induction as with
  | nil => simp
  | cons a as ih =>
    have ha : a ≠ '\\' := fun he => h (he ▸ List.mem_cons_self)
    rw [List.cons_append, unescape_cons _ ha, ih fun hm => h (List.mem_cons_of_mem a hm),
      Option.map_map]
    rfl

theorem codepoint_of_mem {x : Char} (hx : hexValue x = none) {ds : List Char} (h : x ∈ ds) :
    codepoint ds = none := by
  have hm : ds.mapM hexValue = none := by
    induction ds with
    | nil => cases h
    | cons d ds ih =>
      rcases List.mem_cons.mp h with rfl | h
      · simp [hx]
      · cases hd : hexValue d <;> simp [hd, ih h]
  simp [codepoint, hm]

/-- No escape reaches over a character that has no part in one. -/
theorem unescape_append_cons (as : List Char) {x : Char} (hx : hexValue x = none)
    (hn : x ∉ ['\\', 'u', 'U']) (bs : List Char) :
    unescape (as ++ x :: bs) =
      (unescape as).bind fun es => (unescape bs).map fun us => es ++ x :: us := by
  simp only [List.mem_cons, List.not_mem_nil, or_false, not_or] at hn
  induction as using unescape.induct with
  | case1 => simp [unescape, unescape_cons bs hn.1]
  | case2 a b c d cs ih =>
    simp only [List.cons_append, unescape, ih]
    cases codepoint [a, b, c, d] <;> cases unescape cs <;> cases unescape bs <;> rfl
  | case3 a b c d a' b' c' d' cs ih =>
    simp only [List.cons_append, unescape, ih]
    cases codepoint [a, b, c, d, a', b', c', d'] <;> cases unescape cs <;> cases unescape bs <;>
      rfl
  | case4 cs hu hU =>
    -- the escape is broken off, and `x` does not complete it
    have hnone : unescape ('\\' :: cs) = none := by
      rw [unescape]
      · simp
      · exact hu
      · exact hU
    rw [hnone, List.cons_append, Option.bind_none]
    unfold unescape
    split
    · rename_i he
      cases he
    · rename_i a b c d rest he
      have hm := Lists.mem_of_append_eq ['u', a, b, c, d] (List.cons.inj he).2
        fun es hes => hu a b c d es rfl hes
      rw [codepoint_of_mem hx ((List.mem_cons.mp hm).resolve_left hn.2.1)]
      rfl
    · rename_i a b c d a' b' c' d' rest he
      have hm := Lists.mem_of_append_eq ['U', a, b, c, d, a', b', c', d'] (List.cons.inj he).2
        fun es hes => hU a b c d a' b' c' d' es rfl hes
      rw [codepoint_of_mem hx ((List.mem_cons.mp hm).resolve_left hn.2.2)]
      rfl
    · rename_i he
      simp [(List.cons.inj he).1.symm]
  | case5 c cs hu hU hc ih =>
    rw [List.cons_append, unescape_cons _ hc, unescape_cons _ hc, ih]
    cases unescape cs <;> cases unescape bs <;> rfl

theorem backslash_not_mem_of_legal {cs : List Char} (h : cs.all isIriChar = true) :
    '\\' ∉ cs := fun hm => absurd (List.all_eq_true.mp h _ hm) (by decide)

theorem readIri_of_legal {cs : List Char} (h : cs.all isIriChar = true) :
    readIri cs = some cs := by
  simp only [readIri, unescape_of_not_mem (backslash_not_mem_of_legal h), Option.bind_eq_bind,
    Option.bind_some, h, if_pos]

theorem readIri_append_left {as : List Char} (ha : as.all isIriChar = true) (bs : List Char) :
    readIri (as ++ bs) = (readIri bs).map (as ++ ·) := by
  unfold readIri
  rw [unescape_append_left (backslash_not_mem_of_legal ha)]
  cases unescape bs with
  | none => rfl
  | some es =>
    have hall : (as ++ es).all isIriChar = es.all isIriChar := by
      rw [List.all_append, ha, Bool.true_and]
    simp only [Option.map_some, Option.bind_eq_bind, Option.bind_some, hall]
    split_ifs <;> rfl

/-- An IRIREF is not read over a `>`. -/
theorem readIri_of_mem_gt {cs : List Char} (h : '>' ∈ cs) : readIri cs = none := by
  obtain ⟨as, bs, rfl⟩ := List.append_of_mem h
  unfold readIri
  rw [unescape_append_cons as (by decide +kernel) (by decide)]
  cases unescape as with
  | none => rfl
  | some es =>
    cases unescape bs with
    | none => rfl
    | some us =>
      have hall : (es ++ '>' :: us).all isIriChar = false :=
        List.all_eq_false.mpr ⟨'>', by simp, by decide⟩
      simp only [Option.map_some, Option.bind_some, Option.bind_eq_bind, hall, Bool.false_eq_true,
        if_false]

/-- Text pasted between legal characters, with a `#` right after it. -/
theorem readIri_pasted {as cs : List Char} (bs : List Char) (ha : as.all isIriChar = true)
    (hc : cs.all isIriChar = true) :
    readIri (as ++ bs ++ '#' :: cs) = (readIri bs).map fun es => as ++ es ++ '#' :: cs := by
  have hu : unescape (as ++ bs ++ '#' :: cs) =
      (unescape bs).map fun es => as ++ es ++ '#' :: cs := by
    rw [List.append_assoc, unescape_append_left (backslash_not_mem_of_legal ha),
      unescape_append_cons bs (by decide +kernel) (by decide),
      unescape_of_not_mem (backslash_not_mem_of_legal hc)]
    cases unescape bs with
    | none => rfl
    | some es => simp
  have hash : isIriChar '#' = true := by decide
  unfold readIri
  rw [hu]
  cases unescape bs with
  | none => rfl
  | some es =>
    have hall : (as ++ es ++ '#' :: cs).all isIriChar = es.all isIriChar := by
      rw [List.all_append, List.all_append, List.all_cons, ha, hc, hash]
      simp
    simp only [Option.map_some, Option.bind_eq_bind, Option.bind_some, hall]
    split_ifs <;> rfl

end Sparql
