import DsSqlDps.Config.Graph

/-!
# The four query texts

Each text is read as the query it was written for, with one IRI left open: what the grammar
reads between the `<` and the first `>` after it. A dataset id without `>` stays inside these
brackets.
-/

namespace DsSqlDps
open Rdf Sparql Vocab

/-! ## The queries -/

def outTriple (s : TermPattern) (p : String) (v : String) : TriplePattern :=
  ⟨s, .term (.iri p), .var v⟩

/-- All values of one property of one subject. -/
def valuePattern (p v subject : String) : Query :=
  ⟨[v], [outTriple (.term (.iri subject)) p v], none, []⟩

def filePathPattern : String → Query := valuePattern (ds "filePath") "path"

def mediaTypePattern : String → Query := valuePattern (dcat "mediaType") "media"

def headerPattern (policy : String) : Query :=
  ⟨["target", "assigner"],
    [outTriple (.term (.iri policy)) (odrl "target") "target",
      outTriple (.term (.iri policy)) (odrl "assigner") "assigner"], none, []⟩

def rowsPattern (policy : String) : Query :=
  ⟨["p", "porder", "action", "corder", "left", "op", "right"],
    [outTriple (.term (.iri policy)) (odrl "permission") "p",
      outTriple (.var "p") (ds "order") "porder", outTriple (.var "p") (odrl "action") "action"],
    some [outTriple (.var "p") (odrl "constraint") "c", outTriple (.var "c") (ds "order") "corder",
      outTriple (.var "c") (odrl "leftOperand") "left", outTriple (.var "c") (odrl "operator") "op",
      outTriple (.var "c") (odrl "rightOperand") "right"],
    ["porder", "corder"]⟩

/-! ## The texts -/

theorem gt_not_mem_iri {d suffix : String} (h : '>' ∉ d.toList) (hs : '>' ∉ suffix.toList) :
    '>' ∉ (datasetIri d ++ suffix).toList := by
  unfold datasetIri
  rewrite [String.toList_append, String.toList_append, List.mem_append, List.mem_append]
  rintro ((hu | hd) | hs')
  · exact absurd hu (by decide +kernel)
  · exact h hd
  · exact hs hs'

theorem gt_not_mem_distributionIri {d : String} (h : '>' ∉ d.toList) :
    '>' ∉ (distributionIri d).toList := gt_not_mem_iri h (by decide +kernel)

theorem gt_not_mem_policyIri {d : String} (h : '>' ∉ d.toList) :
    '>' ∉ (policyIri d).toList := gt_not_mem_iri h (by decide +kernel)

/-- Tokens, by the text of their characters. -/
abbrev word (s : String) : Token := .word s.toList
abbrev var (s : String) : Token := .var s.toList
abbrev pname (ns loc : String) : Token := .pname ns.toList loc.toList
abbrev iriref (s : String) : Token := .iri s.toList

def filePathText : OpenText where
  pre := "PREFIX ds: <".toList ++ DS.toList ++ ">\n".toList ++
    "               SELECT ?path WHERE \x7b <".toList
  post := " ds:filePath ?path \x7d".toList
  before := [word "PREFIX", pname "ds" "", iriref DS, word "SELECT", var "path", word "WHERE",
    .lbrace]
  after := [pname "ds" "filePath", var "path", .rbrace]
  mode := .start
  last := []
  query := filePathPattern
  iris := [DS]
  lex_pre := by
    unfold DS
    rewrite [toList_literal (s := "PREFIX ds: <") rfl,
      toList_literal (s := "https://ds42.org/ontologies/ds-sql-dps-rs#") rfl,
      toList_literal (s := "               SELECT ?path WHERE \x7b <") rfl]
    decide +kernel
  lex_post := by
    rewrite [toList_literal (s := " ds:filePath ?path \x7d") rfl]
    decide +kernel
  last_eq := rfl
  parse_eq s := by simp [filePathPattern, valuePattern, outTriple, ds, DS]
  iris_eq s := by simp [List.filterMap_cons]

theorem toList_filePathQuery (d : String) :
    (filePathQuery d).toList =
      filePathText.pre ++ (distributionIri d).toList ++ '>' :: filePathText.post := by
  unfold filePathQuery filePathText
  simp only [-String.reduceToList, String.toList_append, List.append_assoc]
  rewrite [toList_literal (s := "> ds:filePath ?path \x7d") rfl,
    toList_literal (s := " ds:filePath ?path \x7d") rfl]
  rfl

theorem readQuery_filePathQuery {d : String} (h : '>' ∉ d.toList) :
    readQuery (filePathQuery d) = openVerdict filePathPattern [DS] (distributionIri d).toList :=
  filePathText.readQuery (toList_filePathQuery d) (gt_not_mem_distributionIri h)

def mediaTypeText : OpenText where
  pre := "PREFIX dcat: <".toList ++ DCAT.toList ++ ">\n".toList ++
    "               SELECT ?media WHERE \x7b <".toList
  post := " dcat:mediaType ?media \x7d".toList
  before := [word "PREFIX", pname "dcat" "", iriref DCAT, word "SELECT", var "media",
    word "WHERE", .lbrace]
  after := [pname "dcat" "mediaType", var "media", .rbrace]
  mode := .start
  last := []
  query := mediaTypePattern
  iris := [DCAT]
  lex_pre := by
    unfold DCAT
    rewrite [toList_literal (s := "PREFIX dcat: <") rfl,
      toList_literal (s := "http://www.w3.org/ns/dcat#") rfl,
      toList_literal (s := "               SELECT ?media WHERE \x7b <") rfl]
    decide +kernel
  lex_post := by
    rewrite [toList_literal (s := " dcat:mediaType ?media \x7d") rfl]
    decide +kernel
  last_eq := rfl
  parse_eq s := by simp [mediaTypePattern, valuePattern, outTriple, dcat, DCAT]
  iris_eq s := by simp [List.filterMap_cons]

theorem toList_mediaTypeQuery (d : String) :
    (mediaTypeQuery d).toList =
      mediaTypeText.pre ++ (distributionIri d).toList ++ '>' :: mediaTypeText.post := by
  unfold mediaTypeQuery mediaTypeText
  simp only [-String.reduceToList, String.toList_append, List.append_assoc]
  rewrite [toList_literal (s := "> dcat:mediaType ?media \x7d") rfl,
    toList_literal (s := " dcat:mediaType ?media \x7d") rfl]
  rfl

theorem readQuery_mediaTypeQuery {d : String} (h : '>' ∉ d.toList) :
    readQuery (mediaTypeQuery d) =
      openVerdict mediaTypePattern [DCAT] (distributionIri d).toList :=
  mediaTypeText.readQuery (toList_mediaTypeQuery d) (gt_not_mem_distributionIri h)

def headerText : OpenText where
  pre := "PREFIX odrl: <".toList ++ ODRL.toList ++ ">\n".toList ++
    "               SELECT ?target ?assigner WHERE \x7b\n".toList ++
    "                   <".toList
  post := " odrl:target ?target ; odrl:assigner ?assigner .\n".toList ++
    "               \x7d".toList
  before := [word "PREFIX", pname "odrl" "", iriref ODRL, word "SELECT", var "target",
    var "assigner", word "WHERE", .lbrace]
  after := [pname "odrl" "target", var "target", .semicolon, pname "odrl" "assigner",
    var "assigner", .dot, .rbrace]
  mode := .start
  last := []
  query := headerPattern
  iris := [ODRL]
  lex_pre := by
    unfold ODRL
    rewrite [toList_literal (s := "PREFIX odrl: <") rfl,
      toList_literal (s := "http://www.w3.org/ns/odrl/2/") rfl,
      toList_literal (s := "               SELECT ?target ?assigner WHERE \x7b\n") rfl,
      toList_literal (s := "                   <") rfl]
    decide +kernel
  lex_post := by
    rewrite [toList_literal (s := " odrl:target ?target ; odrl:assigner ?assigner .\n") rfl]
    decide +kernel
  last_eq := rfl
  parse_eq s := by simp [headerPattern, outTriple, odrl, ODRL]
  iris_eq s := by simp [List.filterMap_cons]

theorem toList_headerQuery (d : String) :
    (headerQuery d).toList = headerText.pre ++ (policyIri d).toList ++ '>' :: headerText.post := by
  unfold headerQuery headerText
  simp only [-String.reduceToList, String.toList_append, List.append_assoc]
  rewrite [toList_literal (s := "> odrl:target ?target ; odrl:assigner ?assigner .\n") rfl,
    toList_literal (s := " odrl:target ?target ; odrl:assigner ?assigner .\n") rfl]
  rfl

theorem readQuery_headerQuery {d : String} (h : '>' ∉ d.toList) :
    readQuery (headerQuery d) = openVerdict headerPattern [ODRL] (policyIri d).toList :=
  headerText.readQuery (toList_headerQuery d) (gt_not_mem_policyIri h)

def rowsText : OpenText where
  pre := "PREFIX odrl: <".toList ++ ODRL.toList ++ ">\n".toList ++
    "               PREFIX ds: <".toList ++ DS.toList ++ ">\n".toList ++
    "               SELECT ?p ?porder ?action ?corder ?left ?op ?right WHERE \x7b\n".toList ++
    "                   <".toList
  post := " odrl:permission ?p .\n".toList ++
    "                   ?p ds:order ?porder ; odrl:action ?action .\n".toList ++
    "                   OPTIONAL \x7b\n".toList ++
    "                       ?p odrl:constraint ?c .\n".toList ++
    "                       ?c ds:order ?corder ; odrl:leftOperand ?left ; ".toList ++
    "odrl:operator ?op ; odrl:rightOperand ?right .\n".toList ++
    "                   \x7d\n".toList ++
    "               \x7d ORDER BY ?porder ?corder".toList
  before := [word "PREFIX", pname "odrl" "", iriref ODRL, word "PREFIX", pname "ds" "",
    iriref DS, word "SELECT", var "p", var "porder", var "action", var "corder", var "left",
    var "op", var "right", word "WHERE", .lbrace]
  after := [pname "odrl" "permission", var "p", .dot,
    var "p", pname "ds" "order", var "porder", .semicolon,
    pname "odrl" "action", var "action", .dot, word "OPTIONAL", .lbrace,
    var "p", pname "odrl" "constraint", var "c", .dot,
    var "c", pname "ds" "order", var "corder", .semicolon,
    pname "odrl" "leftOperand", var "left", .semicolon,
    pname "odrl" "operator", var "op", .semicolon,
    pname "odrl" "rightOperand", var "right", .dot, .rbrace, .rbrace,
    word "ORDER", word "BY", var "porder"]
  mode := .var "corder".toList.reverse
  last := [var "corder"]
  query := rowsPattern
  iris := [ODRL, DS]
  lex_pre := by
    unfold ODRL DS
    rewrite [toList_literal (s := "PREFIX odrl: <") rfl,
      toList_literal (s := "http://www.w3.org/ns/odrl/2/") rfl,
      toList_literal (s := "               PREFIX ds: <") rfl,
      toList_literal (s := "https://ds42.org/ontologies/ds-sql-dps-rs#") rfl,
      toList_literal
        (s := "               SELECT ?p ?porder ?action ?corder ?left ?op ?right WHERE \x7b\n") rfl,
      toList_literal (s := "                   <") rfl]
    decide +kernel
  lex_post := by
    rewrite [toList_literal (s := " odrl:permission ?p .\n") rfl,
      toList_literal (s := "                   ?p ds:order ?porder ; odrl:action ?action .\n") rfl,
      toList_literal (s := "                   OPTIONAL \x7b\n") rfl,
      toList_literal (s := "                       ?p odrl:constraint ?c .\n") rfl,
      toList_literal
        (s := "                       ?c ds:order ?corder ; odrl:leftOperand ?left ; ") rfl,
      toList_literal (s := "odrl:operator ?op ; odrl:rightOperand ?right .\n") rfl,
      toList_literal (s := "                   \x7d\n") rfl,
      toList_literal (s := "               \x7d ORDER BY ?porder ?corder") rfl]
    decide +kernel
  last_eq := by simp [Mode.last]
  parse_eq s := by simp [List.lookup_cons, rowsPattern, outTriple, odrl, ODRL, ds, DS]
  iris_eq s := by simp [List.filterMap_cons]

theorem toList_rowsQuery (d : String) :
    (rowsQuery d).toList = rowsText.pre ++ (policyIri d).toList ++ '>' :: rowsText.post := by
  unfold rowsQuery rowsText
  simp only [-String.reduceToList, String.toList_append, List.append_assoc]
  rewrite [toList_literal (s := "> odrl:permission ?p .\n") rfl,
    toList_literal (s := " odrl:permission ?p .\n") rfl]
  rfl

theorem readQuery_rowsQuery {d : String} (h : '>' ∉ d.toList) :
    readQuery (rowsQuery d) = openVerdict rowsPattern [ODRL, DS] (policyIri d).toList :=
  rowsText.readQuery (toList_rowsQuery d) (gt_not_mem_policyIri h)

end DsSqlDps
