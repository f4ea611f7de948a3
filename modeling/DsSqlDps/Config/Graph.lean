import DsSqlDps.Json.Value
import DsSqlDps.Config.Offer

/-!
# The configuration graph

The functions of the `config-graph` crate, over any SPARQL engine. `BlankNode::default` draws
from a counter, so that a node is never drawn twice; `Store::insert` fails where the caller of
`seedOffer` says so, and then leaves the store as it was.
-/

namespace DsSqlDps
open Rdf Sparql Vocab

inductive ConfigGraphError
  | iri (e : String)
  | storage (e : String)
  | query (e : String)
  | syntaxError (e : String)
  | notFound (datasetId : String)
deriving DecidableEq, Repr

def ConfigGraphError.toString : ConfigGraphError → String
  | .iri e => "invalid IRI: " ++ e
  | .storage e => "store error: " ++ e
  | .query e => "SPARQL query failed: " ++ e
  | .syntaxError e => "SPARQL query failed to parse: " ++ e
  | .notFound d => "no offer found for dataset id '" ++ d ++ "'"

structure ConfigGraph where
  store : Store
  /-- The next blank node. -/
  fresh : ℕ

def ConfigGraph.openInMemory : ConfigGraph := ⟨.empty, 0⟩

/-- A computation in two steps that succeeds. -/
theorem exists_of_bind {ε α β : Type} {x : Except ε α} {f : α → Except ε β} {b : β}
    (h : x >>= f = .ok b) : ∃ a, x = .ok a ∧ f a = .ok b := by
  cases x with
  | error e => cases h
  | ok a => exact ⟨a, rfl, h⟩

def literalValue : Term → Option String
  | .literal value _ => some value
  | .iri value => some value
  | .blank _ => none

variable (ox : Engine)

def namedNode (s : String) : Except ConfigGraphError Term :=
  match ox.namedNode s with
  | .ok _ => .ok (.iri s)
  | .error e => .error (.iri e)

/-! ## Seeding -/

/-- The inner loop of `seed_offer`: the constraints from index `j` on, of the permission `p`. -/
def constraintQuads (p : Term) : ℕ → ℕ → List ConstraintSpec → Except ConfigGraphError (List Quad)
  | _, _, [] => .ok []
  | j, fresh, constraint :: rest => do
    let c := Term.blank fresh
    let link : Quad := ⟨p, ← namedNode ox (odrl "constraint"), c⟩
    let order : Quad := ⟨c, ← namedNode ox (ds "order"), .literal j.repr (xsd "integer")⟩
    let left : Quad := ⟨c, ← namedNode ox (odrl "leftOperand"), .simple constraint.leftOperand⟩
    let op : Quad := ⟨c, ← namedNode ox (odrl "operator"), .simple constraint.operator⟩
    let right : Quad := ⟨c, ← namedNode ox (odrl "rightOperand"), .simple constraint.rightOperand⟩
    let quads ← constraintQuads p (j + 1) (fresh + 1) rest
    .ok (link :: order :: left :: op :: right :: quads)

/-- The blank nodes that a permission takes: its own and one for each constraint. -/
def PermissionSpec.blanks (permission : PermissionSpec) : ℕ := 1 + permission.constraints.length

/-- The outer loop of `seed_offer`: the permissions from index `i` on. -/
def permissionQuads (policy : Term) :
    ℕ → ℕ → List PermissionSpec → Except ConfigGraphError (List Quad)
  | _, _, [] => .ok []
  | i, fresh, permission :: rest => do
    let p := Term.blank fresh
    let link : Quad := ⟨policy, ← namedNode ox (odrl "permission"), p⟩
    let type : Quad := ⟨p, ← namedNode ox (rdf "type"), ← namedNode ox (odrl "Permission")⟩
    let order : Quad := ⟨p, ← namedNode ox (ds "order"), .literal i.repr (xsd "integer")⟩
    let action : Quad := ⟨p, ← namedNode ox (odrl "action"), .simple permission.action⟩
    let constraints ← constraintQuads ox p 0 (fresh + 1) permission.constraints
    let quads ← permissionQuads policy (i + 1) (fresh + permission.blanks) rest
    .ok (link :: type :: order :: action :: constraints ++ quads)

/-- The quads that `seed_offer` collects before it inserts the first of them. -/
def offerQuads (fresh : ℕ) (offer : FileOffer) : Except ConfigGraphError (List Quad) := do
  let dataset ← namedNode ox (datasetIri offer.datasetId)
  let distribution ← namedNode ox (distributionIri offer.datasetId)
  let policy ← namedNode ox (policyIri offer.datasetId)
  let quads : List Quad := [
    ⟨dataset, ← namedNode ox (rdf "type"), ← namedNode ox (dcat "Dataset")⟩,
    ⟨dataset, ← namedNode ox (dcterms "title"), .simple offer.title⟩,
    ⟨dataset, ← namedNode ox (dcat "distribution"), distribution⟩,
    ⟨distribution, ← namedNode ox (rdf "type"), ← namedNode ox (dcat "Distribution")⟩,
    ⟨distribution, ← namedNode ox (ds "filePath"), .simple offer.filePath.toStringLossy⟩,
    ⟨distribution, ← namedNode ox (dcat "mediaType"), .simple offer.mediaType⟩,
    ⟨policy, ← namedNode ox (rdf "type"), ← namedNode ox (odrl "Offer")⟩,
    ⟨policy, ← namedNode ox (odrl "target"), dataset⟩,
    ⟨policy, ← namedNode ox (odrl "assigner"), .simple offer.assigner⟩]
  let _ ← namedNode ox (xsd "integer")
  let permissions ← permissionQuads ox policy 0 fresh offer.permissions
  .ok (quads ++ permissions)

def FileOffer.blanks (offer : FileOffer) : ℕ :=
  (offer.permissions.map PermissionSpec.blanks).sum

/-- Where `Store::insert` fails: the text of the error at the given position of the quads. -/
abbrev Faults := ℕ → Option String

def noFaults : Faults := fun _ => none

/-- The insertion loop of `seed_offer`, from position `n` on. -/
def insertLoop (faults : Faults) :
    ℕ → List Quad → Store → Except ConfigGraphError Unit × Store
  | _, [], s => (.ok (), s)
  | n, quad :: quads, s =>
    match faults n with
    | some e => (.error (.storage e), s)
    | none => insertLoop faults (n + 1) quads (s.insert quad)

def seedOffer (faults : Faults) (g : ConfigGraph) (offer : FileOffer) :
    Except ConfigGraphError Unit × ConfigGraph :=
  match offerQuads ox g.fresh offer with
  | .error e => (.error e, g)
  | .ok quads =>
    let (result, store) := insertLoop faults 0 quads g.store
    (result, ⟨store, g.fresh + offer.blanks⟩)

/-! ## Reading -/

def select (s : Store) (query : String) : Except ConfigGraphError (List Solution) :=
  match ox.execute s query with
  | .error (.syntaxError e) => .error (.syntaxError e)
  | .error (.evaluation e) => .error (.query e)
  | .ok .other => .ok []
  | .ok (.solutions rows) => rows.mapM fun
    | .ok solution => .ok solution
    | .error e => .error (.query e)

def filePathQuery (datasetId : String) : String :=
  "PREFIX ds: <" ++ DS ++ ">\n" ++
    "               SELECT ?path WHERE \x7b <" ++ distributionIri datasetId ++
    "> ds:filePath ?path \x7d"

def mediaTypeQuery (datasetId : String) : String :=
  "PREFIX dcat: <" ++ DCAT ++ ">\n" ++
    "               SELECT ?media WHERE \x7b <" ++ distributionIri datasetId ++
    "> dcat:mediaType ?media \x7d"

def headerQuery (datasetId : String) : String :=
  "PREFIX odrl: <" ++ ODRL ++ ">\n" ++
    "               SELECT ?target ?assigner WHERE \x7b\n" ++
    "                   <" ++ policyIri datasetId ++
    "> odrl:target ?target ; odrl:assigner ?assigner .\n" ++
    "               \x7d"

def rowsQuery (datasetId : String) : String :=
  "PREFIX odrl: <" ++ ODRL ++ ">\n" ++
    "               PREFIX ds: <" ++ DS ++ ">\n" ++
    "               SELECT ?p ?porder ?action ?corder ?left ?op ?right WHERE \x7b\n" ++
    "                   <" ++ policyIri datasetId ++
    "> odrl:permission ?p .\n" ++
    "                   ?p ds:order ?porder ; odrl:action ?action .\n" ++
    "                   OPTIONAL \x7b\n" ++
    "                       ?p odrl:constraint ?c .\n" ++
    "                       ?c ds:order ?corder ; odrl:leftOperand ?left ; " ++
    "odrl:operator ?op ; odrl:rightOperand ?right .\n" ++
    "                   \x7d\n" ++
    "               \x7d ORDER BY ?porder ?corder"

def filePath (s : Store) (datasetId : String) : Except ConfigGraphError PathBuf := do
  let solutions ← select ox s (filePathQuery datasetId)
  match (solutions.head?.bind (·.get "path")).bind literalValue with
  | some path => .ok (.ofString path)
  | none => .error (.notFound datasetId)

def mediaType (s : Store) (datasetId : String) : Except ConfigGraphError String := do
  let solutions ← select ox s (mediaTypeQuery datasetId)
  match (solutions.head?.bind (·.get "media")).bind literalValue with
  | some media => .ok media
  | none => .error (.notFound datasetId)

/-- The first half of `policy_jsonld`: its header query, as target and assigner. -/
def policyHeader (s : Store) (datasetId : String) : Except ConfigGraphError (String × String) := do
  let header ← select ox s (headerQuery datasetId)
  match header.head? with
  | none => .error (.notFound datasetId)
  | some header =>
    .ok (((header.get "target").bind literalValue).getD "",
      ((header.get "assigner").bind literalValue).getD "")

def policyRows (s : Store) (datasetId : String) : Except ConfigGraphError (List Solution) :=
  select ox s (rowsQuery datasetId)

/-- The loop over the rows: a row goes to the entry pushed last if it has the same `?p`. -/
def pushRow (permissions : List (Term × Json.Value)) (row : Solution) :
    List (Term × Json.Value) :=
  match row.get "p" with
  | none => permissions
  | some p =>
    let action := ((row.get "action").bind literalValue).getD ""
    let fresh : List (Term × Json.Value) :=
      permissions ++ [(p, .obj [("action", .str action), ("constraint", .arr [])])]
    let permissions :=
      match permissions.getLast? with
      | some (lastP, _) => if lastP = p then permissions else fresh
      | none => fresh
    match (row.get "left").bind literalValue with
    | none => permissions
    | some left =>
      let constraint : Json.Value := .obj [
        ("leftOperand", .str left),
        ("operator", .str (((row.get "op").bind literalValue).getD "")),
        ("rightOperand", .str (((row.get "right").bind literalValue).getD ""))]
      permissions.modifyLast fun entry => (entry.1, entry.2.pushTo "constraint" constraint)

/-- An empty constraint array is taken out again. -/
def dropEmptyConstraint (value : Json.Value) : Json.Value :=
  if ((value.field? "constraint").map Json.Value.isEmptyArray).getD false then
    value.remove "constraint"
  else value

def permissionEntries (rows : List Solution) : List Json.Value :=
  (rows.foldl pushRow []).map fun entry => dropEmptyConstraint entry.2

def policyObject (policy target assigner : String) (permissions : List Json.Value) : Json.Value :=
  .obj [
    ("@context", .str "http://www.w3.org/ns/odrl.jsonld"),
    ("@id", .str policy),
    ("@type", .str "Offer"),
    ("target", .str target),
    ("assigner", .str assigner),
    ("permission", .arr permissions)]

theorem policyObject_entries {p t a p' t' a' : String} {es es' : List Json.Value}
    (h : policyObject p t a es = policyObject p' t' a' es') : es = es' := by
  have hf := congrArg (·.field? "permission") h
  injection hf with hf
  injection hf

def policyJsonld (s : Store) (datasetId : String) : Except ConfigGraphError Json.Value := do
  let (target, assigner) ← policyHeader ox s datasetId
  let rows ← policyRows ox s datasetId
  .ok (policyObject (policyIri datasetId) target assigner (permissionEntries rows))

/-- The two queries behind a policy that could be read. -/
theorem policyJsonld_eq_ok {s : Store} {datasetId : String} {doc : Json.Value}
    (h : policyJsonld ox s datasetId = .ok doc) :
    ∃ target assigner rows, policyHeader ox s datasetId = .ok (target, assigner) ∧
      policyRows ox s datasetId = .ok rows ∧
      doc = policyObject (policyIri datasetId) target assigner (permissionEntries rows) := by
  obtain ⟨⟨target, assigner⟩, hh, h⟩ := exists_of_bind h
  obtain ⟨rows, hr, h⟩ := exists_of_bind h
  exact ⟨target, assigner, rows, hh, hr, (Except.ok.inj h).symm⟩

end DsSqlDps
