import DsSqlDps.Dataplane.Config

/-!
# The public endpoint

`get_file` of the `dataplane` crate as it runs when nothing runs between its steps. The ODRL engine,
the clock, the file system and the conversion of header values are outside of the repository.
-/

namespace DsSqlDps

/-! ## What is outside -/

inductive DutyMode
  | advise
deriving DecidableEq, Repr

inductive Behaviour
  | closed
deriving DecidableEq, Repr

/-- An evaluation: whether the decision is `Allow`, and the reason. -/
structure Evaluation where
  allow : Bool
  reason : String
deriving DecidableEq, Repr

/-- The ODRL engine and the adapter in front of it. -/
structure PolicyEngine where
  Policy : Type
  Request : Type
  ingestPolicyValue : Json.Value → Except String Policy
  requestFor : Policy → (asset action : String) → (claims : List (String × String)) → DutyMode →
    Behaviour → Request
  evaluateRequest : Request → Evaluation

/-- The current time, the files and the conversion to header values, as one request meets them. -/
structure Host where
  now : String
  readFile : PathBuf → Except String ByteArray
  headerValue : String → Except String Unit

/-! ## Responses -/

inductive StatusCode
  | unauthorized
  | forbidden
  | notFound
  | internalServerError
deriving DecidableEq, Repr

inductive Response
  | text (status : StatusCode) (message : String)
  | file (contentType : String) (bytes : ByteArray)
deriving DecidableEq

def invalidToken : Response := .text .unauthorized "invalid or expired token"

def wrongDataset : Response := .text .forbidden "token not valid for this dataset"

def policyUnreadable (e : ConfigGraphError) : Response := .text .internalServerError e.toString

section
variable (pe : PolicyEngine)

/-- The evaluation of a policy that was ingested. -/
def evaluate (now datasetId : String) (policy : pe.Policy) : Evaluation :=
  pe.evaluateRequest
    (pe.requestFor policy (datasetIri datasetId) "use" [("dateTime", now)] .advise .closed)

/-- The response to a request that the policy does not allow. -/
def refusal (now datasetId : String) (doc : Json.Value) : Option Response :=
  match pe.ingestPolicyValue doc with
  | .error e => some (.text .internalServerError ("policy ingestion failed: " ++ e))
  | .ok policy =>
    let response := evaluate pe now datasetId policy
    if response.allow then none
    else some (.text .forbidden ("policy denied this request: " ++ response.reason))

/-- The policy is ingested, and the evaluation of the request is `Allow`. -/
def Allowed (now datasetId : String) (doc : Json.Value) : Prop :=
  ∃ policy, pe.ingestPolicyValue doc = .ok policy ∧ (evaluate pe now datasetId policy).allow = true

end

def pathUnreadable (e : ConfigGraphError) : Response := .text .notFound e.toString

def mediaOrDefault : Except ConfigGraphError String → String
  | .ok media => media
  | .error _ => "application/octet-stream"

def fileResponse (host : Host) (path : PathBuf) (media : String) : Response :=
  match host.readFile path with
  | .error e => .text .internalServerError ("failed to read " ++ path.toStringLossy ++ ": " ++ e)
  | .ok bytes =>
    match host.headerValue media with
    | .ok () => .file media bytes
    | .error e => .text .internalServerError e

section
variable (ox : Sparql.Engine) (pe : PolicyEngine) (host : Host)

/-- The end of `get_file`, once the policy allows the request. -/
def serveFile (s : Rdf.Store) (datasetId : String) : Response :=
  match filePath ox s datasetId with
  | .error e => pathUnreadable e
  | .ok path => fileResponse host path (mediaOrDefault (mediaType ox s datasetId))

def getFile (s : ServiceState) (datasetId token : String) : Response :=
  match s.tokens.lookup token with
  | none => invalidToken
  | some record =>
    if record.datasetId ≠ datasetId then wrongDataset
    else
      match policyJsonld ox s.graph.store datasetId with
      | .error e => policyUnreadable e
      | .ok doc =>
        match refusal pe host.now datasetId doc with
        | some response => response
        | none => serveFile ox host s.graph.store datasetId

end

/-- `get_file` once the token and its dataset are checked. -/
def judged (ox : Sparql.Engine) (pe : PolicyEngine) (host : Host) (s : Rdf.Store)
    (datasetId : String) : Response :=
  match policyJsonld ox s datasetId with
  | .error e => policyUnreadable e
  | .ok doc =>
    match refusal pe host.now datasetId doc with
    | some response => response
    | none => serveFile ox host s datasetId

theorem getFile_of_lookup {ox : Sparql.Engine} {pe : PolicyEngine} {s : ServiceState}
    {d f token : String} (h : s.tokens.lookup token = some ⟨f, d⟩) (host : Host) :
    getFile ox pe host s d token = judged ox pe host s.graph.store d := by
  rw [getFile, h]
  exact if_neg (not_not.mpr rfl)

/-! ## An engine -/

/-- The policy has a permission for the action, and no constraint on it. -/
def permits (policy : Json.Value) (action : String) : Bool :=
  match policy.field? "permission" with
  | some (.arr items) => items.any fun item =>
    match item.field? "action", item.field? "constraint" with
    | some (.str a), none => decide (a = action)
    | _, _ => false
  | _ => false

/-- An engine that grants what is permitted without constraints, and nothing else. -/
def permissionEngine : PolicyEngine where
  Policy := Json.Value
  Request := Json.Value × String
  ingestPolicyValue := .ok
  requestFor policy _ action _ _ _ := (policy, action)
  evaluateRequest request :=
    if permits request.1 request.2 then ⟨true, "permitted"⟩ else ⟨false, "no permission applies"⟩

/-- A host with an empty file at every path. -/
def sampleHost : Host := ⟨"2026-01-01T00:00:00Z", fun _ => .ok .empty, fun _ => .ok ()⟩

/-! ## Which response it is -/

theorem invalidToken_ne_wrongDataset : invalidToken ≠ wrongDataset := by
  unfold invalidToken wrongDataset
  rintro ⟨⟩

/-- The responses of a request whose token was found and is for its dataset. -/
def Response.Past : Response → Prop
  | .text status message => status ≠ .unauthorized ∧
      ¬ (status = .forbidden ∧ message = "token not valid for this dataset")
  | .file _ _ => True

theorem Response.Past.ne_invalidToken {r : Response} (h : r.Past) : r ≠ invalidToken := by
  rintro rfl
  exact h.1 rfl

theorem Response.Past.ne_wrongDataset {r : Response} (h : r.Past) : r ≠ wrongDataset := by
  rintro rfl
  exact h.2 ⟨rfl, rfl⟩

theorem past_text {status : StatusCode} {message : String} (h : status ≠ .unauthorized)
    (h' : status ≠ .forbidden) : (Response.text status message).Past :=
  ⟨h, fun hs => h' hs.1⟩

section
variable {pe : PolicyEngine} {now datasetId : String} {doc : Json.Value}

theorem refusal_eq_none_iff :
    refusal pe now datasetId doc = none ↔ Allowed pe now datasetId doc := by
  unfold refusal Allowed
  cases pe.ingestPolicyValue doc with
  | error e => simp
  | ok policy => simp

theorem denied_ne (reason : String) :
    "policy denied this request: " ++ reason ≠ "token not valid for this dataset" := by
  intro h
  have hc := congrArg (fun s : String => s.toList.head?) h
  simp only [String.toList_append] at hc
  rewrite [Sparql.toList_literal (s := "policy denied this request: ") rfl,
    Sparql.toList_literal (s := "token not valid for this dataset") rfl] at hc
  simp at hc

theorem refusal_past {r : Response} (h : refusal pe now datasetId doc = some r) :
    r.Past ∧ ∀ media bytes, r ≠ .file media bytes := by
  unfold refusal at h
  cases hi : pe.ingestPolicyValue doc with
  | error e =>
    rw [hi] at h
    rw [← Option.some.inj h]
    exact ⟨past_text (by simp) (by simp), fun _ _ he => by cases he⟩
  | ok policy =>
    rw [hi] at h
    dsimp only at h
    split_ifs at h with ha
    rw [← Option.some.inj h]
    exact ⟨⟨by simp, fun hd => denied_ne _ hd.2⟩, fun _ _ he => by cases he⟩

theorem fileResponse_past (host : Host) (path : PathBuf) (media : String) :
    (fileResponse host path media).Past := by
  unfold fileResponse
  cases host.readFile path with
  | error e => exact past_text (by simp) (by simp)
  | ok bytes =>
    cases host.headerValue media with
    | error e => exact past_text (by simp) (by simp)
    | ok u => trivial

end

end DsSqlDps
