import DsSqlDps.Dataplane.Endpoint

/-!
# Self-registration

The PUT by which `build` registers the data plane with a control plane. Its URL has the participant
context id pasted between two segments of the path.
-/

namespace DsSqlDps
open Sparql

/-! ## The request -/

/-- The body of the PUT. -/
structure DataPlaneRegistration where
  dataplaneId : String
  endpoint : String
  transferTypes : List String
  labels : Option (List String)
  authorization : Option Json.Value

/-- As JSON; what is not set is left out. -/
def DataPlaneRegistration.json (r : DataPlaneRegistration) : Json.Value :=
  .obj ([("dataplaneId", .str r.dataplaneId), ("endpoint", .str r.endpoint),
      ("transferTypes", .arr (r.transferTypes.map .str))] ++
    (r.labels.map fun labels => ("labels", .arr (labels.map .str))).toList ++
    (r.authorization.map fun value => ("authorization", value)).toList)

structure PutRequest where
  url : String
  body : Json.Value

/-- A status, with the phrase that is displayed after its code. -/
structure HttpStatus where
  code : ℕ
  reason : String
deriving DecidableEq, Repr

def HttpStatus.isSuccess (s : HttpStatus) : Bool := decide (200 ≤ s.code ∧ s.code < 300)

def HttpStatus.toString (s : HttpStatus) : String := s.code.repr ++ " " ++ s.reason

/-- The body of a response is read after its status, which may fail. -/
structure HttpResponse where
  status : HttpStatus
  text : Except String String

inductive RegistrationError
  | request (url source : String)
  | nonSuccessStatus (url : String) (status : HttpStatus) (body : String)
deriving DecidableEq, Repr

def RegistrationError.toString : RegistrationError → String
  | .request url source =>
    "failed to send data-plane registration request to " ++ url ++ ": " ++ source
  | .nonSuccessStatus url status body =>
    "control plane at " ++ url ++ " rejected data-plane registration with status " ++
      status.toString ++ ": " ++ body

/-- `trim_end_matches('/')` -/
def trimEndSlashes (s : String) : String := String.ofList (s.toList.rdropWhile (· = '/'))

def registrationUrl (controlPlaneBaseUrl participantContextId : String) : String :=
  trimEndSlashes controlPlaneBaseUrl ++ "/v5beta/participants/" ++ participantContextId ++
    "/dataplanes"

/-- The outcome of the PUT, given how it is answered. -/
def registerWithControlPlane (send : PutRequest → Except String HttpResponse)
    (controlPlaneBaseUrl participantContextId : String) (registration : DataPlaneRegistration) :
    Except RegistrationError Unit :=
  let url := registrationUrl controlPlaneBaseUrl participantContextId
  match send ⟨url, registration.json⟩ with
  | .error source => .error (.request url source)
  | .ok response =>
    if response.status.isSuccess then .ok ()
    else .error (.nonSuccessStatus url response.status (match response.text with
      | .ok text => text
      | .error e => "<failed to read response body: " ++ e ++ ">"))

/-! ## Startup -/

structure ParticipantContext where
  id : String
deriving DecidableEq, Repr

/-- The configuration with its fields for signaling. -/
structure ServiceConfig extends Config where
  signalingPort : UInt16
  participantContextId : String
  dataplaneId : String
  controlPlaneUrl : Option String

/-- What `build` returns, with the PUT that it has sent and the outcome that it has logged. -/
structure App where
  handler : FileOfferHandler
  state : ServiceState
  participant : ParticipantContext
  registration : Option (PutRequest × Except RegistrationError Unit)

namespace ServiceConfig

/-- A configured port of `0` stands for the port that the listener was assigned. -/
def signalingBaseUrl (c : ServiceConfig) (assignedPort : UInt16) : String :=
  "http://localhost:" ++
    (if c.signalingPort = 0 then assignedPort else c.signalingPort).toNat.repr

def registration (c : ServiceConfig) (assignedPort : UInt16) : DataPlaneRegistration where
  dataplaneId := c.dataplaneId
  endpoint := c.signalingBaseUrl assignedPort
  transferTypes := ["HttpData-PULL"]
  labels := none
  authorization := none

/-- `build` with its last part: a registration that fails does not keep the service from
starting. -/
def build (ox : Sparql.Engine) (send : PutRequest → Except String HttpResponse)
    (c : ServiceConfig) (publicPort signalingPort : UInt16) : Except ConfigGraphError App := do
  let (handler, state) ← DsSqlDps.build ox c.toConfig publicPort
  .ok {
    handler := handler
    state := state
    participant := ⟨c.participantContextId⟩
    registration := c.controlPlaneUrl.map fun controlPlaneUrl =>
      let registration := c.registration signalingPort
      (⟨registrationUrl controlPlaneUrl c.participantContextId, registration.json⟩,
        registerWithControlPlane send controlPlaneUrl c.participantContextId registration) }

end ServiceConfig

/-! ## Base URLs -/

/-- A scheme, an authority, a path of plain segments and slashes after it. -/
structure BaseUrl where
  origin : Url.Origin
  segments : List (List Char)
  slashes : ℕ
  plain : ∀ s ∈ segments, Url.Plain s
  last_ne : segments.getLast? ≠ some []

namespace BaseUrl
variable (b : BaseUrl)

def text : String :=
  String.ofList (b.origin.text ++ Url.path b.segments ++ List.replicate b.slashes '/')

/-- The segments that a PUT for the participant has to have. -/
def resource (id : String) : List (List Char) :=
  b.segments ++ ["v5beta".toList, "participants".toList, id.toList, "dataplanes".toList]

theorem resource_injective : Function.Injective b.resource := by
  intro id id' h
  have hs := List.append_cancel_left h
  simp only [List.cons.injEq, true_and, and_true] at hs
  exact String.toList_injective hs

/-- What is in front of the slashes at the end does not end with one. -/
theorem exists_concat : ∃ cs c, b.origin.text ++ Url.path b.segments = cs ++ [c] ∧ c ≠ '/' := by
  rcases List.eq_nil_or_concat' b.segments with hs | ⟨init, s, hs⟩
  · obtain ⟨cs, c, hc⟩ := (List.eq_nil_or_concat' b.origin.authority).resolve_left
      b.origin.authority_ne
    refine ⟨b.origin.scheme ++ ':' :: '/' :: '/' :: cs, c, ?_, ?_⟩
    · rw [hs, Url.Origin.text, hc]
      simp [Url.path]
    · rintro rfl
      have hm : '/' ∈ b.origin.authority := by simp [hc]
      exact absurd (b.origin.authority_ok _ hm).1 (by simp [Url.isSlash])
  · have hne : s ≠ [] := by
      rintro rfl
      exact b.last_ne (by rw [hs, List.getLast?_concat])
    obtain ⟨cs, c, rfl⟩ := (List.eq_nil_or_concat' s).resolve_left hne
    refine ⟨b.origin.text ++ Url.path init ++ '/' :: cs, c, ?_, ?_⟩
    · rw [hs, Url.path_append, Url.path_cons]
      simp [Url.path]
    · rintro rfl
      have hp := (b.plain (cs ++ ['/']) (by simp [hs])).unreserved '/' (by simp)
      exact absurd hp (by decide +kernel)

theorem toList_trimEndSlashes :
    (trimEndSlashes b.text).toList = b.origin.text ++ Url.path b.segments := by
  obtain ⟨cs, c, he, hc⟩ := b.exists_concat
  rw [trimEndSlashes, text, String.toList_ofList, String.toList_ofList, he]
  induction b.slashes with
  | zero =>
    rw [List.replicate_zero, List.append_nil]
    exact List.rdropWhile_concat_neg _ _ _ (by simpa using hc)
  | succ n ih =>
    rw [List.replicate_succ', ← List.append_assoc, List.rdropWhile_concat_pos _ _ _ (by simp), ih]

theorem toList_registrationUrl (id : String) :
    (registrationUrl b.text id).toList = b.origin.text ++ Url.path (b.resource id) := by
  have hp : "/v5beta/participants/".toList =
      '/' :: ("v5beta".toList ++ '/' :: ("participants".toList ++ ['/'])) := by
    rewrite [toList_literal (s := "/v5beta/participants/") rfl, toList_literal (s := "v5beta") rfl,
      toList_literal (s := "participants") rfl]
    rfl
  have hd : "/dataplanes".toList = '/' :: "dataplanes".toList := by
    rewrite [toList_literal (s := "/dataplanes") rfl, toList_literal (s := "dataplanes") rfl]
    rfl
  rw [registrationUrl, String.toList_append, String.toList_append, String.toList_append,
    b.toList_trimEndSlashes, hp, hd, resource, Url.path_append]
  simp only [Url.path, List.flatMap_cons, List.flatMap_nil, List.append_nil, List.cons_append,
    List.append_assoc, List.nil_append]

end BaseUrl

/-! ## The receiving server -/

/-- The segments of the path, percent-decoded. -/
def receivedPath (m : Url.Malformed) (url : String) : List (Option (List Char)) :=
  (Url.segments url.toList).map (Url.decode m)

/-- The id is a segment of a path by itself. -/
structure IsSegment (special : Bool) (m : Url.Malformed) (id : String) : Prop where
  not_dot : id ≠ "."
  not_doubleDot : id ≠ ".."
  clean : ∀ c ∈ ['\t', '\n', '\r', '?', '#', '/'], c ∉ id.toList
  no_backslash : special = true → '\\' ∉ id.toList
  literal : Url.Literal m id.toList

theorem isSegment_iff {special : Bool} {m : Url.Malformed} {id : String} :
    IsSegment special m id ↔ Url.Verbatim special m id.toList := by
  rw [Url.verbatim_iff]
  constructor
  · intro h
    refine ⟨fun hd => h.not_dot (String.toList_injective hd),
      fun hd => h.not_doubleDot (String.toList_injective hd), fun c hc => ?_, h.literal⟩
    have hne {d : Char} (hd : d ∈ ['\t', '\n', '\r', '?', '#', '/']) : c ≠ d := by
      rintro rfl
      exact h.clean c hd hc
    -- a backslash matters for some schemes only
    have hback : special = false ∨ c ≠ '\\' := by
      rcases Bool.eq_false_or_eq_true special with hs | hs
      · exact Or.inr fun he => h.no_backslash hs (he ▸ hc)
      · exact Or.inl hs
    simp only [Url.isIgnored, Url.endsPath, Url.isSlash, Bool.or_eq_false_iff,
      Bool.and_eq_false_iff, decide_eq_false_iff_not]
    exact ⟨⟨⟨hne (by simp), hne (by simp)⟩, hne (by simp)⟩, ⟨hne (by simp), hne (by simp)⟩,
      hne (by simp), hback⟩
  · rintro ⟨hd, hdd, hc, hl⟩
    refine ⟨fun he => hd (by rw [he]; rfl), fun he => hdd (by rw [he]; rfl), fun c hm hid => ?_,
      fun hs hid => ?_, hl⟩
    · obtain ⟨hi, he, hslash⟩ := hc c hid
      simp only [List.mem_cons, List.not_mem_nil, or_false] at hm
      rcases hm with rfl | rfl | rfl | rfl | rfl | rfl <;>
        simp [Url.isIgnored, Url.endsPath, Url.isSlash] at hi he hslash
    · have hslash := (hc '\\' hid).2.2
      rw [hs] at hslash
      cases hslash

/-! ## The result -/

/-- The PUT for a participant goes to its resource exactly if its id is a segment. -/
theorem receivedPath_iff (b : BaseUrl) (m : Url.Malformed) (id : String) :
    receivedPath m (registrationUrl b.text id) = (b.resource id).map some ↔
      IsSegment b.origin.special m id := by
  have hpre : ∀ s ∈ b.segments ++ ["v5beta".toList, "participants".toList],
      Url.Verbatim b.origin.special m s := by
    intro s hs
    rcases List.mem_append.mp hs with hs | hs
    · exact (b.plain s hs).verbatim _ _
    · rcases List.mem_pair.mp hs with rfl | rfl
      · exact (plain_of_literal (toList_literal rfl) (by decide +kernel) (by decide)).verbatim _ _
      · exact (plain_of_literal (toList_literal rfl) (by decide +kernel) (by decide)).verbatim _ _
  have hpost : ∀ s ∈ ["dataplanes".toList], Url.Verbatim b.origin.special m s := by
    intro s hs
    rw [List.mem_singleton.mp hs]
    exact (plain_of_literal (toList_literal rfl) (by decide +kernel) (by decide)).verbatim _ _
  have hsplit : b.resource id = b.segments ++ ["v5beta".toList, "participants".toList] ++
      id.toList :: ["dataplanes".toList] := by simp [BaseUrl.resource]
  rw [isSegment_iff, receivedPath, b.toList_registrationUrl, hsplit]
  constructor
  · intro h
    -- some segment that is received decodes to the id
    have hid : some id.toList ∈ (b.segments ++ ["v5beta".toList, "participants".toList] ++
        id.toList :: ["dataplanes".toList]).map some := List.mem_map_of_mem (by simp)
    rw [← h] at hid
    obtain ⟨segment, hs, hd⟩ := List.mem_map.mp hid
    exact Url.verbatim_of_decode b.origin hpre hpost hs hd
  · intro hv
    have hall : ∀ s ∈ b.segments ++ ["v5beta".toList, "participants".toList] ++
        id.toList :: ["dataplanes".toList], Url.Verbatim b.origin.special m s := by
      intro s hs
      rcases List.mem_append.mp hs with hs | hs
      · exact hpre s hs
      · rcases List.mem_cons.mp hs with rfl | hs
        · exact hv
        · exact hpost s hs
    rw [Url.segments_path b.origin (by simp) hall]
    exact List.map_congr_left fun s hs => Url.decode_eq_self_iff.mpr (hall s hs).literal

/-- A service that registers with a control plane sends the URL for the id of its participant. -/
theorem registration_of_build {ox : Engine} {send : PutRequest → Except String HttpResponse}
    {c : ServiceConfig} {publicPort signalingPort : UInt16} {app : App} {url : String}
    (hb : c.build ox send publicPort signalingPort = .ok app) (hu : c.controlPlaneUrl = some url) :
    app.participant.id = c.participantContextId ∧ ∃ request outcome,
      app.registration = some (request, outcome) ∧
        request.url = registrationUrl url app.participant.id := by
  obtain ⟨⟨handler, state⟩, -, he⟩ := exists_of_bind hb
  obtain rfl := Except.ok.inj he
  exact ⟨rfl, _, _, by rw [hu]; rfl, rfl⟩

/-- The participant that a registration names is that of the service, exactly if its id is a
segment of a path by itself; and among such ids no two have one resource. -/
theorem participant_named_iff (b : BaseUrl) (m : Url.Malformed) (id : String) :
    (receivedPath m (registrationUrl b.text id) = (b.resource id).map some ↔
      IsSegment b.origin.special m id) ∧
    (∀ id', IsSegment b.origin.special m id → IsSegment b.origin.special m id' →
      receivedPath m (registrationUrl b.text id) = receivedPath m (registrationUrl b.text id') →
        id = id') ∧
    ∀ (ox : Engine) (send : PutRequest → Except String HttpResponse) (c : ServiceConfig)
      (publicPort signalingPort : UInt16) (app : App),
      c.build ox send publicPort signalingPort = .ok app → c.controlPlaneUrl = some b.text →
      c.participantContextId = id → app.participant.id = id ∧ ∃ request outcome,
        app.registration = some (request, outcome) ∧ request.url = registrationUrl b.text id := by
  refine ⟨receivedPath_iff b m id, fun id' hs hs' he => ?_,
    fun ox send c publicPort signalingPort app hb hu hid => ?_⟩
  · rw [(receivedPath_iff b m id).mpr hs, (receivedPath_iff b m id').mpr hs'] at he
    exact b.resource_injective (List.map_injective_iff.mpr (Option.some_injective _) he)
  · obtain ⟨hp, request, outcome, hr, hurl⟩ := registration_of_build hb hu
    rw [hid] at hp
    rw [hp] at hurl
    exact ⟨hp, request, outcome, hr, hurl⟩

/-- The base URL of a control plane on this host. -/
def sampleBase : BaseUrl where
  origin := localOrigin 8080
  segments := []
  slashes := 1
  plain _ hs := absurd hs List.not_mem_nil
  last_ne := by simp

/-- The PUT for the participant with a port in its id goes to the resource of another one. -/
theorem not_participant_named :
    ¬ (∀ (b : BaseUrl) (m : Url.Malformed) (id : String), id ≠ "" →
      receivedPath m (registrationUrl b.text id) = (b.resource id).map some) ∧
    ¬ (∀ (b : BaseUrl) (m : Url.Malformed) (id id' : String), id ≠ "" → id' ≠ "" →
      receivedPath m (registrationUrl b.text id) = receivedPath m (registrationUrl b.text id') →
        id = id') := by
  have hescaped : receivedPath .keep (registrationUrl sampleBase.text "did:web:host%3A7080") =
      (sampleBase.resource "did:web:host:7080").map some := by decide +kernel
  have hplain : receivedPath .keep (registrationUrl sampleBase.text "did:web:host:7080") =
      (sampleBase.resource "did:web:host:7080").map some := by decide +kernel
  have hne : "did:web:host%3A7080" ≠ "did:web:host:7080" := by decide
  refine ⟨fun hall => hne ?_, fun hall => hne ?_⟩
  · have hr := hall sampleBase .keep "did:web:host%3A7080" (by decide)
    rw [hescaped] at hr
    exact (sampleBase.resource_injective
      (List.map_injective_iff.mpr (Option.some_injective _) hr)).symm
  · exact hall sampleBase .keep _ _ (by decide) (by decide) (hescaped.trans hplain.symm)

end DsSqlDps
