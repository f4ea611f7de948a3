import DsSqlDps.Contreforts
import DsSqlDps.Dataplane.Environment
import DsSqlDps.Lib.Calls

/-!
# Startup

The whole of `build` and of `main` up to the first request: what it asks of its host, in which
order, and what becomes of it when something is refused.
-/

namespace DsSqlDps

/-! ## The host -/

/-- A listener that is bound, with the port that `local_addr` returns. -/
structure Listener where
  localPort : Except String UInt16

/-- What a service asks of its host. -/
inductive HostCall
  | bind (address : String)
  | put (request : PutRequest)

/-- The outside world of a startup; it may answer a call in view of the calls before it. The store
may fail to open, and to insert the quads of the configured offer. -/
structure Os where
  openInMemory : Except ConfigGraphError Unit
  insert : Faults
  bind : List HostCall → String → Except String Listener
  send : List HostCall → PutRequest → Except String HttpResponse

structure ControlPlane where
  id : String
  url : String
deriving DecidableEq, Repr

/-- The parts of the SDK that may fail; `create` is the whole transaction on its repository. -/
structure Sdk where
  create : ControlPlane → Except String Unit
  build : Except String Unit

inductive StartupError
  | graph (e : ConfigGraphError)
  | io (e : String)
  | repo (e : String)
  | sdk (message : String)
deriving DecidableEq, Repr

/-! ## The program -/

/-- The application that was built, with what it has bound and the round trip that it has logged. -/
structure BoundApp extends App where
  controlPlane : ControlPlane
  roundTrip : Except ConnectorError Json.Value
  publicListener : Listener
  signalingListener : Listener

def anyAddress (port : UInt16) : String := "0.0.0.0:" ++ port.toNat.repr

namespace ServiceConfig
open Calls

def listen (os : Os) (address : String) : Program HostCall StartupError Listener := do
  let answer ← ask (.bind address) fun calls => os.bind calls address
  attempt .io answer

def controlPlane (c : ServiceConfig) : ControlPlane where
  id := "ds-sql-dps-rs-demo-control-plane"
  url := "http://localhost:" ++ c.signalingPort.toNat.repr ++ "/callback"

/-- The base URL of the handler. -/
def publicBaseUrlOf (c : ServiceConfig) (listener : Listener) :
    Program HostCall StartupError String :=
  if c.publicPort = 0 then do
    let port ← attempt .io listener.localPort
    pure ("http://localhost:" ++ port.toNat.repr)
  else pure c.publicBaseUrl

/-- The port in the base URL that is registered. -/
def signalingPortOf (c : ServiceConfig) (listener : Listener) :
    Program HostCall StartupError UInt16 :=
  if c.signalingPort = 0 then attempt .io listener.localPort else pure c.signalingPort

/-- `build` until both listeners are bound. -/
def assemble (ox : Sparql.Engine) (os : Os) (sdk : Sdk) (c : ServiceConfig) :
    Program HostCall StartupError BoundApp := do
  attempt .graph os.openInMemory
  let (seeded, graph) := seedOffer ox os.insert .openInMemory c.fileOffer
  attempt .graph seeded
  let roundTrip := (FileOfferConnector.mk graph).get (T := Unit) ox dataOfferKind c.datasetId
  let publicListener ← listen os (anyAddress c.publicPort)
  let publicBaseUrl ← c.publicBaseUrlOf publicListener
  attempt .repo (sdk.create c.controlPlane)
  attempt (fun e => .sdk ("failed to build DataPlaneSdk: " ++ e)) sdk.build
  let signalingListener ← listen os (anyAddress c.signalingPort)
  pure {
    handler := ⟨publicBaseUrl, c.fileOffer, c.tckMode⟩
    state := ⟨graph, .empty⟩
    participant := ⟨c.participantContextId⟩
    registration := none
    controlPlane := c.controlPlane
    roundTrip := roundTrip.map (·.fields)
    publicListener := publicListener
    signalingListener := signalingListener }

/-- The end of `build`; how the PUT is answered is only logged. -/
def selfRegister (os : Os) (c : ServiceConfig) (listener : Listener) :
    Program HostCall StartupError (Option (PutRequest × Except RegistrationError Unit)) :=
  match c.controlPlaneUrl with
  | none => pure none
  | some controlPlaneUrl => do
    let port ← c.signalingPortOf listener
    let registration := c.registration port
    let request := ⟨registrationUrl controlPlaneUrl c.participantContextId, registration.json⟩
    let outcome ← ask (.put request) fun calls =>
      registerWithControlPlane (os.send calls) controlPlaneUrl c.participantContextId registration
    pure (some (request, outcome))

/-- All of `build`. -/
def startup (ox : Sparql.Engine) (os : Os) (sdk : Sdk) (c : ServiceConfig) :
    Program HostCall StartupError BoundApp := do
  let app ← c.assemble ox os sdk
  let registration ← c.selfRegister os app.signalingListener
  pure { app with registration := registration }

end ServiceConfig

/-! ## What it takes -/

/-- Everything that a startup asks for is granted. -/
structure Permits (os : Os) (sdk : Sdk) (c : ServiceConfig) : Prop where
  opened : os.openInMemory = .ok ()
  accepted : accepts c.datasetId = true
  inserted : ∀ n < c.fileOffer.insertions, os.insert n = none
  publicListener : ∃ l, os.bind [] (anyAddress c.publicPort) = .ok l ∧
    (c.publicPort = 0 → ∃ port, l.localPort = .ok port)
  created : sdk.create c.controlPlane = .ok ()
  built : sdk.build = .ok ()
  signalingListener : ∃ l,
    os.bind [.bind (anyAddress c.publicPort)] (anyAddress c.signalingPort) = .ok l ∧
    (c.controlPlaneUrl.isSome → c.signalingPort = 0 → ∃ port, l.localPort = .ok port)

section
open Calls ServiceConfig
variable {ox : Sparql.Engine} {os : Os} {sdk : Sdk} {c : ServiceConfig}
  {calls calls' : List HostCall} {app : BoundApp}

/-- The calls of a startup that is not refused anything, the PUT apart. -/
def binds (c : ServiceConfig) : List HostCall :=
  [.bind (anyAddress c.publicPort), .bind (anyAddress c.signalingPort)]

/-- What is true of an application that was assembled. -/
structure Assembled (ox : Sparql.Engine) (os : Os) (sdk : Sdk) (c : ServiceConfig)
    (app : BoundApp) : Prop where
  opened : os.openInMemory = .ok ()
  inserted : ∀ n < c.fileOffer.insertions, os.insert n = none
  seeded : seedOffer ox noFaults .openInMemory c.fileOffer = (.ok (), app.state.graph)
  tokens : app.state.tokens = .empty
  publicListener : os.bind [] (anyAddress c.publicPort) = .ok app.publicListener
  handler : ∃ port, (c.publicPort = 0 → app.publicListener.localPort = .ok port) ∧
    app.handler = c.handler port
  created : sdk.create c.controlPlane = .ok ()
  built : sdk.build = .ok ()
  signalingListener : os.bind [.bind (anyAddress c.publicPort)] (anyAddress c.signalingPort) =
    .ok app.signalingListener
  participant : app.participant = ⟨c.participantContextId⟩
  controlPlane : app.controlPlane = c.controlPlane
  roundTrip : app.roundTrip = ((FileOfferConnector.mk app.state.graph).get (T := Unit) ox
    dataOfferKind c.datasetId).map (·.fields)

theorem exec_listen (os : Os) (address : String) (calls : List HostCall) :
    exec (listen os address) calls =
      ((os.bind calls address).mapError .io, calls ++ [.bind address]) :=
  (exec_bind_of_ok (exec_ask _ _) _).trans (exec_attempt _ _)

theorem exists_of_exec_listen {address : String} {l : Listener}
    (h : exec (listen os address) calls = (.ok l, calls')) :
    os.bind calls address = .ok l ∧ calls' = calls ++ [.bind address] := by
  obtain ⟨answer, middle, ha, h⟩ := exists_of_exec_bind h
  obtain ⟨he, rfl⟩ := Prod.mk.inj ha
  obtain ⟨rfl, rfl⟩ := exists_of_exec_attempt h
  exact ⟨Except.ok.inj he, rfl⟩

theorem exists_of_exec_publicBaseUrlOf {l : Listener} {url : String}
    (h : exec (c.publicBaseUrlOf l) calls = (.ok url, calls')) :
    calls' = calls ∧
      ∃ port, (c.publicPort = 0 → l.localPort = .ok port) ∧ url = c.baseUrl port := by
  rw [publicBaseUrlOf] at h
  split_ifs at h with hp
  · obtain ⟨port, _, hl, h₁⟩ := exists_of_exec_bind h
    obtain ⟨hport, rfl⟩ := exists_of_exec_attempt hl
    obtain ⟨rfl, hcalls⟩ := of_exec_pure h₁
    exact ⟨hcalls, port, fun _ => hport, by rw [Config.baseUrl, if_pos hp]⟩
  · obtain ⟨rfl, hcalls⟩ := of_exec_pure h
    exact ⟨hcalls, 0, fun h0 => absurd h0 hp, by rw [Config.baseUrl, if_neg hp]⟩

theorem assembled_of_exec (h : exec (c.assemble ox os sdk) [] = (.ok app, calls)) :
    Assembled ox os sdk c app ∧ calls = binds c := by
  rw [assemble] at h
  obtain ⟨_, _, ho, h₁⟩ := exists_of_exec_bind h
  obtain ⟨hopened, rfl⟩ := exists_of_exec_attempt ho
  rcases hseed : seedOffer ox os.insert .openInMemory c.fileOffer with ⟨seeded, graph⟩
  rw [hseed] at h₁
  obtain ⟨_, _, hs, h₂⟩ := exists_of_exec_bind h₁
  obtain ⟨rfl, rfl⟩ := exists_of_exec_attempt hs
  obtain ⟨publicListener, _, hl, h₃⟩ := exists_of_exec_bind h₂
  obtain ⟨hpublic, rfl⟩ := exists_of_exec_listen hl
  obtain ⟨publicBaseUrl, _, hu, h₄⟩ := exists_of_exec_bind h₃
  obtain ⟨rfl, port, hport, rfl⟩ := exists_of_exec_publicBaseUrlOf hu
  obtain ⟨_, _, hc, h₅⟩ := exists_of_exec_bind h₄
  obtain ⟨hcreated, rfl⟩ := exists_of_exec_attempt hc
  obtain ⟨_, _, hb, h₆⟩ := exists_of_exec_bind h₅
  obtain ⟨hbuilt, rfl⟩ := exists_of_exec_attempt hb
  obtain ⟨signalingListener, _, hl', h₇⟩ := exists_of_exec_bind h₆
  obtain ⟨hsignaling, rfl⟩ := exists_of_exec_listen hl'
  obtain ⟨rfl, hcalls⟩ := of_exec_pure h₇
  obtain ⟨hinserted, hseeded⟩ := none_of_seedOffer ox _ hseed
  exact ⟨⟨hopened, hinserted, hseeded, rfl, hpublic, ⟨port, hport, rfl⟩, hcreated, hbuilt,
    hsignaling, rfl, rfl, rfl⟩, hcalls⟩

theorem exec_publicBaseUrlOf (c : ServiceConfig) (l : Listener) (calls : List HostCall) :
    exec (c.publicBaseUrlOf l) calls =
      ((if c.publicPort = 0 then
        (l.localPort.mapError .io).map fun port => "http://localhost:" ++ port.toNat.repr
        else .ok c.publicBaseUrl), calls) := by
  rw [publicBaseUrlOf]
  split_ifs
  · cases l.localPort <;> rfl
  · rfl

/-- An application is assembled if everything is granted that it takes. -/
theorem exists_assemble (ox : Sparql.Engine) (h : Permits os sdk c) :
    ∃ app : BoundApp, exec (c.assemble ox os sdk) [] = (.ok app, binds c) := by
  obtain ⟨publicListener, hpublic, hport⟩ := h.publicListener
  obtain ⟨signalingListener, hsignaling, -⟩ := h.signalingListener
  have hurl : ∃ url, exec (c.publicBaseUrlOf publicListener) [.bind (anyAddress c.publicPort)] =
      (.ok url, [.bind (anyAddress c.publicPort)]) := by
    rw [exec_publicBaseUrlOf]
    split_ifs with h0
    · obtain ⟨port, hp⟩ := hport h0
      exact ⟨_, by rw [hp]; rfl⟩
    · exact ⟨_, rfl⟩
  obtain ⟨url, hurl⟩ := hurl
  have ha : accepts c.fileOffer.datasetId = true := h.accepted
  obtain ⟨graph, hseed⟩ : ∃ graph, seedOffer ox os.insert .openInMemory c.fileOffer =
      (.ok (), graph) := ⟨_, seedOffer_of_none ox .openInMemory ha h.inserted⟩
  have hlisten {l : Listener} {address : String} {calls : List HostCall}
      (hb : os.bind calls address = .ok l) :
      exec (listen os address) calls = (.ok l, calls ++ [.bind address]) := by
    rw [exec_listen, hb]
    rfl
  have hattempt {ε : Type} (wrap : ε → StartupError) {x : Except ε Unit} (hx : x = .ok ())
      (calls : List HostCall) : exec (attempt wrap x) calls = (.ok (), calls) := by
    rw [exec_attempt, hx]
    rfl
  rw [assemble, hseed]
  dsimp only
  rw [exec_bind_of_ok (hattempt _ h.opened _), exec_bind_of_ok (hattempt _ rfl _),
    exec_bind_of_ok (hlisten hpublic), List.nil_append, exec_bind_of_ok hurl,
    exec_bind_of_ok (hattempt _ h.created _), exec_bind_of_ok (hattempt _ h.built _),
    exec_bind_of_ok (hlisten hsignaling)]
  exact ⟨_, rfl⟩

theorem makes_listen (os : Os) (address : String) : Makes (listen os address) [.bind address] :=
  (makes_ask _ _).bind fun _ => makes_attempt _ _

theorem makes_publicBaseUrlOf (c : ServiceConfig) (l : Listener) :
    Makes (c.publicBaseUrlOf l) [] := by
  rw [publicBaseUrlOf]
  split_ifs
  · exact (makes_attempt _ _).bind fun _ => makes_pure _
  · exact makes_pure _

/-- The listeners are bound one after the other. -/
theorem makes_assemble (ox : Sparql.Engine) (os : Os) (sdk : Sdk) (c : ServiceConfig) :
    Makes (c.assemble ox os sdk) (binds c) :=
  (makes_attempt _ _).bind fun _ => (makes_attempt _ _).bind fun _ =>
    (makes_listen os _).bind fun publicListener =>
      (makes_publicBaseUrlOf c publicListener).bind fun _ => (makes_attempt _ _).bind fun _ =>
        (makes_attempt _ _).bind fun _ => (makes_listen os _).bind fun _ => makes_pure _

theorem exists_of_exec_signalingPortOf {l : Listener} {port : UInt16}
    (h : exec (c.signalingPortOf l) calls = (.ok port, calls')) :
    calls' = calls ∧ (c.signalingPort = 0 → l.localPort = .ok port) := by
  rw [signalingPortOf] at h
  split_ifs at h with hp
  · obtain ⟨hport, rfl⟩ := exists_of_exec_attempt h
    exact ⟨rfl, fun _ => hport⟩
  · obtain ⟨-, rfl⟩ := of_exec_pure h
    exact ⟨rfl, fun h0 => absurd h0 hp⟩

/-- The registration is the last thing that is done, and only if there is a control plane. -/
theorem of_exec_selfRegister {l : Listener}
    {registration : Option (PutRequest × Except RegistrationError Unit)}
    (h : exec (c.selfRegister os l) calls = (.ok registration, calls')) :
    calls' = calls ++ (registration.map fun put => HostCall.put put.1).toList ∧
      ∃ port, (c.controlPlaneUrl.isSome → c.signalingPort = 0 → l.localPort = .ok port) ∧
        registration = c.controlPlaneUrl.map fun url =>
          (⟨registrationUrl url c.participantContextId, (c.registration port).json⟩,
            registerWithControlPlane (os.send calls) url c.participantContextId
              (c.registration port)) := by
  rw [selfRegister.eq_def] at h
  cases hu : c.controlPlaneUrl with
  | none =>
    rw [hu] at h
    obtain ⟨rfl, rfl⟩ := of_exec_pure h
    exact ⟨(List.append_nil _).symm, 0, fun hs => absurd hs Bool.false_ne_true, rfl⟩
  | some url =>
    rw [hu] at h
    obtain ⟨port, _, hp, h₁⟩ := exists_of_exec_bind h
    obtain ⟨rfl, hport⟩ := exists_of_exec_signalingPortOf hp
    obtain ⟨outcome, _, ho, h₂⟩ := exists_of_exec_bind h₁
    obtain ⟨hout, rfl⟩ := Prod.mk.inj ho
    obtain ⟨rfl, rfl⟩ := of_exec_pure h₂
    exact ⟨rfl, port, fun _ => hport, by rw [← Except.ok.inj hout]; rfl⟩

theorem calls_of_selfRegister_error {l : Listener} {e : StartupError}
    (h : exec (c.selfRegister os l) calls = (.error e, calls')) : calls' = calls := by
  rw [selfRegister.eq_def] at h
  cases hu : c.controlPlaneUrl with
  | none =>
    rw [hu] at h
    cases congrArg Prod.fst h
  | some url =>
    rw [hu] at h
    rcases cases_of_exec_bind h with hp | ⟨port, _, hp, h₁⟩
    · -- the port was not known
      rw [signalingPortOf] at hp
      split_ifs at hp
      · rw [exec_attempt] at hp
        exact (congrArg Prod.snd hp).symm
      · cases congrArg Prod.fst hp
    · rcases cases_of_exec_bind h₁ with ho | ⟨outcome, _, ho, h₂⟩
      · cases congrArg Prod.fst ho
      · cases congrArg Prod.fst h₂

/-- A startup that fails has not sent a registration. -/
theorem calls_of_startup_error {e : StartupError}
    (h : exec (c.startup ox os sdk) [] = (.error e, calls)) : calls <+: binds c := by
  rcases cases_of_exec_bind h with ha | ⟨app, _, ha, h₁⟩
  · obtain ⟨made, rfl, hmade⟩ := (makes_assemble ox os sdk c).prefix_of_error ha
    exact hmade
  · obtain ⟨-, rfl⟩ := assembled_of_exec ha
    rcases cases_of_exec_bind h₁ with hr | ⟨registration, _, hr, h₂⟩
    · rw [calls_of_selfRegister_error hr]
    · cases congrArg Prod.fst h₂

theorem startup_ok (h : exec (c.startup ox os sdk) [] = (.ok app, calls)) :
    Assembled ox os sdk c app ∧
      calls = binds c ++ (app.registration.map fun put => HostCall.put put.1).toList ∧
      ∃ port, (c.controlPlaneUrl.isSome → c.signalingPort = 0 →
          app.signalingListener.localPort = .ok port) ∧
        app.registration = c.controlPlaneUrl.map fun url =>
          (⟨registrationUrl url c.participantContextId, (c.registration port).json⟩,
            registerWithControlPlane (os.send (binds c)) url c.participantContextId
              (c.registration port)) := by
  obtain ⟨app', _, ha, h₁⟩ := exists_of_exec_bind h
  obtain ⟨hassembled, rfl⟩ := assembled_of_exec ha
  obtain ⟨registration, _, hr, h₂⟩ := exists_of_exec_bind h₁
  obtain ⟨hcalls, port, hport, hreg⟩ := of_exec_selfRegister hr
  obtain ⟨rfl, rfl⟩ := of_exec_pure h₂
  exact ⟨⟨hassembled.opened, hassembled.inserted, hassembled.seeded, hassembled.tokens,
    hassembled.publicListener, hassembled.handler, hassembled.created, hassembled.built,
    hassembled.signalingListener, hassembled.participant, hassembled.controlPlane,
    hassembled.roundTrip⟩, hcalls, port, hport, hreg⟩

variable (os) in
theorem exists_selfRegister {l : Listener}
    (h : c.controlPlaneUrl.isSome → c.signalingPort = 0 → ∃ port, l.localPort = .ok port)
    (calls : List HostCall) :
    ∃ registration calls', exec (c.selfRegister os l) calls = (.ok registration, calls') := by
  rw [selfRegister.eq_def]
  cases hu : c.controlPlaneUrl with
  | none => exact ⟨none, calls, rfl⟩
  | some url =>
    have hport : ∃ port, exec (c.signalingPortOf l) calls = (.ok port, calls) := by
      rw [signalingPortOf]
      split_ifs with h0
      · obtain ⟨port, hp⟩ := h (by rw [hu]; rfl) h0
        exact ⟨port, by rw [exec_attempt, hp]; rfl⟩
      · exact ⟨_, exec_pure _⟩
    obtain ⟨port, hp⟩ := hport
    dsimp only
    rw [exec_bind_of_ok hp]
    exact ⟨_, _, rfl⟩

/-- The application is the one of the smaller `build`. -/
theorem Assembled.build_eq (ha : Assembled ox os sdk c app) (port : UInt16) :
    DsSqlDps.build ox c.toConfig port = .ok (c.handler port, app.state) := by
  rw [DsSqlDps.build, ha.seeded, ← ha.tokens]

variable (ox) in
/-- The startup succeeds exactly if it is granted what it asks for. The registration is no part of
that. -/
theorem exists_startup_iff :
    (∃ app, (exec (c.startup ox os sdk) []).1 = .ok app) ↔ Permits os sdk c := by
  constructor
  · rintro ⟨app, h⟩
    obtain ⟨ha, -, port, hport, -⟩ := startup_ok (Prod.ext h rfl)
    obtain ⟨publicPort, hpublic, -⟩ := ha.handler
    exact ⟨ha.opened, accepts_of_build (ha.build_eq publicPort), ha.inserted,
      ⟨_, ha.publicListener, fun h0 => ⟨_, hpublic h0⟩⟩, ha.created, ha.built,
      ⟨_, ha.signalingListener, fun hu h0 => ⟨_, hport hu h0⟩⟩⟩
  · intro h
    obtain ⟨app, ha⟩ := exists_assemble ox h
    obtain ⟨signalingListener, hsignaling, hport⟩ := h.signalingListener
    have hl : app.signalingListener = signalingListener := by
      rw [(assembled_of_exec ha).1.signalingListener] at hsignaling
      exact Except.ok.inj hsignaling
    rw [← hl] at hport
    obtain ⟨registration, calls', hr⟩ := exists_selfRegister os hport (binds c)
    rw [startup, exec_bind_of_ok ha, exec_bind_of_ok hr]
    exact ⟨_, rfl⟩

/-- The application without the answer to its registration. -/
def BoundApp.unanswered (app : BoundApp) : BoundApp × Option PutRequest :=
  ({ app with registration := none }, app.registration.map Prod.fst)

/-- How the registration is answered makes no difference to the rest. -/
theorem startup_send (ox : Sparql.Engine) (os : Os) (sdk : Sdk) (c : ServiceConfig)
    (send : List HostCall → PutRequest → Except String HttpResponse) :
    ((exec (c.startup ox { os with send := send } sdk) []).1.map BoundApp.unanswered,
        (exec (c.startup ox { os with send := send } sdk) []).2) =
      ((exec (c.startup ox os sdk) []).1.map BoundApp.unanswered,
        (exec (c.startup ox os sdk) []).2) := by
  have ha : c.assemble ox { os with send := send } sdk = c.assemble ox os sdk := rfl
  rw [startup, startup, ha, exec_bind, exec_bind]
  rcases exec (c.assemble ox os sdk) [] with ⟨e | app, calls⟩
  · rfl
  · dsimp only
    rw [selfRegister.eq_def, selfRegister.eq_def, signalingPortOf]
    cases c.controlPlaneUrl with
    | none => rfl
    | some url =>
      split_ifs
      · cases app.signalingListener.localPort <;> rfl
      · rfl

/-- The round trip of a startup shows the configured offer. -/
theorem Assembled.roundTrip_eq (ha : Assembled ox os sdk c app) : app.roundTrip =
    .ok (FileOfferConnector.fields c.filePath c.mediaType c.fileOffer.document) := by
  obtain ⟨doc, hg, hf⟩ := get_of_seedRun (T := Unit)
    (seedRun_of_build (ha.build_eq 0)) fun o ho => absurd ho List.not_mem_nil
  rw [ha.roundTrip, hg, ← hf]
  rfl

/-- A startup succeeds exactly if what it asks for is granted; it then is the service of the smaller
`build` on the ports of its listeners. The registration comes last and at most once, never in a
startup that fails, and its answer changes nothing else. -/
theorem startup_outcome (ox : Sparql.Engine) (os : Os) (sdk : Sdk) (c : ServiceConfig) :
    ((∃ app, (exec (c.startup ox os sdk) []).1 = .ok app) ↔ Permits os sdk c) ∧
    (∀ e calls, exec (c.startup ox os sdk) [] = (.error e, calls) → calls <+: binds c) ∧
    (∀ app calls, exec (c.startup ox os sdk) [] = (.ok app, calls) →
      calls = binds c ++ (app.registration.map fun put => HostCall.put put.1).toList ∧
      app.roundTrip =
        .ok (FileOfferConnector.fields c.filePath c.mediaType c.fileOffer.document) ∧
      ∃ publicPort signalingPort,
        (c.publicPort = 0 → app.publicListener.localPort = .ok publicPort) ∧
        (c.controlPlaneUrl.isSome → c.signalingPort = 0 →
          app.signalingListener.localPort = .ok signalingPort) ∧
        c.build ox (os.send (binds c)) publicPort signalingPort = .ok app.toApp) ∧
    ∀ send, (exec (c.startup ox { os with send := send } sdk) []).1.map BoundApp.unanswered =
        (exec (c.startup ox os sdk) []).1.map BoundApp.unanswered ∧
      (exec (c.startup ox { os with send := send } sdk) []).2 =
        (exec (c.startup ox os sdk) []).2 := by
  refine ⟨exists_startup_iff ox, fun e calls => calls_of_startup_error, fun app calls h => ?_,
    fun send => Prod.mk.inj (startup_send ox os sdk c send)⟩
  obtain ⟨ha, hcalls, signalingPort, hsignaling, hregistration⟩ := startup_ok h
  obtain ⟨publicPort, hpublic, hhandler⟩ := ha.handler
  refine ⟨hcalls, ha.roundTrip_eq, publicPort, signalingPort, hpublic, hsignaling, ?_⟩
  rw [ServiceConfig.build, ha.build_eq publicPort, ← hhandler]
  refine congrArg Except.ok ?_
  rw [← hregistration, ← ha.participant]

end

end DsSqlDps
