import DsSqlDps.Dataplane.Signaling
import DsSqlDps.Dataplane.Startup

/-!
# The process

`main`, from the environment to the answers of the service. What a process serves is what its
environment says, and the addresses it hands out are those of its public listener.
-/

namespace DsSqlDps
open Sparql

/-- What ends a process before it serves. -/
inductive Stop
  | panic (message : String)
  | failed (e : StartupError)

namespace Process

/-- `main` until it serves; the ports that it displays have to be known. -/
def main (ox : Engine) (os : Os) (sdk : Sdk) (env : Environment) :
    Except Stop BoundApp × List HostCall :=
  match ServiceConfig.fromEnv env with
  | .error message => (.error (.panic message), [])
  | .ok c =>
    match Calls.exec (c.startup ox os sdk) [] with
    | (.error e, calls) => (.error (.failed e), calls)
    | (.ok app, calls) =>
      match app.signalingListener.localPort with
      | .error e => (.error (.failed (.io e)), calls)
      | .ok _ =>
        match app.publicListener.localPort with
        | .error e => (.error (.failed (.io e)), calls)
        | .ok _ => (.ok app, calls)

end Process

/-- A listener for a port other than `0` is bound to that port. -/
def Os.Honest (os : Os) : Prop :=
  ∀ calls port listener, os.bind calls (anyAddress port) = .ok listener → port ≠ 0 →
    ∀ assigned, listener.localPort = .ok assigned → assigned = port

section
variable {ox : Engine} {uuid : ℕ → String} {pe : PolicyEngine} {os : Os} {sdk : Sdk}
  {env : Environment} {app : BoundApp} {calls : List HostCall} {c : ServiceConfig} {port : UInt16}

/-- A process that serves has read its configuration, was not refused anything, and knows its
ports. -/
theorem main_eq_ok_iff : Process.main ox os sdk env = (.ok app, calls) ↔
    ∃ c signalingPort port, ServiceConfig.fromEnv env = .ok c ∧
      Calls.exec (c.startup ox os sdk) [] = (.ok app, calls) ∧
      app.signalingListener.localPort = .ok signalingPort ∧
      app.publicListener.localPort = .ok port := by
  rw [Process.main]
  constructor
  · intro h
    cases hc : ServiceConfig.fromEnv env with
    | error message =>
      rw [hc] at h
      cases congrArg Prod.fst h
    | ok c =>
      rw [hc] at h
      dsimp only at h
      rcases hs : Calls.exec (c.startup ox os sdk) [] with ⟨e | app', calls'⟩
      · rw [hs] at h
        cases congrArg Prod.fst h
      · rw [hs] at h
        dsimp only at h
        cases hl : app'.signalingListener.localPort with
        | error e =>
          rw [hl] at h
          cases congrArg Prod.fst h
        | ok signalingPort =>
          rw [hl] at h
          dsimp only at h
          cases hp : app'.publicListener.localPort with
          | error e =>
            rw [hp] at h
            cases congrArg Prod.fst h
          | ok port =>
            rw [hp] at h
            obtain ⟨ha, rfl⟩ := Prod.mk.inj h
            obtain rfl := Except.ok.inj ha
            exact ⟨c, signalingPort, port, rfl, hs, hl, hp⟩
  · rintro ⟨c, signalingPort, port, hc, hs, hl, hp⟩
    rw [hc]
    dsimp only
    rw [hs]
    dsimp only
    rw [hl]
    dsimp only
    rw [hp]

/-- The handler of an assembled application is that for the port of its public listener. -/
theorem Assembled.handler_eq (ha : Assembled ox os sdk c app)
    (hp : app.publicListener.localPort = .ok port) : app.handler = c.handler port := by
  obtain ⟨port', hport, hh⟩ := ha.handler
  rw [hh]
  by_cases h0 : c.publicPort = 0
  · have he := hport h0
    rw [hp] at he
    rw [Except.ok.inj he]
  · rw [Config.handler, Config.handler, Config.baseUrl, Config.baseUrl, if_neg h0, if_neg h0]

/-- A process that serves was built from the configuration of its environment. -/
theorem build_of_main (h : Process.main ox os sdk env = (.ok app, calls)) :
    ∃ c port, ServiceConfig.fromEnv env = .ok c ∧ Assembled ox os sdk c app ∧
      app.publicListener.localPort = .ok port ∧ app.handler = c.handler port ∧
      build ox c.toConfig port = .ok (app.handler, app.state) := by
  obtain ⟨c, -, port, hc, hs, -, hp⟩ := main_eq_ok_iff.mp h
  obtain ⟨ha, -, -⟩ := startup_ok hs
  have hh := ha.handler_eq hp
  exact ⟨c, port, hc, ha, hp, hh, hh ▸ ha.build_eq port⟩

/-- Unless another base URL is set, the addresses are those of the public listener. -/
theorem baseUrl_of_fromEnv (hc : ServiceConfig.fromEnv env = .ok c)
    (ha : Assembled ox os sdk c app) (hp : app.publicListener.localPort = .ok port)
    (ho : os.Honest) (hu : env.var "PUBLIC_BASE_URL" = none ∨ c.publicPort = 0) :
    c.baseUrl port = "http://localhost:" ++ port.toNat.repr := by
  rw [Config.baseUrl]
  split_ifs with h0
  · rfl
  · obtain ⟨publicPort, signalingPort, -, -, rfl⟩ := fromEnv_eq_ok_iff.mp hc
    rw [ho _ _ _ ha.publicListener h0 _ hp]
    show (env.var "PUBLIC_BASE_URL").getD _ = _
    rw [hu.resolve_right h0]
    rfl

/-- An answer that starts a flow was given to a START, and carries the endpoint of its dataset. -/
theorem exists_start_of_mem_outputs {h : FileOfferHandler} {s : ServiceState}
    {signals : List Signal} {m : DataFlowStatusMessage}
    (hm : SignalAnswer.answered (.started (.ok m)) ∈
      Machine.outputs (signal ox uuid pe h) s signals) :
    ∃ flow, Signal.request (.start flow) ∈ signals ∧ m.dataFlowId = flow.id ∧
      m.dataAddress.endpoint = h.endpoint flow.datasetId := by
  obtain ⟨t, sig, hsig, he⟩ := Machine.exists_of_mem_outputs hm
  cases sig with
  | request command =>
    cases command with
    | start flow =>
      have hr : (h.onStart ox uuid noFaults t flow).1 = .ok m :=
        Answer.started.inj (SignalAnswer.answered.inj he)
      rw [(onStart_ok (Prod.ext hr rfl)).1]
      exact ⟨flow, hsig, rfl, rfl⟩
    | terminate flow => cases he
    | get host d token => cases he
  | canHandle | prepare | started | suspend => cases he

end

/-- A process serves what its environment says: among all the signals that it gets, it answers the
requests as the reference does for the configuration that is read, with the files of its path, as
long as no insertion fails. Unless another base URL is set, the addresses it hands out are those of
its public listener; they name a dataset whose id is a segment of a path by itself and has no
percent-encoded octet. -/
theorem process_answers (ox : Engine) (uuid : ℕ → String) (pe : PolicyEngine) {os : Os} {sdk : Sdk}
    {env : Environment} {app : BoundApp} {calls : List HostCall}
    (hm : Process.main ox os sdk env = (.ok app, calls)) {signals : List Signal}
    (hc : ∀ command, Signal.request command ∈ signals → command.Named) :
    ∃ c port, ServiceConfig.fromEnv env = .ok c ∧ app.publicListener.localPort = .ok port ∧
      build ox c.toConfig port = .ok (app.handler, app.state) ∧
      (Machine.outputs (signal ox uuid pe app.handler) app.state signals).filterMap
          SignalAnswer.answer =
        Machine.outputs (Reference.serve uuid pe c.toConfig port) (.initial c.toConfig)
          (signals.filterMap Signal.command) ∧
      Reference.servedPath c.toConfig = c.filePath ∧
      (os.Honest → env.var "PUBLIC_BASE_URL" = none ∨ c.publicPort = 0 →
        ∀ m, SignalAnswer.answered (.started (.ok m)) ∈
            Machine.outputs (signal ox uuid pe app.handler) app.state signals →
          ∃ flow, Signal.request (.start flow) ∈ signals ∧ m.dataFlowId = flow.id ∧
            m.dataAddress.endpoint =
              "http://localhost:" ++ port.toNat.repr ++ "/public/" ++ flow.datasetId ∧
            (datasetIdOf m.dataAddress.endpoint = some flow.datasetId ↔
              Addressable flow.datasetId)) := by
  obtain ⟨c, port, henv, ha, hp, hh, hb⟩ := build_of_main hm
  refine ⟨c, port, henv, hp, hb, signals_answered ox uuid pe hb hc,
    Reference.servedPath_eq (isUtf8_of_fromEnv henv), ?_⟩
  intro ho hu m hmem
  obtain ⟨flow, hflow, hid, he⟩ := exists_start_of_mem_outputs hmem
  have hbase := baseUrl_of_fromEnv henv ha hp ho hu
  have horigin : app.handler.publicBaseUrl.toList = (localOrigin port).text := by
    rw [hh, ← toList_localUrl]
    exact congrArg String.toList hbase
  refine ⟨flow, hflow, hid, ?_, ?_⟩
  · rw [he, ← hbase, hh]
    rfl
  · rw [he, datasetIdOf_endpoint_iff (localOrigin port) horigin]
    exact verbatim_iff_of_accepts (hc _ hflow) _

/-- An environment that sets the mode only. -/
def tckVariables : Environment
  | "TCK_MODE" => some (.ofString "True")
  | _ => none

/-- The port that a host assigns for `0`. -/
def assignedFor (port : UInt16) : UInt16 := if port = 0 then 49152 else port

/-- A host that binds every port. -/
def sampleOs : Os where
  openInMemory := .ok ()
  insert := noFaults
  bind _ address :=
    match Decimal.parse 65535 (address.toList.drop 8) with
    | .ok n => .ok ⟨.ok (assignedFor (UInt16.ofNat n))⟩
    | .error _ => .error "invalid socket address"
  send _ _ := .error "connection refused"

def sampleSdk : Sdk := ⟨fun _ => .ok (), .ok ()⟩

theorem sampleOs_bind (calls : List HostCall) (port : UInt16) :
    sampleOs.bind calls (anyAddress port) = .ok ⟨.ok (assignedFor port)⟩ := by
  have hle : port.toNat ≤ 65535 := Nat.le_of_lt_succ port.toNat_lt
  have hd : (anyAddress port).toList.drop 8 = port.toNat.repr.toList := by
    rw [anyAddress, String.toList_append]
    rewrite [toList_literal (s := "0.0.0.0:") rfl]
    rfl
  show (match Decimal.parse 65535 ((anyAddress port).toList.drop 8) with
    | .ok n => Except.ok (Listener.mk (.ok (assignedFor (UInt16.ofNat n))))
    | .error _ => .error "invalid socket address") = _
  rw [hd, Decimal.parse_repr hle]
  dsimp only
  rw [UInt16.ofNat_toNat]

theorem honest_sampleOs : sampleOs.Honest := by
  intro calls port listener hb hport assigned ha
  rw [sampleOs_bind, assignedFor, if_neg hport] at hb
  rw [← Except.ok.inj hb] at ha
  exact (Except.ok.inj ha).symm

theorem fromEnv_tckVariables :
    ServiceConfig.fromEnv tckVariables = .ok (tckVariables.config 9192 9191) :=
  fromEnv_eq_ok_iff.mpr ⟨9192, 9191, expectPort_repr _ 9192, expectPort_repr _ 9191, rfl⟩

theorem exists_main (ox : Engine) {env : Environment} {c : ServiceConfig}
    (hc : ServiceConfig.fromEnv env = .ok c) (ha : accepts c.datasetId = true) :
    ∃ app calls, Process.main ox sampleOs sampleSdk env = (.ok app, calls) := by
  have hp : Permits sampleOs sampleSdk c := {
    opened := rfl
    accepted := ha
    inserted := fun _ _ => rfl
    publicListener := ⟨_, sampleOs_bind _ _, fun _ => ⟨_, rfl⟩⟩
    created := rfl
    built := rfl
    signalingListener := ⟨_, sampleOs_bind _ _, fun _ _ => ⟨_, rfl⟩⟩ }
  obtain ⟨app, happ⟩ := (exists_startup_iff ox).mpr hp
  have hs := (startup_ok (Prod.ext happ rfl)).1
  have hpublic := hs.publicListener
  have hsignaling := hs.signalingListener
  rw [sampleOs_bind] at hpublic hsignaling
  exact ⟨app, _, main_eq_ok_iff.mpr ⟨c, _, _, hc, Prod.ext happ rfl,
    by rw [← Except.ok.inj hsignaling], by rw [← Except.ok.inj hpublic]⟩⟩

/-- A START, a SUSPEND that is refused, and a GET. -/
def sampleSignals : List Signal := [
  .request (.start ⟨"flow", "primary"⟩),
  .suspend ⟨"flow", "primary"⟩,
  .request (.get sampleHost "primary" "0")]

theorem process_answers_sample : ∃ app calls,
    Process.main plainEngine sampleOs sampleSdk tckVariables = (.ok app, calls) ∧
    ∃ c port, ServiceConfig.fromEnv tckVariables = .ok c ∧
      app.publicListener.localPort = .ok port ∧
      build plainEngine c.toConfig port = .ok (app.handler, app.state) ∧
      (Machine.outputs (signal plainEngine Nat.repr permissionEngine app.handler) app.state
          sampleSignals).filterMap SignalAnswer.answer =
        Machine.outputs (Reference.serve Nat.repr permissionEngine c.toConfig port)
          (.initial c.toConfig) (sampleSignals.filterMap Signal.command) ∧
      Reference.servedPath c.toConfig = c.filePath ∧
      ∀ m, SignalAnswer.answered (.started (.ok m)) ∈ Machine.outputs
          (signal plainEngine Nat.repr permissionEngine app.handler) app.state sampleSignals →
        ∃ flow, Signal.request (.start flow) ∈ sampleSignals ∧ m.dataFlowId = flow.id ∧
          m.dataAddress.endpoint =
            "http://localhost:" ++ port.toNat.repr ++ "/public/" ++ flow.datasetId ∧
          (datasetIdOf m.dataAddress.endpoint = some flow.datasetId ↔
            Addressable flow.datasetId) := by
  obtain ⟨app, calls, hm⟩ := exists_main plainEngine fromEnv_tckVariables accepts_primary
  have hc : ∀ command, Signal.request command ∈ sampleSignals → command.Named := by
    unfold sampleSignals
    simp [Command.Named, accepts_primary]
  obtain ⟨c, port, henv, hp, hb, hout, hpath, haddress⟩ :=
    process_answers plainEngine Nat.repr permissionEngine hm hc
  exact ⟨app, calls, hm, c, port, henv, hp, hb, hout, hpath, haddress honest_sampleOs (Or.inl rfl)⟩

end DsSqlDps
