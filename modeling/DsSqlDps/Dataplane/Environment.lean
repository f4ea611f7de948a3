import DsSqlDps.Dataplane.Registration
import DsSqlDps.Lib.Decimal

/-!
# The environment

The configuration as it is read from environment variables. A variable that is no UTF-8 counts as
one that is not set, and the ports are the only variables whose text can be refused.
-/

namespace DsSqlDps

/-! ## Text of operating system strings -/

def PathUnit.toChar : PathUnit → Option Char
  | .char c => some c
  | .invalid _ => none

/-- The text of an operating system string that is UTF-8. -/
def PathBuf.toStr (p : PathBuf) : Option String :=
  (p.units.mapM PathUnit.toChar).map String.ofList

theorem PathUnit.toChar_eq_some_iff {u : PathUnit} {c : Char} :
    u.toChar = some c ↔ u = .char c := by
  cases u <;> simp [toChar]

theorem mapM_toChar {units : List PathUnit} {cs : List Char} :
    units.mapM PathUnit.toChar = some cs ↔ units = cs.map .char := by
  induction units generalizing cs with
  | nil => cases cs <;> simp
  | cons u units ih =>
    simp only [List.mapM_cons, Option.bind_eq_bind, Option.bind_eq_some_iff, Option.pure_def,
      Option.some.injEq, PathUnit.toChar_eq_some_iff, ih]
    cases cs with
    | nil => simp
    | cons c cs => simp

theorem PathBuf.toStr_eq_some_iff {p : PathBuf} {s : String} :
    p.toStr = some s ↔ p = .ofString s := by
  obtain ⟨units⟩ := p
  rw [toStr, Option.map_eq_some_iff, ofString, PathBuf.mk.injEq]
  constructor
  · rintro ⟨cs, hcs, rfl⟩
    rw [String.toList_ofList]
    exact mapM_toChar.mp hcs
  · intro h
    exact ⟨s.toList, mapM_toChar.mpr h, String.ofList_toList⟩

@[simp] theorem PathBuf.toStr_ofString (s : String) : (PathBuf.ofString s).toStr = some s :=
  toStr_eq_some_iff.mpr rfl

/-! ## The variables -/

/-- The variables that are set; their values are operating system strings, as paths are. -/
abbrev Environment := String → Option PathBuf

/-- `eq_ignore_ascii_case` -/
def eqIgnoreAsciiCase (s t : String) : Bool :=
  s.toList.map Char.toLower = t.toList.map Char.toLower

def intErrorDebug : Decimal.IntErrorKind → String
  | .empty => "Empty"
  | .invalidDigit => "InvalidDigit"
  | .posOverflow => "PosOverflow"

/-- A text that is parsed as a port; else the message of the panic. -/
def expectPort (key text : String) : Except String UInt16 :=
  match Decimal.parse 65535 text.toList with
  | .ok n => .ok (UInt16.ofNat n)
  | .error e =>
    .error (key ++ " must be a u16" ++ ": ParseIntError \x7b kind: " ++ intErrorDebug e ++ " \x7d")

namespace Environment
variable (env : Environment)

/-- `std::env::var`, which fails for a variable that is no UTF-8. -/
def var (key : String) : Option String := (env key).bind PathBuf.toStr

def envOr (key default : String) : String := (env.var key).getD default

/-- The fields that are read once the ports are known. -/
def config (publicPort signalingPort : UInt16) : ServiceConfig where
  datasetId := env.envOr "DATASET_ID" "primary"
  filePath := .ofString (env.envOr "FILE_PATH" "sample-data/sample.csv")
  mediaType := env.envOr "MEDIA_TYPE" "text/csv"
  assigner := env.envOr "ASSIGNER" "ds-sql-dps-rs"
  policyNotAfter := env.var "POLICY_NOT_AFTER"
  signalingPort := signalingPort
  publicPort := publicPort
  publicBaseUrl :=
    (env.var "PUBLIC_BASE_URL").getD ("http://localhost:" ++ publicPort.toNat.repr)
  participantContextId := env.envOr "PARTICIPANT_CONTEXT_ID" "ds-sql-dps-rs"
  dataplaneId := env.envOr "DATAPLANE_ID" "ds-sql-dps-rs-dataplane"
  controlPlaneUrl := env.var "CONTROL_PLANE_URL"
  tckMode := (env.var "TCK_MODE").any fun v => v == "1" || eqIgnoreAsciiCase v "true"

/-- The variables that `from_env` looks at. -/
def names : List String := [
  "DATASET_ID", "FILE_PATH", "MEDIA_TYPE", "ASSIGNER", "POLICY_NOT_AFTER", "SIGNALING_PORT",
  "PUBLIC_PORT", "PUBLIC_BASE_URL", "PARTICIPANT_CONTEXT_ID", "DATAPLANE_ID", "CONTROL_PLANE_URL",
  "TCK_MODE"]

def portNames : List String := ["PUBLIC_PORT", "SIGNALING_PORT"]

end Environment

namespace ServiceConfig

/-- The configuration, or the message of the panic. -/
def fromEnv (env : Environment) : Except String ServiceConfig := do
  let publicPort ← expectPort "PUBLIC_PORT" (env.envOr "PUBLIC_PORT" "9192")
  let signalingPort ← expectPort "SIGNALING_PORT" (env.envOr "SIGNALING_PORT" "9191")
  .ok (env.config publicPort signalingPort)

/-- The variables that spell a configuration. -/
def environment (c : ServiceConfig) : Environment
  | "DATASET_ID" => some (.ofString c.datasetId)
  | "FILE_PATH" => some c.filePath
  | "MEDIA_TYPE" => some (.ofString c.mediaType)
  | "ASSIGNER" => some (.ofString c.assigner)
  | "POLICY_NOT_AFTER" => c.policyNotAfter.map .ofString
  | "SIGNALING_PORT" => some (.ofString c.signalingPort.toNat.repr)
  | "PUBLIC_PORT" => some (.ofString c.publicPort.toNat.repr)
  | "PUBLIC_BASE_URL" => some (.ofString c.publicBaseUrl)
  | "PARTICIPANT_CONTEXT_ID" => some (.ofString c.participantContextId)
  | "DATAPLANE_ID" => some (.ofString c.dataplaneId)
  | "CONTROL_PLANE_URL" => c.controlPlaneUrl.map .ofString
  | "TCK_MODE" => some (.ofString (if c.tckMode then "1" else "0"))
  | _ => none

end ServiceConfig

/-! ## Ports -/

/-- A text for a port. -/
def IsPort (text : String) : Prop := ∃ n, Decimal.Spells 65535 text.toList n

theorem expectPort_repr (key : String) (port : UInt16) :
    expectPort key port.toNat.repr = .ok port := by
  have hle : port.toNat ≤ 65535 := Nat.le_of_lt_succ port.toNat_lt
  rw [expectPort, Decimal.parse_repr hle]
  exact congrArg Except.ok (UInt16.ofNat_toNat)

theorem exists_expectPort_iff (key : String) {text : String} :
    (∃ port, expectPort key text = .ok port) ↔ IsPort text := by
  rw [expectPort, IsPort]
  cases hp : Decimal.parse 65535 text.toList with
  | ok n => exact iff_of_true ⟨_, rfl⟩ ⟨n, Decimal.parse_eq_ok_iff.mp hp⟩
  | error e =>
    refine iff_of_false ?_ ?_
    · rintro ⟨port, h⟩
      cases h
    · rintro ⟨n, hn⟩
      rw [Decimal.parse_eq_ok_iff.mpr hn] at hp
      cases hp

/-- A panic names the variable, and its text is no port. -/
theorem of_expectPort_eq_error {key text message : String}
    (h : expectPort key text = .error message) :
    ¬ IsPort text ∧ (key ++ " must be a u16").toList <+: message.toList := by
  constructor
  · rintro hp
    obtain ⟨port, hport⟩ := (exists_expectPort_iff key).mpr hp
    rw [h] at hport
    cases hport
  · rw [expectPort] at h
    cases hp : Decimal.parse 65535 text.toList with
    | ok n =>
      rw [hp] at h
      cases h
    | error e =>
      rw [hp] at h
      obtain rfl := Except.error.inj h
      simp only [String.toList_append, List.append_assoc]
      exact ⟨_, by simp only [List.append_assoc]; rfl⟩

/-! ## The round trip -/

section
variable {env env' : Environment} {c : ServiceConfig}

theorem fromEnv_eq_ok_iff : ServiceConfig.fromEnv env = .ok c ↔
    ∃ publicPort signalingPort,
      expectPort "PUBLIC_PORT" (env.envOr "PUBLIC_PORT" "9192") = .ok publicPort ∧
      expectPort "SIGNALING_PORT" (env.envOr "SIGNALING_PORT" "9191") = .ok signalingPort ∧
      c = env.config publicPort signalingPort := by
  constructor
  · intro h
    obtain ⟨publicPort, hp, h⟩ := exists_of_bind h
    obtain ⟨signalingPort, hs, h⟩ := exists_of_bind h
    exact ⟨publicPort, signalingPort, hp, hs, (Except.ok.inj h).symm⟩
  · rintro ⟨publicPort, signalingPort, hp, hs, rfl⟩
    rw [ServiceConfig.fromEnv, hp, hs]
    rfl

/-- A path that is read from the environment is UTF-8. -/
theorem isUtf8_of_fromEnv (h : ServiceConfig.fromEnv env = .ok c) : c.filePath.IsUtf8 := by
  obtain ⟨publicPort, signalingPort, -, -, rfl⟩ := fromEnv_eq_ok_iff.mp h
  exact ⟨_, rfl⟩

theorem var_ofString (key : String) {s : String} (h : env key = some (.ofString s)) :
    env.var key = some s := by
  rw [Environment.var, h, Option.bind_some, PathBuf.toStr_ofString]

theorem var_map_ofString (key : String) {o : Option String}
    (h : env key = o.map PathBuf.ofString) : env.var key = o := by
  cases o with
  | none => rw [Environment.var, h, Option.map_none, Option.bind_none]
  | some s => exact var_ofString key h

theorem envOr_ofString (key : String) {s : String} (h : env key = some (.ofString s))
    (default : String) : env.envOr key default = s := by
  rw [Environment.envOr, var_ofString key h, Option.getD_some]

/-- The variables that spell a configuration are read back as it. -/
theorem fromEnv_environment (h : c.filePath.IsUtf8) :
    ServiceConfig.fromEnv c.environment = .ok c := by
  obtain ⟨path, hpath⟩ := h
  have hfile : c.environment "FILE_PATH" = some (.ofString path) := by
    rw [← hpath]
    rfl
  have hmode : ((c.environment.var "TCK_MODE").any
      fun v => v == "1" || eqIgnoreAsciiCase v "true") = c.tckMode := by
    have hv : c.environment.var "TCK_MODE" = some (if c.tckMode then "1" else "0") :=
      var_ofString "TCK_MODE" rfl
    rw [hv]
    cases c.tckMode <;> decide
  have hconfig : c.environment.config c.publicPort c.signalingPort = c := by
    rw [Environment.config, hmode, envOr_ofString "FILE_PATH" hfile, ← hpath,
      envOr_ofString "DATASET_ID" rfl, envOr_ofString "MEDIA_TYPE" rfl,
      envOr_ofString "ASSIGNER" rfl, var_map_ofString "POLICY_NOT_AFTER" rfl,
      var_ofString "PUBLIC_BASE_URL" rfl, envOr_ofString "PARTICIPANT_CONTEXT_ID" rfl,
      envOr_ofString "DATAPLANE_ID" rfl, var_map_ofString "CONTROL_PLANE_URL" rfl]
    rfl
  refine fromEnv_eq_ok_iff.mpr ⟨c.publicPort, c.signalingPort, ?_, ?_, hconfig.symm⟩
  · rw [envOr_ofString "PUBLIC_PORT" rfl, expectPort_repr]
  · rw [envOr_ofString "SIGNALING_PORT" rfl, expectPort_repr]

theorem fromEnv_congr (h : ∀ key ∈ Environment.names, env.var key = env'.var key) :
    ServiceConfig.fromEnv env = ServiceConfig.fromEnv env' := by
  have hor {key : String} (hk : key ∈ Environment.names) (default : String) :
      env.envOr key default = env'.envOr key default := by
    rw [Environment.envOr, Environment.envOr, h key hk]
  have hconfig : env.config = env'.config := by
    funext publicPort signalingPort
    simp (disch := decide) only [Environment.config, hor, h]
  rw [ServiceConfig.fromEnv, ServiceConfig.fromEnv, hor (by decide), hor (by decide), hconfig]

theorem isPort_envOr {key default : String} (hd : IsPort default) :
    IsPort (env.envOr key default) ↔ ∀ text, env.var key = some text → IsPort text := by
  rw [Environment.envOr]
  cases env.var key with
  | none => exact iff_of_true hd fun text h => nomatch h
  | some text => simp

theorem isPort_publicPort : IsPort "9192" := ⟨9192, Decimal.parse_eq_ok_iff.mp (by decide)⟩

theorem isPort_signalingPort : IsPort "9191" := ⟨9191, Decimal.parse_eq_ok_iff.mp (by decide)⟩

theorem exists_fromEnv_iff : (∃ c, ServiceConfig.fromEnv env = .ok c) ↔
    ∀ key ∈ Environment.portNames, ∀ text, env.var key = some text → IsPort text := by
  rw [Environment.portNames, List.forall_mem_cons, List.forall_mem_singleton,
    ← isPort_envOr isPort_publicPort, ← isPort_envOr isPort_signalingPort,
    ← exists_expectPort_iff "PUBLIC_PORT", ← exists_expectPort_iff "SIGNALING_PORT"]
  constructor
  · rintro ⟨c, h⟩
    obtain ⟨publicPort, signalingPort, hp, hs, -⟩ := fromEnv_eq_ok_iff.mp h
    exact ⟨⟨publicPort, hp⟩, ⟨signalingPort, hs⟩⟩
  · rintro ⟨⟨publicPort, hp⟩, ⟨signalingPort, hs⟩⟩
    exact ⟨_, fromEnv_eq_ok_iff.mpr ⟨publicPort, signalingPort, hp, hs, rfl⟩⟩

theorem of_expectPort_envOr {key default message : String} (hd : IsPort default)
    (h : expectPort key (env.envOr key default) = .error message) :
    ∃ text, env.var key = some text ∧ ¬ IsPort text ∧
      (key ++ " must be a u16").toList <+: message.toList := by
  obtain ⟨hp, hm⟩ := of_expectPort_eq_error h
  rw [isPort_envOr hd] at hp
  push Not at hp
  obtain ⟨text, ht, hn⟩ := hp
  exact ⟨text, ht, hn, hm⟩

/-- A panic names a port variable that is set to something else. -/
theorem of_fromEnv_eq_error {message : String} (h : ServiceConfig.fromEnv env = .error message) :
    ∃ key ∈ Environment.portNames, ∃ text, env.var key = some text ∧ ¬ IsPort text ∧
      (key ++ " must be a u16").toList <+: message.toList := by
  rw [ServiceConfig.fromEnv] at h
  cases hp : expectPort "PUBLIC_PORT" (env.envOr "PUBLIC_PORT" "9192") with
  | error e =>
    rw [hp] at h
    obtain rfl := Except.error.inj h
    exact ⟨"PUBLIC_PORT", by decide, of_expectPort_envOr isPort_publicPort hp⟩
  | ok publicPort =>
    rw [hp] at h
    cases hs : expectPort "SIGNALING_PORT" (env.envOr "SIGNALING_PORT" "9191") with
    | error e =>
      rw [hs] at h
      obtain rfl := Except.error.inj h
      exact ⟨"SIGNALING_PORT", by decide, of_expectPort_envOr isPort_signalingPort hs⟩
    | ok signalingPort =>
      rw [hs] at h
      cases h

end

/-- The configurations that are read are those with a path of UTF-8, each of them from the variables
that spell it. Only a port can be refused, and nothing but the twelve variables matters. -/
theorem fromEnv_round_trip :
    (∀ env c, ServiceConfig.fromEnv env = .ok c → c.filePath.IsUtf8) ∧
    (∀ c : ServiceConfig, c.filePath.IsUtf8 → ServiceConfig.fromEnv c.environment = .ok c) ∧
    (∀ env, (∃ c, ServiceConfig.fromEnv env = .ok c) ↔
      ∀ key ∈ Environment.portNames, ∀ text, env.var key = some text → IsPort text) ∧
    (∀ env message, ServiceConfig.fromEnv env = .error message →
      ∃ key ∈ Environment.portNames, ∃ text, env.var key = some text ∧ ¬ IsPort text ∧
        (key ++ " must be a u16").toList <+: message.toList) ∧
    ∀ env env' : Environment, (∀ key ∈ Environment.names, env.var key = env'.var key) →
      ServiceConfig.fromEnv env = ServiceConfig.fromEnv env' :=
  ⟨fun _ _ => isUtf8_of_fromEnv, fun _ => fromEnv_environment, fun _ => exists_fromEnv_iff,
    fun _ _ => of_fromEnv_eq_error, fun _ _ => fromEnv_congr⟩

end DsSqlDps
