import DsSqlDps.Dataplane.Handler

/-!
# The configuration and the service built from it

What `build` makes of a configuration: the seeded graph, the empty token store and the handler.
-/

namespace DsSqlDps

/-- The fields that `build` needs for the graph, the handler and the public endpoint. -/
structure Config where
  datasetId : String
  filePath : PathBuf
  mediaType : String
  assigner : String
  policyNotAfter : Option String
  publicPort : UInt16
  publicBaseUrl : String
  tckMode : Bool
deriving DecidableEq, Repr

namespace Config

def fileOffer (c : Config) : FileOffer where
  datasetId := c.datasetId
  title := c.filePath.toStringLossy ++ " (ds-sql-dps-rs data offer)"
  filePath := c.filePath
  mediaType := c.mediaType
  assigner := c.assigner
  permissions := [{
    action := "use"
    constraints := c.policyNotAfter.toList.map fun notAfter => {
      leftOperand := "dateTime"
      operator := "lteq"
      rightOperand := notAfter } }]

/-- A configured port of `0` stands for the port that the listener was assigned. -/
def baseUrl (c : Config) (assignedPort : UInt16) : String :=
  if c.publicPort = 0 then "http://localhost:" ++ assignedPort.toNat.repr else c.publicBaseUrl

def handler (c : Config) (assignedPort : UInt16) : FileOfferHandler where
  publicBaseUrl := c.baseUrl assignedPort
  defaultOffer := c.fileOffer
  tckMode := c.tckMode

end Config

/-- The handler and the state it starts from, if no insertion of the offer fails. -/
def build (ox : Sparql.Engine) (c : Config) (assignedPort : UInt16) :
    Except ConfigGraphError (FileOfferHandler × ServiceState) :=
  match seedOffer ox noFaults .openInMemory c.fileOffer with
  | (.error e, _) => .error e
  | (.ok (), graph) => .ok (c.handler assignedPort, ⟨graph, .empty⟩)

section
variable {ox : Sparql.Engine} {c : Config} {port : UInt16}

/-- What was built, once the offer of the configuration could be seeded. -/
theorem build_cases {handler : FileOfferHandler} {s : ServiceState}
    (h : build ox c port = .ok (handler, s)) :
    handler = c.handler port ∧ s.tokens = .empty ∧
      seedOffer ox noFaults .openInMemory c.fileOffer = (.ok (), s.graph) := by
  unfold build at h
  rcases hs : seedOffer ox noFaults .openInMemory c.fileOffer with ⟨r, g⟩
  rw [hs] at h
  cases r with
  | error e => cases h
  | ok u =>
    obtain ⟨rfl, rfl⟩ := Prod.mk.injEq .. ▸ Except.ok.inj h
    exact ⟨rfl, rfl, rfl⟩

theorem accepts_of_build {handler : FileOfferHandler} {s : ServiceState}
    (h : build ox c port = .ok (handler, s)) : accepts c.fileOffer.datasetId = true :=
  accepts_of_seedOffer ox .openInMemory (build_cases h).2.2

theorem seedRun_of_build {handler : FileOfferHandler} {s : ServiceState}
    (h : build ox c port = .ok (handler, s)) : SeedRun ox [c.fileOffer] s.graph :=
  .seeded .fresh (build_cases h).2.2

variable (ox port) in
theorem build_of_accepts (h : accepts c.fileOffer.datasetId = true) :
    ∃ s, build ox c port = .ok (c.handler port, s) := by
  have hs := congrArg Prod.fst (seedOffer_eq ox .openInMemory h)
  unfold build
  rcases hg : seedOffer ox noFaults .openInMemory c.fileOffer with ⟨r, g⟩
  rw [hg] at hs
  obtain rfl : r = .ok () := hs
  exact ⟨_, rfl⟩

end

end DsSqlDps
