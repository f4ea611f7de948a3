import DsSqlDps.Dataplane.Tokens

/-!
# The signaling handler

START and TERMINATE of the `dataplane` crate as they run when nothing runs between their steps.
-/

namespace DsSqlDps
open Rdf Sparql

inductive HandlerError
  | notSupported (message : String)
deriving DecidableEq, Repr

/-- The fields of a data flow that the handler reads. -/
structure DataFlow where
  id : String
  datasetId : String
deriving DecidableEq, Repr

structure EndpointProperty where
  name : String
  value : String
deriving DecidableEq, Repr

structure DataAddress where
  endpoint : String
  endpointType : String
  endpointProperties : List EndpointProperty
deriving DecidableEq, Repr

/-- The one state that the handler reports. -/
inductive DataFlowState
  | started
deriving DecidableEq, Repr

structure DataFlowStatusMessage where
  dataFlowId : String
  state : DataFlowState
  dataAddress : DataAddress
deriving DecidableEq, Repr

/-- What the handlers share. -/
structure ServiceState where
  graph : ConfigGraph
  tokens : TokenStore

structure FileOfferHandler where
  publicBaseUrl : String
  defaultOffer : FileOffer
  tckMode : Bool

namespace FileOfferHandler

def unknownDataset (datasetId : String) (e : ConfigGraphError) : HandlerError :=
  .notSupported ("unknown dataset '" ++ datasetId ++ "': " ++ e.toString)

def seedFailed (datasetId : String) (e : ConfigGraphError) : HandlerError :=
  .notSupported
    ("TCK_MODE: failed to auto-seed offer for dataset '" ++ datasetId ++ "': " ++ e.toString)

/-- The default offer under another dataset id. -/
def offerFor (h : FileOfferHandler) (datasetId : String) : FileOffer :=
  { h.defaultOffer with datasetId := datasetId }

def endpoint (h : FileOfferHandler) (datasetId : String) : String :=
  h.publicBaseUrl ++ "/public/" ++ datasetId

def startedMessage (h : FileOfferHandler) (flow : DataFlow) (token : String) :
    DataFlowStatusMessage where
  dataFlowId := flow.id
  state := .started
  dataAddress := {
    endpoint := h.endpoint flow.datasetId
    endpointType := "HTTP"
    endpointProperties := [
      ⟨"endpoint", h.endpoint flow.datasetId⟩,
      ⟨"authorization", token⟩,
      ⟨"authType", "bearer"⟩] }

section
variable (ox : Engine) (uuid : ℕ → String)

/-- The end of `on_start`, once the dataset is known. -/
def issueToken (h : FileOfferHandler) (s : ServiceState) (flow : DataFlow) :
    Except HandlerError DataFlowStatusMessage × ServiceState :=
  let (token, tokens) := s.tokens.issue uuid flow.id flow.datasetId
  (.ok (h.startedMessage flow token), { s with tokens := tokens })

def onStart (faults : Faults) (h : FileOfferHandler) (s : ServiceState) (flow : DataFlow) :
    Except HandlerError DataFlowStatusMessage × ServiceState :=
  match filePath ox s.graph.store flow.datasetId with
  | .ok _ => h.issueToken uuid s flow
  | .error e =>
    if h.tckMode then
      match seedOffer ox faults s.graph (h.offerFor flow.datasetId) with
      | (.ok (), graph) => h.issueToken uuid { s with graph := graph } flow
      | (.error e, graph) => (.error (seedFailed flow.datasetId e), { s with graph := graph })
    else (.error (unknownDataset flow.datasetId e), s)

end

def onTerminate (s : ServiceState) (flow : DataFlow) : Except HandlerError Unit × ServiceState :=
  (.ok (), { s with tokens := s.tokens.revokeFlow flow.id })

end FileOfferHandler
end DsSqlDps
