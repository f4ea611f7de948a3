import DsSqlDps.Dataplane.Reference
import DsSqlDps.Lib.Histories

/-!
# The other callbacks

The callbacks of the handler beside START and TERMINATE. They are refused or acknowledged, and leave
no trace in what the service answers later: a flow that was to be suspended is served as before.
-/

namespace DsSqlDps
open Sparql

namespace FileOfferHandler

def canHandle (_flow : DataFlow) : Except HandlerError Bool := .ok true

def onPrepare (_flow : DataFlow) : Except HandlerError DataFlowStatusMessage :=
  .error (.notSupported
    "this data plane only implements the provider role (START/TERMINATE)")

def onStarted (_flow : DataFlow) : Except HandlerError Unit := .ok ()

def onSuspend (_flow : DataFlow) : Except HandlerError Unit :=
  .error (.notSupported "SUSPEND is not implemented by this MVP data plane")

end FileOfferHandler

/-- A request or another callback of the handler. -/
inductive Signal
  | request (command : Command)
  | canHandle (flow : DataFlow)
  | prepare (flow : DataFlow)
  | started (flow : DataFlow)
  | suspend (flow : DataFlow)

inductive SignalAnswer
  | answered (answer : Answer)
  | canHandle (result : Except HandlerError Bool)
  | prepared (result : Except HandlerError DataFlowStatusMessage)
  | started (result : Except HandlerError Unit)
  | suspended (result : Except HandlerError Unit)

def Signal.command : Signal → Option Command
  | .request command => some command
  | _ => none

def SignalAnswer.answer : SignalAnswer → Option Answer
  | .answered answer => some answer
  | _ => none

section
variable (ox : Engine) (uuid : ℕ → String) (pe : PolicyEngine) {c : Config} {port : UInt16}

/-- The service answers a signal. -/
def signal (h : FileOfferHandler) (s : ServiceState) : Signal → SignalAnswer × ServiceState
  | .request command =>
    let (answer, s) := serve ox uuid pe h s command
    (.answered answer, s)
  | .canHandle flow => (.canHandle (FileOfferHandler.canHandle flow), s)
  | .prepare flow => (.prepared (FileOfferHandler.onPrepare flow), s)
  | .started flow => (.started (FileOfferHandler.onStarted flow), s)
  | .suspend flow => (.suspended (FileOfferHandler.onSuspend flow), s)

/-- A service that represents a state of the reference answers requests as it does. -/
theorem outputs_of_represents {s : ServiceState} {r : Reference}
    (hr : ∃ ss, Represents (c.handler port) s r ss) {commands : List Command}
    (hc : ∀ command ∈ commands, command.Named) :
    Machine.outputs (serve ox uuid pe (c.handler port)) s commands =
      Machine.outputs (Reference.serve uuid pe c port) r commands := by
  have hstep : ∀ s r command, (∃ ss, Represents (c.handler port) s r ss) → command.Named →
      (serve ox uuid pe (c.handler port) s command).1 = (r.serve uuid pe c port command).1 ∧
        ∃ ss, Represents (c.handler port) (serve ox uuid pe (c.handler port) s command).2
          (r.serve uuid pe c port command).2 ss :=
    fun s r command ⟨ss, hr⟩ hc => represents_serve ox uuid pe hr hc
  exact Machine.outputs_eq hstep hr hc

/-- The answers to the requests are those to the requests alone. -/
theorem filterMap_outputs_signal (h : FileOfferHandler) (s : ServiceState)
    (signals : List Signal) :
    (Machine.outputs (signal ox uuid pe h) s signals).filterMap SignalAnswer.answer =
      Machine.outputs (serve ox uuid pe h) s (signals.filterMap Signal.command) := by
  refine Machine.filterMap_outputs (fun s sig command hc => ?_) (fun s sig hc => ?_) s signals
  · cases sig with
    | request command' =>
      obtain rfl := Option.some.inj hc
      exact ⟨rfl, rfl⟩
    | canHandle | prepare | started | suspend => cases hc
  · cases sig with
    | request command => cases hc
    | canHandle | prepare | started | suspend => exact ⟨rfl, rfl⟩

/-- Among all the signals, the requests are answered as the reference answers them alone. -/
theorem signals_answered {h : FileOfferHandler} {s : ServiceState}
    (hb : build ox c port = .ok (h, s)) {signals : List Signal}
    (hc : ∀ command, Signal.request command ∈ signals → command.Named) :
    (Machine.outputs (signal ox uuid pe h) s signals).filterMap SignalAnswer.answer =
      Machine.outputs (Reference.serve uuid pe c port) (.initial c)
        (signals.filterMap Signal.command) := by
  obtain ⟨rfl, hr⟩ := represents_build ox hb
  have hnamed : ∀ command ∈ signals.filterMap Signal.command, command.Named := by
    intro command hm
    obtain ⟨sig, hsig, he⟩ := List.mem_filterMap.mp hm
    cases sig with
    | request command' =>
      obtain rfl := Option.some.inj he
      exact hc _ hsig
    | canHandle | prepare | started | suspend => cases he
  rw [filterMap_outputs_signal]
  exact outputs_of_represents ox uuid pe hr hnamed

end

end DsSqlDps
