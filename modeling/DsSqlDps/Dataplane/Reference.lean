import DsSqlDps.Dataplane.Public
import DsSqlDps.Lib.Machine

/-!
# The reference service

A service without any RDF: it knows a set of dataset ids and the live tokens, and writes each policy
directly from the configuration. The service that is built from the configuration answers like it,
one request after the other.
-/

namespace DsSqlDps
open Rdf Sparql

/-- A complete request; a GET comes with the host it meets. -/
inductive Command
  | start (flow : DataFlow)
  | terminate (flow : DataFlow)
  | get (host : Host) (datasetId token : String)

inductive Answer
  | started (result : Except HandlerError DataFlowStatusMessage)
  | terminated (result : Except HandlerError Unit)
  | got (response : Response)

/-- The service answers a request, in which no insertion fails. -/
def serve (ox : Engine) (uuid : ℕ → String) (pe : PolicyEngine) (h : FileOfferHandler)
    (s : ServiceState) : Command → Answer × ServiceState
  | .start flow =>
    let (result, s) := h.onStart ox uuid noFaults s flow
    (.started result, s)
  | .terminate flow =>
    let (result, s) := FileOfferHandler.onTerminate s flow
    (.terminated result, s)
  | .get host datasetId token => (.got (getFile ox pe host s datasetId token), s)

/-! ## The reference -/

structure Reference where
  known : Finset String
  live : String → Option TokenRecord
  drawn : ℕ

namespace Reference

def initial (c : Config) : Reference := ⟨{c.datasetId}, fun _ => none, 0⟩

/-- The path of every file that is served; it went through a literal of the graph. -/
def servedPath (c : Config) : PathBuf := .ofString c.filePath.toStringLossy

theorem servedPath_eq {c : Config} (h : c.filePath.IsUtf8) : servedPath c = c.filePath :=
  PathBuf.ofString_toStringLossy h

section
variable (uuid : ℕ → String) (pe : PolicyEngine) (c : Config) (port : UInt16)

def start (r : Reference) (flow : DataFlow) :
    Except HandlerError DataFlowStatusMessage × Reference :=
  if flow.datasetId ∈ r.known ∨ c.tckMode = true then
    (.ok ((c.handler port).startedMessage flow (uuid r.drawn)),
      ⟨insert flow.datasetId r.known,
        Function.update r.live (uuid r.drawn) (some ⟨flow.id, flow.datasetId⟩), r.drawn + 1⟩)
  else
    (.error (FileOfferHandler.unknownDataset flow.datasetId (.notFound flow.datasetId)), r)

def terminate (r : Reference) (flow : DataFlow) : Reference :=
  { r with live := fun token => (r.live token).filter fun record => record.flowId ≠ flow.id }

def get (host : Host) (r : Reference) (datasetId token : String) : Response :=
  match r.live token with
  | none => invalidToken
  | some record =>
    if record.datasetId ≠ datasetId then wrongDataset
    else
      let offer := { c.fileOffer with datasetId := datasetId }
      (refusal pe host.now datasetId offer.document).getD
        (fileResponse host (servedPath c) c.mediaType)

def serve (r : Reference) : Command → Answer × Reference
  | .start flow =>
    let (result, r) := r.start uuid c port flow
    (.started result, r)
  | .terminate flow => (.terminated (.ok ()), r.terminate flow)
  | .get host datasetId token => (.got (r.get pe c host datasetId token), r)

end

end Reference

/-! ## The simulation -/

/-- The graph holds one complete default offer for each id that is known, the tokens are the live
ones, and every one of them is for an id that is known. -/
structure Represents (h : FileOfferHandler) (s : ServiceState) (r : Reference)
    (ss : List Seeding) : Prop where
  ledger : FullLedger s.graph ss
  offer : ∀ σ ∈ ss, σ.offer = h.offerFor σ.offer.datasetId
  nodup : (ss.map fun σ => σ.offer.datasetId).Nodup
  known : ∀ d, d ∈ r.known ↔ ∃ σ ∈ ss, σ.offer.datasetId = d
  live : s.tokens.tokens = r.live
  drawn : s.tokens.drawn = r.drawn
  issued : ∀ token record, r.live token = some record → record.datasetId ∈ r.known

namespace Represents
variable {ox : Engine} {uuid : ℕ → String} {pe : PolicyEngine} {h : FileOfferHandler}
  {s : ServiceState} {r : Reference} {ss : List Seeding}

/-- What is read of an id that is known. -/
theorem reads (hr : Represents h s r ss) (ox : Engine) {d : String} (hd : d ∈ r.known) :
    policyJsonld ox s.graph.store d = .ok (h.offerFor d).document ∧
      filePath ox s.graph.store d = .ok (.ofString h.defaultOffer.filePath.toStringLossy) ∧
      mediaType ox s.graph.store d = .ok h.defaultOffer.mediaType := by
  obtain ⟨σ, hσ, rfl⟩ := (hr.known d).mp hd
  have hreads := hr.ledger.reads ox hσ (filter_eq_singleton hσ hr.nodup)
  rw [hr.offer σ hσ] at hreads
  exact hreads

theorem unknown (hr : Represents h s r ss) (ox : Engine) {d : String} (ha : accepts d = true)
    (hd : d ∉ r.known) : filePath ox s.graph.store d = .error (.notFound d) :=
  hr.ledger.filePath_eq_error ha (fun σ hσ he => hd ((hr.known d).mpr ⟨σ, hσ, he⟩)) ox

/-- A token is issued for an id that is known. -/
theorem issue (hr : Represents h s r ss) (uuid : ℕ → String) (flow : DataFlow)
    (hd : flow.datasetId ∈ r.known) :
    Represents h { s with tokens := (s.tokens.issue uuid flow.id flow.datasetId).2 }
      ⟨insert flow.datasetId r.known,
        Function.update r.live (uuid r.drawn) (some ⟨flow.id, flow.datasetId⟩), r.drawn + 1⟩
      ss where
  ledger := hr.ledger
  offer := hr.offer
  nodup := hr.nodup
  known d := by
    rw [Finset.insert_eq_of_mem hd]
    exact hr.known d
  live := by
    rw [← hr.live, ← hr.drawn]
    rfl
  drawn := by rw [TokenStore.issue_drawn, hr.drawn]
  issued token record ht := by
    rw [Finset.insert_eq_of_mem hd]
    dsimp only at ht
    rw [Function.update_apply] at ht
    split_ifs at ht with he
    · rw [← Option.some.inj ht]
      exact hd
    · exact hr.issued token record ht

/-- The default offer is seeded under an id that is not known. -/
theorem seed (hr : Represents h s r ss) {d : String} (ha : accepts d = true) (hd : d ∉ r.known) :
    Represents h
      ⟨⟨s.graph.store.insertAll (Seeding.mk (h.offerFor d) s.graph.fresh).quads,
        s.graph.fresh + (h.offerFor d).blanks⟩, s.tokens⟩
      { r with known := insert d r.known } (ss ++ [⟨h.offerFor d, s.graph.fresh⟩]) where
  ledger := hr.ledger.seedOffer ha
  offer σ hσ := by
    rcases List.mem_append.mp hσ with hσ | hσ
    · exact hr.offer σ hσ
    · rw [List.mem_singleton.mp hσ]
      rfl
  nodup := by
    rw [List.map_append, List.map_singleton]
    refine List.nodup_append.mpr ⟨hr.nodup, List.nodup_singleton _, fun a ham b hb hab => hd ?_⟩
    obtain ⟨σ, hσ, he⟩ := List.mem_map.mp ham
    rw [hab, List.mem_singleton.mp hb] at he
    exact (hr.known d).mpr ⟨σ, hσ, he⟩
  known e := by
    rw [Finset.mem_insert, hr.known e]
    constructor
    · rintro (rfl | ⟨σ, hσ, he⟩)
      · exact ⟨_, List.mem_append_right _ List.mem_cons_self, rfl⟩
      · exact ⟨σ, List.mem_append_left _ hσ, he⟩
    · rintro ⟨σ, hσ, he⟩
      rcases List.mem_append.mp hσ with hσ | hσ
      · exact Or.inr ⟨σ, hσ, he⟩
      · rw [List.mem_singleton.mp hσ] at he
        exact Or.inl he.symm
  live := hr.live
  drawn := hr.drawn
  issued token record ht := Finset.mem_insert_of_mem (hr.issued token record ht)

theorem terminate (hr : Represents h s r ss) (flow : DataFlow) :
    Represents h { s with tokens := s.tokens.revokeFlow flow.id } (r.terminate flow) ss where
  ledger := hr.ledger
  offer := hr.offer
  nodup := hr.nodup
  known := hr.known
  live := by
    unfold Reference.terminate
    rw [← hr.live]
    rfl
  drawn := hr.drawn
  issued token record ht := hr.issued token record (Option.filter_eq_some_iff.mp ht).1

end Represents

/-- A START names a dataset id that `seed_offer` accepts. -/
def Command.Named : Command → Prop
  | .start flow => accepts flow.datasetId = true
  | _ => True

section
variable (ox : Engine) (uuid : ℕ → String) (pe : PolicyEngine) {c : Config} {port : UInt16}
  {s : ServiceState} {r : Reference} {ss : List Seeding}

theorem represents_start (hr : Represents (c.handler port) s r ss) {flow : DataFlow}
    (ha : accepts flow.datasetId = true) :
    ((c.handler port).onStart ox uuid noFaults s flow).1 = (r.start uuid c port flow).1 ∧
      ∃ ss', Represents (c.handler port) ((c.handler port).onStart ox uuid noFaults s flow).2
        (r.start uuid c port flow).2 ss' := by
  rw [FileOfferHandler.onStart, Reference.start]
  by_cases hd : flow.datasetId ∈ r.known
  · -- the check finds the dataset
    rw [(hr.reads ox hd).2.1, if_pos (Or.inl hd)]
    exact ⟨by rw [← hr.drawn]; rfl, ss, hr.issue uuid flow hd⟩
  · rw [hr.unknown ox ha hd]
    dsimp only
    have htck : (c.handler port).tckMode = c.tckMode := rfl
    rw [htck]
    -- it is not found, so what happens depends on the mode
    by_cases ht : c.tckMode = true
    · have ha' : accepts ((c.handler port).offerFor flow.datasetId).datasetId = true := ha
      rw [if_pos ht, if_pos (Or.inr ht), seedOffer_of_accepts ox s.graph ha']
      have hs := (hr.seed ha hd).issue uuid flow (Finset.mem_insert_self _ _)
      rw [Finset.insert_idem] at hs
      exact ⟨by rw [← hr.drawn]; rfl, _, hs⟩
    · rw [if_neg ht, if_neg (by simp [hd, ht])]
      exact ⟨rfl, ss, hr⟩

theorem getFile_eq (hr : Represents (c.handler port) s r ss) (host : Host) (d token : String) :
    getFile ox pe host s d token = r.get pe c host d token := by
  rw [getFile, Reference.get, TokenStore.lookup, hr.live]
  cases hl : r.live token with
  | none => rfl
  | some record =>
    dsimp only
    split_ifs with hd
    · rfl
    · rw [not_not] at hd
      -- tokens are issued for known ids only
      have hk := hr.issued token record hl
      rw [hd] at hk
      obtain ⟨hp, hf, hm⟩ := hr.reads ox hk
      rw [hp]
      have hdoc : ({ c.fileOffer with datasetId := d } : FileOffer).document =
          ((c.handler port).offerFor d).document := rfl
      dsimp only
      rw [hdoc]
      cases refusal pe host.now d ((c.handler port).offerFor d).document with
      | some response => rfl
      | none =>
        dsimp only
        rw [serveFile, hf, hm]
        rfl

theorem represents_serve (hr : Represents (c.handler port) s r ss) {command : Command}
    (hc : command.Named) :
    (serve ox uuid pe (c.handler port) s command).1 = (r.serve uuid pe c port command).1 ∧
      ∃ ss', Represents (c.handler port) (serve ox uuid pe (c.handler port) s command).2
        (r.serve uuid pe c port command).2 ss' := by
  cases command with
  | start flow =>
    obtain ⟨ha, hs⟩ := represents_start ox uuid hr hc
    exact ⟨congrArg Answer.started ha, hs⟩
  | terminate flow => exact ⟨rfl, ss, hr.terminate flow⟩
  | get host d token => exact ⟨congrArg Answer.got (getFile_eq ox pe hr host d token), ss, hr⟩

theorem represents_build {s : ServiceState} {h : FileOfferHandler}
    (hb : build ox c port = .ok (h, s)) :
    h = c.handler port ∧ ∃ ss, Represents (c.handler port) s (.initial c) ss := by
  obtain ⟨rfl, ht, -⟩ := build_cases hb
  obtain ⟨ss, hl, hos⟩ := (seedRun_of_build hb).exists_ledger
  obtain ⟨σ, rfl⟩ : ∃ σ, ss = [σ] :=
    List.length_eq_one_iff.mp (by simpa using congrArg List.length hos)
  have ho : σ.offer = c.fileOffer := (List.cons.inj hos).1
  refine ⟨rfl, [σ], hl, fun τ hτ => ?_, List.nodup_singleton _, fun d => ?_, by rw [ht]; rfl,
    by rw [ht]; rfl, fun token record hl => by cases hl⟩
  · rw [List.mem_singleton.mp hτ, ho]
    rfl
  · have hk : d ∈ (Reference.initial c).known ↔ d = c.datasetId := Finset.mem_singleton
    rw [hk]
    constructor
    · rintro rfl
      exact ⟨σ, List.mem_cons_self, by rw [ho]; rfl⟩
    · rintro ⟨τ, hτ, rfl⟩
      rw [List.mem_singleton.mp hτ, ho]
      rfl

/-- The service that is built from a configuration answers every sequence of requests in which no
insertion fails as the reference does. The files it serves are those of the configured path, if that
is UTF-8. -/
theorem serve_refines_reference {h : FileOfferHandler} {s : ServiceState}
    (hb : build ox c port = .ok (h, s)) {commands : List Command}
    (hc : ∀ command ∈ commands, command.Named) :
    Machine.outputs (serve ox uuid pe h) s commands =
        Machine.outputs (Reference.serve uuid pe c port) (.initial c) commands ∧
      (c.filePath.IsUtf8 → Reference.servedPath c = c.filePath) := by
  obtain ⟨rfl, hr⟩ := represents_build ox hb
  have hstep : ∀ s r command, (∃ ss, Represents (c.handler port) s r ss) → command.Named →
      (serve ox uuid pe (c.handler port) s command).1 = (r.serve uuid pe c port command).1 ∧
        ∃ ss, Represents (c.handler port) (serve ox uuid pe (c.handler port) s command).2
          (r.serve uuid pe c port command).2 ss :=
    fun s r command ⟨ss, hr⟩ hc => represents_serve ox uuid pe hr hc
  exact ⟨Machine.outputs_eq hstep hr hc, Reference.servedPath_eq⟩

end

def sampleConfig : Config where
  datasetId := "primary"
  filePath := .ofString "sample-data/sample.csv"
  mediaType := "text/csv"
  assigner := "ds-sql-dps-rs"
  policyNotAfter := some "2026-12-31T23:59:59Z"
  publicPort := 9192
  publicBaseUrl := "http://localhost:9192"
  tckMode := true

/-- A START of the configured dataset, one of another, a GET of each and the end of the flow. -/
def sampleCommands : List Command := [
  .start ⟨"flow", "primary"⟩,
  .start ⟨"flow", "other"⟩,
  .get sampleHost "primary" "0",
  .get sampleHost "other" "1",
  .terminate ⟨"flow", "primary"⟩]

theorem serve_refines_reference_sample :
    ∃ s, build plainEngine sampleConfig 9192 = .ok (sampleConfig.handler 9192, s) ∧
      Machine.outputs (serve plainEngine Nat.repr permissionEngine (sampleConfig.handler 9192)) s
          sampleCommands =
        Machine.outputs (Reference.serve Nat.repr permissionEngine sampleConfig 9192)
          (.initial sampleConfig) sampleCommands ∧
      (sampleConfig.filePath.IsUtf8 →
        Reference.servedPath sampleConfig = sampleConfig.filePath) := by
  have ha : accepts sampleConfig.fileOffer.datasetId = true := accepts_sampleOffer
  obtain ⟨s, hb⟩ := build_of_accepts plainEngine 9192 ha
  refine ⟨s, hb, serve_refines_reference plainEngine Nat.repr permissionEngine hb ?_⟩
  unfold sampleCommands
  simp [Command.Named, accepts_other, accepts_primary]

end DsSqlDps
