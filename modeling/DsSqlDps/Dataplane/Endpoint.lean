import DsSqlDps.Dataplane.Reference
import DsSqlDps.Dataplane.FailFast
import DsSqlDps.Net.Url

/-!
# The data address

A START answers with the URL that the dataset id is pasted into. A GET of that URL reaches the
dataset only if the id comes back from the path of the URL.
-/

namespace DsSqlDps
open Rdf Sparql

/-! ## A GET of a URL -/

/-- The value of an endpoint property. -/
def DataAddress.property (address : DataAddress) (name : String) : Option String :=
  (address.endpointProperties.find? fun property => property.name = name).map (·.value)

/-- The route `/public/{dataset_id}`: its parameter is one segment, not empty, percent-decoded. -/
def publicRoute : List (List Char) → Option String
  | [first, segment] =>
    if first = "public".toList ∧ segment ≠ [] then (Url.decode .keep segment).map String.ofList
    else none
  | _ => none

/-- The `dataset_id` that a GET of the URL comes with, if it is routed to `get_file`. -/
def datasetIdOf (url : String) : Option String := publicRoute (Url.segments url.toList)

/-- The URL of the data address, with its token, leads to the policy of the dataset. -/
def Usable (ox : Engine) (pe : PolicyEngine) (s : ServiceState) (address : DataAddress)
    (datasetId : String) : Prop :=
  datasetIdOf address.endpoint = some datasetId ∧
    ∃ token, address.property "authorization" = some token ∧
      ∀ host, getFile ox pe host s datasetId token = judged ox pe host s.graph.store datasetId

/-! ## The token -/

section
variable {ox : Engine} {uuid : ℕ → String} {pe : PolicyEngine} {h : FileOfferHandler}
  {faults : Faults} {s s' : ServiceState} {flow : DataFlow} {m : DataFlowStatusMessage}

theorem onStart_tokens_cases (ox : Engine) (uuid : ℕ → String) (faults : Faults)
    (h : FileOfferHandler) (s : ServiceState) (flow : DataFlow) :
    (∃ e, (h.onStart ox uuid faults s flow).1 = .error e ∧
      (h.onStart ox uuid faults s flow).2.tokens = s.tokens) ∨
    (h.onStart ox uuid faults s flow).1 = .ok (h.startedMessage flow (uuid s.tokens.drawn)) ∧
      (h.onStart ox uuid faults s flow).2.tokens =
        (s.tokens.issue uuid flow.id flow.datasetId).2 := by
  rw [FileOfferHandler.onStart]
  cases filePath ox s.graph.store flow.datasetId with
  | ok path => exact Or.inr ⟨rfl, rfl⟩
  | error e =>
    dsimp only
    split_ifs
    · rcases seedOffer ox faults s.graph (h.offerFor flow.datasetId) with ⟨_ | _, g⟩
      · exact Or.inl ⟨_, rfl, rfl⟩
      · exact Or.inr ⟨rfl, rfl⟩
    · exact Or.inl ⟨_, rfl, rfl⟩

theorem onStart_ok (hs : h.onStart ox uuid faults s flow = (.ok m, s')) :
    m = h.startedMessage flow (uuid s.tokens.drawn) ∧
      s'.tokens = (s.tokens.issue uuid flow.id flow.datasetId).2 := by
  have hc := onStart_tokens_cases ox uuid faults h s flow
  rw [hs] at hc
  rcases hc with ⟨e, he, -⟩ | ⟨hm, ht⟩
  · cases he
  · exact ⟨Except.ok.inj hm, ht⟩

variable (ox uuid h s flow) in
/-- In TCK mode a START succeeds for every dataset id that can be seeded. -/
theorem exists_onStart (ht : h.tckMode = true) (ha : accepts flow.datasetId = true) :
    ∃ m s', h.onStart ox uuid noFaults s flow = (.ok m, s') := by
  rw [FileOfferHandler.onStart]
  cases filePath ox s.graph.store flow.datasetId with
  | ok path => exact ⟨_, _, rfl⟩
  | error e =>
    have ho : accepts (h.offerFor flow.datasetId).datasetId = true := ha
    dsimp only
    rw [if_pos ht, seedOffer_of_accepts ox s.graph ho]
    exact ⟨_, _, rfl⟩

/-- A request that terminates the flow. -/
def Command.Terminates (flowId : String) : Command → Prop
  | .terminate flow => flow.id = flowId
  | _ => False

/-- A token that was drawn, with its record. -/
def Held (uuid : ℕ → String) (s : TokenStore) (token : String) (record : TokenRecord) : Prop :=
  s.lookup token = some record ∧ ∃ k < s.drawn, token = uuid k

theorem held_issue (s : TokenStore) (f d : String) :
    Held uuid (s.issue uuid f d).2 (uuid s.drawn) ⟨f, d⟩ := by
  refine ⟨?_, s.drawn, ?_, rfl⟩
  · rw [TokenStore.lookup_issue, if_pos rfl]
  · rw [TokenStore.issue_drawn]
    exact Nat.lt_succ_self _

/-- The requests that come next, one after the other. -/
def served (ox : Engine) (uuid : ℕ → String) (pe : PolicyEngine) (h : FileOfferHandler)
    (s : ServiceState) (commands : List Command) : ServiceState :=
  Machine.run (fun s command => (serve ox uuid pe h s command).2) s commands

/-- A token is held until its flow is terminated. -/
theorem Held.serve (hu : Function.Injective uuid) {token : String} {record : TokenRecord}
    (ht : Held uuid s.tokens token record) {command : Command}
    (hc : ¬ command.Terminates record.flowId) :
    Held uuid (serve ox uuid pe h s command).2.tokens token record := by
  obtain ⟨hl, k, hk, rfl⟩ := ht
  cases command with
  | start flow =>
    have hcases := onStart_tokens_cases ox uuid noFaults h s flow
    rw [DsSqlDps.serve]
    rcases hcases with ⟨e, -, ht⟩ | ⟨-, ht⟩
    · rw [ht]
      exact ⟨hl, k, hk, rfl⟩
    · rw [ht]
      refine ⟨?_, k, ?_, rfl⟩
      · rw [TokenStore.lookup_issue, if_neg fun he => hk.ne (hu he), hl]
      · rw [TokenStore.issue_drawn]
        exact Nat.lt_succ_of_lt hk
  | terminate flow =>
    refine ⟨?_, k, hk, rfl⟩
    have hf : record.flowId ≠ flow.id := fun he => hc he.symm
    exact (TokenStore.lookup_revokeFlow s.tokens flow.id (uuid k)).trans (by rw [hl]; simp [hf])
  | get host d token => exact ⟨hl, k, hk, rfl⟩

variable (ox pe h) in
theorem Held.served (hu : Function.Injective uuid) {token : String} {record : TokenRecord}
    (ht : Held uuid s.tokens token record) {commands : List Command}
    (hc : ∀ command ∈ commands, ¬ command.Terminates record.flowId) :
    Held uuid (DsSqlDps.served ox uuid pe h s commands).tokens token record :=
  Machine.invariant_of_mem (P := fun s : ServiceState => Held uuid s.tokens token record)
    (fun _ command hm ht => Held.serve hu ht (hc command hm)) ht

end

/-! ## The path -/

theorem plain_of_literal {s : String} {cs : List Char} (hs : s.toList = cs)
    (h : cs.all Url.isUnreserved = true) (hl : 2 < cs.length) : Url.Plain s.toList := by
  rw [hs]
  refine Url.plain_of_all h ?_ ?_ <;> rintro rfl <;> simp at hl

theorem plain_public : Url.Plain "public".toList :=
  plain_of_literal (toList_literal rfl) (by decide +kernel) (by decide)

section
variable (o : Url.Origin) {h : FileOfferHandler} (hb : h.publicBaseUrl.toList = o.text) (d : String)
include hb

theorem toList_endpoint :
    (h.endpoint d).toList = o.text ++ Url.path ["public".toList, d.toList] := by
  have hp : "/public/".toList = '/' :: ("public".toList ++ ['/']) := by
    rewrite [toList_literal (s := "/public/") rfl, toList_literal (s := "public") rfl]
    rfl
  rw [FileOfferHandler.endpoint, String.toList_append, String.toList_append, hb, hp]
  simp only [Url.path, List.flatMap_cons, List.flatMap_nil, List.append_nil, List.cons_append,
    List.append_assoc, List.nil_append]

/-- The id comes back from the path exactly if it is a segment of its own. -/
theorem datasetIdOf_endpoint_iff : datasetIdOf (h.endpoint d) = some d ↔
    d ≠ "" ∧ Url.Verbatim o.special .keep d.toList := by
  have hpublic : Url.Verbatim o.special .keep "public".toList := plain_public.verbatim _ _
  have hwhole (hv : Url.Verbatim o.special .keep d.toList) :
      Url.segments (h.endpoint d).toList = ["public".toList, d.toList] := by
    rw [toList_endpoint o hb d]
    refine Url.segments_path o (m := .keep) (by simp) fun s hs => ?_
    rcases List.mem_pair.mp hs with rfl | rfl
    · exact hpublic
    · exact hv
  rw [datasetIdOf]
  constructor
  · intro hr
    -- the route matches two segments, and decodes the second
    obtain ⟨segment, hs, hne, hd⟩ : ∃ segment,
        Url.segments (h.endpoint d).toList = ["public".toList, segment] ∧ segment ≠ [] ∧
          Url.decode .keep segment = some d.toList := by
      unfold publicRoute at hr
      split at hr
      · rename_i first segment hs
        split_ifs at hr with hc
        obtain ⟨cs, hd, he⟩ := Option.map_eq_some_iff.mp hr
        exact ⟨segment, by rw [hs, hc.1], hc.2, by rw [hd, ← he, String.toList_ofList]⟩
      · cases hr
    have hv : Url.Verbatim o.special .keep d.toList := by
      refine Url.verbatim_of_decode o (fun s hs => ?_) (fun s hs => absurd hs List.not_mem_nil)
        (?_ : segment ∈ Url.segments (o.text ++ Url.path (["public".toList] ++ [d.toList]))) hd
      · rw [List.mem_singleton.mp hs]
        exact hpublic
      · rw [toList_endpoint o hb d] at hs
        rw [List.singleton_append, hs]
        simp
    refine ⟨?_, hv⟩
    -- an empty id is a segment too, but the route does not match it
    rintro rfl
    rw [hwhole hv] at hs
    exact hne (List.cons.inj (List.cons.inj hs).2).1.symm
  · rintro ⟨hne, hv⟩
    rw [hwhole hv, publicRoute, if_pos ⟨rfl, fun hn => hne (String.toList_injective hn)⟩,
      Url.decode_eq_self_iff.mpr hv.literal, Option.map_some, String.ofList_toList]

end

/-! ## The ids that are addressed -/

/-- A segment of a path by itself, and no percent-encoded octet in it. -/
def Addressable (d : String) : Prop :=
  d ≠ "" ∧ d ≠ "." ∧ d ≠ ".." ∧ '/' ∉ d.toList ∧ '?' ∉ d.toList ∧ '%' ∉ d.toList

instance (d : String) : Decidable (Addressable d) := inferInstanceAs (Decidable (_ ∧ _))

/-- A percent sign in an id that `seed_offer` accepts begins an octet. -/
theorem hasOctet_of_accepts {d : String} (ha : accepts d = true) (hm : '%' ∈ d.toList) :
    Url.HasOctet d.toList := by
  obtain ⟨as, bs, he⟩ := List.append_of_mem hm
  simp only [accepts, Bool.and_eq_true] at ha
  have hs := ha.1.1
  rw [isDatasetIri, he, String.toList_empty, List.append_nil, ← List.append_assoc] at hs
  obtain ⟨x, y, cs, rfl, hx, hy⟩ := Iri.isHex_of_scan hs
  exact ⟨as, x, y, cs, he, hx, hy⟩

theorem verbatim_iff_of_accepts {d : String} (ha : accepts d = true) (special : Bool) :
    d ≠ "" ∧ Url.Verbatim special .keep d.toList ↔ Addressable d := by
  constructor
  · rintro ⟨he, hv⟩
    refine ⟨he, ?_, ?_, fun hm => ?_, fun hm => ?_,
      fun hm => hv.literal (hasOctet_of_accepts ha hm)⟩
    · rintro rfl
      exact absurd hv.not_dot (by decide +kernel)
    · rintro rfl
      exact absurd hv.not_doubleDot (by decide +kernel)
    · exact absurd (hv.one _ hm) (by simp [Url.isSlash])
    · exact absurd (hv.inside _ hm) (by simp [Url.endsPath])
  · rintro ⟨he, hd, hdd, hslash, hquery, hpercent⟩
    -- what else a URL treats specially is not legal in an IRI
    have hiri {c : Char} (hc : isIriChar c = false) : c ∉ d.toList := by
      intro hm
      rw [List.all_eq_true.mp (legal_of_accepts ha) c hm] at hc
      cases hc
    have hlist {e : String} {cs : List Char} (hne : d ≠ e) (hcs : e.toList = cs) : d.toList ≠ cs :=
      fun hd => hne (String.toList_injective (hd.trans hcs.symm))
    refine ⟨he, Url.verbatim_of_not_mem ?_ (hlist hd (toList_literal rfl))
      (hlist hdd (toList_literal rfl)) special _⟩
    simp only [Url.special, List.forall_mem_cons, List.not_mem_nil, false_implies, implies_true,
      and_true]
    exact ⟨hiri (by decide +kernel), hiri (by decide +kernel), hiri (by decide +kernel), hquery,
      hash_not_mem_of_accepts ha, hslash, hiri (by decide +kernel), hpercent⟩

/-! ## The result -/

/-- A data address that a START hands out is usable until its flow is terminated, exactly if the
dataset id is a segment of a path by itself. -/
theorem usable_iff (ox : Engine) {uuid : ℕ → String} (hu : Function.Injective uuid)
    (pe : PolicyEngine) (o : Url.Origin) {h : FileOfferHandler}
    (hb : h.publicBaseUrl.toList = o.text) {faults : Faults} {s s' : ServiceState}
    {flow : DataFlow} {m : DataFlowStatusMessage} (ha : accepts flow.datasetId = true)
    (hs : h.onStart ox uuid faults s flow = (.ok m, s')) {commands : List Command}
    (hc : ∀ command ∈ commands, ¬ command.Terminates flow.id) :
    Usable ox pe (served ox uuid pe h s' commands) m.dataAddress flow.datasetId ↔
      Addressable flow.datasetId := by
  obtain ⟨rfl, ht⟩ := onStart_ok hs
  have hheld : Held uuid s'.tokens (uuid s.tokens.drawn) ⟨flow.id, flow.datasetId⟩ := by
    rw [ht]
    exact held_issue s.tokens flow.id flow.datasetId
  have hlookup := (Held.served ox pe h hu hheld hc).1
  rw [← verbatim_iff_of_accepts ha o.special, ← datasetIdOf_endpoint_iff o hb]
  exact and_iff_left ⟨uuid s.tokens.drawn, rfl, fun host => getFile_of_lookup hlookup host⟩

/-- The origin of the URLs of this host. -/
def localOrigin (port : UInt16) : Url.Origin where
  scheme := "http".toList
  authority := "localhost:".toList ++ Nat.toDigits 10 port.toNat
  scheme_ok := by
    rewrite [toList_literal (s := "http") rfl]
    simp [Url.isIgnored]
  authority_ok c hc := by
    rcases List.mem_append.mp hc with hname | hdigit
    · clear hc
      rewrite [toList_literal (s := "localhost:") rfl] at hname
      revert hname c
      simp [Url.isSlash, Url.endsPath, Url.isIgnored]
    · have hd : c.isDigit = true := Nat.isDigit_of_mem_toDigits (by decide) (by decide) hdigit
      have hne {e : Char} (he : e.isDigit = false) : c ≠ e := by
        rintro rfl
        rw [he] at hd
        cases hd
      simp [Url.isSlash, Url.endsPath, Url.isIgnored, hne (e := '/') rfl, hne (e := '\\') rfl,
        hne (e := '?') rfl, hne (e := '#') rfl, hne (e := '\t') rfl, hne (e := '\n') rfl,
        hne (e := '\r') rfl]
  authority_ne := by
    rewrite [toList_literal (s := "localhost:") rfl]
    simp

theorem toList_localUrl (port : UInt16) :
    ("http://localhost:" ++ port.toNat.repr).toList = (localOrigin port).text := by
  rw [String.toList_append, Nat.toList_repr]
  rfl

theorem accepts_teamSales : accepts "team/sales" = true := by decide +kernel

theorem baseUrl_sampleConfig :
    (sampleConfig.handler 9192).publicBaseUrl.toList = (localOrigin 9192).text := by
  rw [← toList_localUrl]
  decide +kernel

/-- A flow of the sample dataset, with another flow terminated before the GET. -/
theorem usable_iff_primary :
    ∃ m s', (sampleConfig.handler 9192).onStart plainEngine Nat.repr noFaults
        ⟨sampleGraph, .empty⟩ ⟨"flow", "primary"⟩ = (.ok m, s') ∧
      (Usable plainEngine permissionEngine
        (served plainEngine Nat.repr permissionEngine (sampleConfig.handler 9192) s'
          [.terminate ⟨"second", "primary"⟩]) m.dataAddress "primary" ↔ Addressable "primary") := by
  obtain ⟨m, s', hs⟩ := exists_onStart plainEngine Nat.repr (sampleConfig.handler 9192)
    ⟨sampleGraph, .empty⟩ ⟨"flow", "primary"⟩ rfl accepts_primary
  refine ⟨m, s', hs, usable_iff plainEngine (fun _ _ => Nat.repr_injective) permissionEngine
    (localOrigin 9192) baseUrl_sampleConfig (by exact accepts_primary) hs fun command hm => ?_⟩
  rw [List.mem_singleton.mp hm]
  simp [Command.Terminates]

/-- A data address that START hands out, and whose URL has one segment too many. -/
theorem not_usable_teamSales :
    ¬ ∀ (o : Url.Origin) (h : FileOfferHandler) (s s' : ServiceState) (flow : DataFlow)
        (m : DataFlowStatusMessage), h.publicBaseUrl.toList = o.text →
      accepts flow.datasetId = true →
      h.onStart plainEngine Nat.repr noFaults s flow = (.ok m, s') →
      Usable plainEngine permissionEngine s' m.dataAddress flow.datasetId := by
  intro hall
  obtain ⟨m, s', hs⟩ := exists_onStart plainEngine Nat.repr (sampleConfig.handler 9192)
    ⟨sampleGraph, .empty⟩ ⟨"flow", "team/sales"⟩ rfl accepts_teamSales
  have hu := hall _ _ _ _ _ _ baseUrl_sampleConfig (by exact accepts_teamSales) hs
  obtain ⟨rfl, -⟩ := onStart_ok hs
  have he : datasetIdOf ((sampleConfig.handler 9192).endpoint "team/sales") = some "team/sales" :=
    hu.1
  have hv := (datasetIdOf_endpoint_iff (localOrigin 9192) baseUrl_sampleConfig _).mp he
  have hn := (verbatim_iff_of_accepts accepts_teamSales _).mp hv
  exact absurd hn (by decide +kernel)

end DsSqlDps
