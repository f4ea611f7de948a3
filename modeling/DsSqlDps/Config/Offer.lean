import DsSqlDps.Sparql.Engine

namespace DsSqlDps

/-! ## Paths -/

/-- A stretch of an operating system string: a character, or bytes that are no UTF-8. -/
inductive PathUnit
  | char (c : Char)
  | invalid (bytes : List UInt8)
deriving DecidableEq, Repr

structure PathBuf where
  units : List PathUnit
deriving DecidableEq, Repr

namespace PathBuf

def ofString (s : String) : PathBuf := ⟨s.toList.map .char⟩

/-- Bytes that are no UTF-8 turn into the replacement character. -/
def toStringLossy (p : PathBuf) : String :=
  String.ofList (p.units.map fun
    | .char c => c
    | .invalid _ => Char.ofNat 0xFFFD)

@[simp] theorem toStringLossy_ofString (s : String) : (ofString s).toStringLossy = s := by
  simp [ofString, toStringLossy, Function.comp_def]

/-- Paths that are UTF-8 text. -/
def IsUtf8 (p : PathBuf) : Prop := ∃ s, p = ofString s

theorem ofString_toStringLossy {p : PathBuf} (h : p.IsUtf8) : ofString p.toStringLossy = p := by
  obtain ⟨s, rfl⟩ := h
  rw [toStringLossy_ofString]

end PathBuf

/-! ## Offers -/

/-- `leftOperand operator rightOperand`, e.g. `dateTime lteq 2026-12-31T23:59:59Z`. -/
structure ConstraintSpec where
  leftOperand : String
  operator : String
  rightOperand : String
deriving DecidableEq, Repr

structure PermissionSpec where
  action : String
  constraints : List ConstraintSpec
deriving DecidableEq, Repr

structure FileOffer where
  datasetId : String
  title : String
  filePath : PathBuf
  mediaType : String
  assigner : String
  permissions : List PermissionSpec
deriving DecidableEq, Repr

/-! ## Vocabulary -/

namespace Vocab

def DCAT : String := "http://www.w3.org/ns/dcat#"
def DCTERMS : String := "http://purl.org/dc/terms/"
def ODRL : String := "http://www.w3.org/ns/odrl/2/"
def XSD : String := "http://www.w3.org/2001/XMLSchema#"
def RDF : String := "http://www.w3.org/1999/02/22-rdf-syntax-ns#"
def DS : String := "https://ds42.org/ontologies/ds-sql-dps-rs#"

def odrl (term : String) : String := ODRL ++ term
def dcat (term : String) : String := DCAT ++ term
def dcterms (term : String) : String := DCTERMS ++ term
def ds (term : String) : String := DS ++ term
def rdf (term : String) : String := RDF ++ term
def xsd (term : String) : String := XSD ++ term

end Vocab

def datasetIri (datasetId : String) : String := "urn:ds-sql-dps-rs:dataset:" ++ datasetId

def distributionIri (datasetId : String) : String := datasetIri datasetId ++ "#distribution"

def policyIri (datasetId : String) : String := datasetIri datasetId ++ "#policy"

theorem datasetIri_injective : Function.Injective datasetIri := fun _ _ h =>
  (String.append_right_inj _).mp h

theorem distributionIri_injective : Function.Injective distributionIri := fun _ _ h =>
  datasetIri_injective ((String.append_left_inj _).mp h)

theorem policyIri_injective : Function.Injective policyIri := fun _ _ h =>
  datasetIri_injective ((String.append_left_inj _).mp h)

end DsSqlDps
