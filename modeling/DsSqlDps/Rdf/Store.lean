import Mathlib

namespace Rdf

/-- An RDF term. A blank node is its identity: no two of them share a number. -/
inductive Term
  | iri (value : String)
  | blank (id : ℕ)
  | literal (value datatype : String)
deriving DecidableEq, Repr

def xsdString : String := "http://www.w3.org/2001/XMLSchema#string"

def xsdInteger : String := "http://www.w3.org/2001/XMLSchema#integer"

/-- A plain string literal: its datatype is `xsd:string`. -/
def Term.simple (value : String) : Term := .literal value xsdString

/-- The literal of a natural number, in its canonical lexical form. -/
def Term.integer (n : ℕ) : Term := .literal n.repr xsdInteger

/-- A quad of the default graph, the only graph here. -/
structure Quad where
  subject : Term
  predicate : Term
  object : Term
deriving DecidableEq, Repr

/-- The quads in the order of their insertion, none of them twice. -/
structure Store where
  quads : List Quad
  nodup : quads.Nodup

namespace Store

def empty : Store := ⟨[], List.nodup_nil⟩

instance : Membership Quad Store := ⟨fun g q => q ∈ g.quads⟩

theorem mem_def (g : Store) (q : Quad) : q ∈ g ↔ q ∈ g.quads := Iff.rfl

instance (q : Quad) (g : Store) : Decidable (q ∈ g) := inferInstanceAs (Decidable (q ∈ g.quads))

/-- Inserting a quad that is already there changes nothing. -/
def insert (g : Store) (q : Quad) : Store :=
  if h : q ∈ g.quads then g
  else ⟨g.quads ++ [q], List.nodup_append.mpr ⟨g.nodup, List.nodup_singleton q, by
    intro a ha b hb hab
    rw [List.mem_singleton.mp hb] at hab
    exact h (hab ▸ ha)⟩⟩

@[simp] theorem not_mem_empty (q : Quad) : q ∉ empty := List.not_mem_nil

@[simp] theorem mem_insert {g : Store} {p q : Quad} : p ∈ g.insert q ↔ p ∈ g ∨ p = q := by
  unfold insert
  split_ifs with h
  · refine ⟨Or.inl, fun hp => hp.elim id fun he => ?_⟩
    rw [he]
    exact h
  · simp [mem_def]

theorem insert_of_mem {g : Store} {q : Quad} (h : q ∈ g) : g.insert q = g := dif_pos h

/-- One insertion after the other. -/
def insertAll (g : Store) (qs : List Quad) : Store := qs.foldl insert g

@[simp] theorem insertAll_nil (g : Store) : g.insertAll [] = g := rfl

@[simp] theorem insertAll_cons (g : Store) (q : Quad) (qs : List Quad) :
    g.insertAll (q :: qs) = (g.insert q).insertAll qs := rfl

theorem insertAll_singleton (g : Store) (q : Quad) : g.insertAll [q] = g.insert q := rfl

theorem insertAll_append (g : Store) (ps qs : List Quad) :
    g.insertAll (ps ++ qs) = (g.insertAll ps).insertAll qs := List.foldl_append

@[simp] theorem mem_insertAll {g : Store} {p : Quad} {qs : List Quad} :
    p ∈ g.insertAll qs ↔ p ∈ g ∨ p ∈ qs := by
  induction qs generalizing g with
  | nil => simp
  | cons q qs ih => rw [insertAll_cons, ih, mem_insert, List.mem_cons, or_assoc]

theorem insertAll_of_subset {g : Store} {qs : List Quad} (h : ∀ q ∈ qs, q ∈ g) :
    g.insertAll qs = g := by
  induction qs with
  | nil => rfl
  | cons q qs ih =>
    rw [insertAll_cons, insert_of_mem (h q List.mem_cons_self)]
    exact ih fun p hp => h p (List.mem_cons_of_mem q hp)

-- a store is compared by its quads, never by running the insertions
attribute [irreducible] insertAll

end Store
end Rdf
