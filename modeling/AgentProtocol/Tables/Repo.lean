-- SUMMARY: The interface to tables of rows, with the laws that its callers rely on.
import AgentProtocol.Lib.Table

/-!
# Table repositories

A row has a service id, promoted columns and a document. A `TableRepo` files rows by service id and
searches them by columns and by fields of the document. Two states with one `content` may still list
their rows in different orders: `query` promises none.
-/

namespace AgentProtocol.Tables

open Lib

/-- What a column or a field holds. -/
inductive Cell where
  | null
  | int (n : ℤ)
  | text (s : String)
  deriving DecidableEq

/-- What a filter refers to: a column (or `service_id`), or `data.<key>`. -/
inductive Ref where
  | column (name : String)
  | data (key : String)

/-- Equalities that a row must meet. -/
abbrev Filter := List (Ref × Cell)

/-- The rows of one kind. -/
class Kind (ρ : Type) where
  serviceId : ρ → String
  /-- The promoted columns. -/
  columns : List String
  column : ρ → String → Cell
  /-- A field of the document; a missing one is `null`. -/
  field : ρ → String → Cell
  /-- The columns and the document that a patch gives. -/
  Patch : Type
  isEmpty : Patch → Bool
  apply : Patch → ρ → ρ
  serviceId_apply : ∀ p r, serviceId (apply p r) = serviceId r

section Rows

variable {ρ : Type} [Kind ρ]

/-- What a reference finds in a row. -/
def cellAt (r : ρ) : Ref → Cell
  | .column "service_id" => .text (Kind.serviceId r)
  | .column name => Kind.column r name
  | .data key => Kind.field r key

/-- A filter may name promoted columns, `service_id` and fields of the document. -/
def Filter.unknown (ρ : Type) [Kind ρ] (f : Filter) : Option String :=
  f.findSome? fun
    | (.column name, _) => if name = "service_id" ∨ name ∈ Kind.columns ρ then none else some name
    | (.data _, _) => none

end Rows

inductive RepoError where
  | missingServiceId
  | unknownColumn (name : String)
  | emptyPatch
  | notFound (serviceId : String)
  deriving DecidableEq

/-- One registry of a `TableRepo`; a state of type `σ` holds its rows. -/
class TableRepo (ρ : outParam Type) [Kind ρ] (σ : Type) where
  /-- Write a row, whether its id is new or not, and read it back. -/
  register : σ → ρ → Except RepoError (σ × ρ)
  patch : σ → String → Kind.Patch ρ → Except RepoError (σ × ρ)
  /-- Whether a row was deleted. -/
  deregister : σ → String → σ × Bool
  query : σ → Filter → Except RepoError (List ρ)

/-! ## Laws -/

/-- The two are of one type; in SQL, `NULL` equals nothing. -/
def Cell.Comparable : Cell → Cell → Prop
  | _, .null => False
  | .null, _ | .int _, .int _ | .text _, .text _ => True
  | .int _, .text _ | .text _, .int _ => False

@[simp] theorem Cell.comparable_text (a b : String) : (Cell.text a).Comparable (.text b) := trivial

section Laws

variable {ρ : Type} [Kind ρ]

/-- Whatever a row holds, the filter compares it with a value of its type; an SQL database converts other values. -/
def Filter.Plain (ρ : Type) [Kind ρ] (f : Filter) : Prop := ∀ p ∈ f, ∀ r : ρ, (cellAt r p.1).Comparable p.2

def Meets (f : Filter) (r : ρ) : Prop := ∀ p ∈ f, cellAt r p.1 = p.2

end Laws

/-- What callers rely on: the operations act on the content, and a search finds what it asks for, in some order. -/
class LawfulTableRepo (ρ : outParam Type) [Kind ρ] (σ : Type) [TableRepo ρ σ] where
  /-- The row filed under an id. -/
  content : σ → String → Option ρ
  serviceId_content : ∀ {s k r}, content s k = some r → Kind.serviceId r = k
  register_ok : ∀ (s : σ) {r : ρ}, Kind.serviceId r ≠ "" → ∃ s', TableRepo.register s r = .ok (s', r) ∧
    content s' = Function.update (content s) (Kind.serviceId r) (some r)
  register_missing : ∀ (s : σ) {r : ρ}, Kind.serviceId r = "" → TableRepo.register s r = .error .missingServiceId
  patch_ok : ∀ {s : σ} {k : String} {r : ρ} {p : Kind.Patch ρ}, content s k = some r → Kind.isEmpty p = false →
    ∃ s', TableRepo.patch s k p = .ok (s', Kind.apply p r) ∧ content s' = Function.update (content s) k (some (Kind.apply p r))
  patch_empty : ∀ (s : σ) (k : String) {p : Kind.Patch ρ}, Kind.isEmpty p = true → TableRepo.patch s k p = .error .emptyPatch
  deregister_content : ∀ (s : σ) (k : String), content (TableRepo.deregister s k).1 = Function.update (content s) k none
  query_ok : ∀ (s : σ) {f : Filter}, f.unknown ρ = none → f.Plain ρ → ∃ l, TableRepo.query s f = .ok l ∧ l.Nodup ∧
    ∀ r, r ∈ l ↔ content s (Kind.serviceId r) = some r ∧ Meets f r

theorem eq_toList {α : Type} {l : List α} {o : Option α} (hl : l.Nodup) (h : ∀ a, a ∈ l ↔ o = some a) : l = o.toList := by
  cases o with
  | none =>
    rw [Option.toList_none, List.eq_nil_iff_forall_not_mem]
    intro a ha
    exact nomatch (h a).mp ha
  | some a =>
    have hperm : l.Perm [a] := (List.perm_ext_iff_of_nodup hl (List.nodup_singleton a)).mpr fun b => by
      rw [h, Option.some.injEq, List.mem_singleton, eq_comm]
    exact List.perm_singleton.mp hperm

end AgentProtocol.Tables
