-- SUMMARY: The table repository over a key-value store, and that it is lawful.
import AgentProtocol.Tables.Repo

namespace AgentProtocol.Tables

open Lib

variable {ρ : Type} [Kind ρ]

abbrev Rows (ρ : Type) [Kind ρ] := Table (Kind.serviceId (ρ := ρ))

structure EtcdTable (ρ : Type) [Kind ρ] where
  /-- The values of the keys `{registry}/{service_id}`. -/
  rows : Rows ρ := ∅

namespace EtcdTable

/-- `_matches`: Python equality, with `None` for what is missing. -/
def isMatch (f : Filter) (r : ρ) : Bool := f.all fun p => cellAt r p.1 = p.2

variable (t : EtcdTable ρ)

/-- `_rows`: a range over the prefix of the registry, in the order of the keys. -/
def range : List ρ := t.rows.rows.insertionSort fun a b => Kind.serviceId a ≤ Kind.serviceId b

def register (r : ρ) : Except RepoError (EtcdTable ρ × ρ) :=
  if Kind.serviceId r = "" then .error .missingServiceId else .ok (⟨t.rows.insert r⟩, r)

def patch (k : String) (p : Kind.Patch ρ) : Except RepoError (EtcdTable ρ × ρ) :=
  if Kind.isEmpty p then .error .emptyPatch
  else match t.rows.get? k with
    | none => .error (.notFound k)
    | some r => .ok (⟨t.rows.insert (Kind.apply p r)⟩, Kind.apply p r)

def deregister (k : String) : EtcdTable ρ × Bool := (⟨t.rows.erase k⟩, (t.rows.get? k).isSome)

def query (f : Filter) : Except RepoError (List ρ) := match f.unknown ρ with
  | some name => .error (.unknownColumn name)
  | none => .ok (t.range.filter (isMatch f))

instance : TableRepo ρ (EtcdTable ρ) where
  register := register
  patch := patch
  deregister := deregister
  query := query

theorem isMatch_iff (f : Filter) (r : ρ) : isMatch f r = true ↔ Meets f r := by
  simp [isMatch, Meets]

end EtcdTable

/-! ## It is lawful -/

theorem get?_insert_update (rows : Rows ρ) (r : ρ) : (rows.insert r).get? = Function.update rows.get? (Kind.serviceId r) (some r) := by
  funext k
  rw [Table.get?_insert, Function.update_apply]
  simp [eq_comm]

theorem get?_erase_update (rows : Rows ρ) (k : String) : (rows.erase k).get? = Function.update rows.get? k none := by
  funext k'
  rw [Table.get?_erase, Function.update_apply]

theorem serviceId_nodup (rows : Rows ρ) : rows.rows.Nodup := List.Nodup.of_map _ rows.nodup

namespace EtcdTable

variable {t : EtcdTable ρ}

theorem mem_range {r : ρ} : r ∈ t.range ↔ r ∈ t.rows.rows := (List.perm_insertionSort _ _).mem_iff

theorem range_nodup : t.range.Nodup := (List.perm_insertionSort _ _).nodup_iff.mpr (serviceId_nodup t.rows)

instance : LawfulTableRepo ρ (EtcdTable ρ) where
  content t := t.rows.get?
  serviceId_content h := Table.key_of_get? h
  register_ok t r h := ⟨⟨t.rows.insert r⟩, by simp [TableRepo.register, register, h], get?_insert_update t.rows r⟩
  register_missing t r h := by simp [TableRepo.register, register, h]
  patch_ok {t k r p} hget hempty := by
    refine ⟨⟨t.rows.insert (Kind.apply p r)⟩, by simp [TableRepo.patch, patch, hget, hempty], ?_⟩
    dsimp only
    rw [get?_insert_update, Kind.serviceId_apply, Table.key_of_get? hget]
  patch_empty t k p h := by simp [TableRepo.patch, patch, h]
  deregister_content t k := get?_erase_update t.rows k
  query_ok t f hknown _ := by
    refine ⟨t.range.filter (isMatch f), by simp [TableRepo.query, query, hknown], range_nodup.filter _, fun r => ?_⟩
    rw [List.mem_filter, mem_range, isMatch_iff, Table.mem_iff_get?]

end EtcdTable

end AgentProtocol.Tables
