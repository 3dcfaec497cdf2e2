-- SUMMARY: The permanent revocation of a heartbeat: its lease is dropped before the registry is asked, and when a refusal leaves everything as it was.
import AgentProtocol.Heartbeat.Sweeper

namespace AgentProtocol.Heartbeat

open Lib Common Register

namespace Backend

/-- `revoke_heartbeat` with `permanent`: every failure of `deregister` is answered with an error. -/
def revokePermanently (s : Backend) (dataset serviceId : String) (caller : Option AuthContext) : Except Failure Response × Backend :=
  let s := { s with leases := s.leases.drop (dataset, serviceId) }
  let (result, registry) := (s.registry dataset).deregister serviceId caller
  (result, s.setRegistry dataset registry)

/-- The entries, what else the registry holds, and the leases are as they were. -/
structure Unchanged (s s' : Backend) : Prop where
  registry : ∀ dataset, s'.registry dataset = s.registry dataset
  leases : s'.leases = s.leases

/-- The registry lets the caller deregister the service. -/
def MayDeregister (s : Backend) (key : LeaseKey) (caller : Option AuthContext) : Prop :=
  ∃ entry ∈ s.entryAt key, entry.source ≠ .userConfig ∧ entry.source ≠ .skillFolder ∧ checkOwner entry caller = .ok ()

section Revoke

variable {s : Backend} {dataset serviceId : String} {caller : Option AuthContext}

theorem registry_setRegistry_self (dataset other : String) :
    (s.setRegistry dataset (s.registry dataset)).registry other = s.registry other := by
  unfold registry setRegistry
  rw [Dict.lookup_set]
  split
  · rename_i hsame
    rw [hsame, Option.getD_some]
  · rfl

theorem revokePermanently_cases (s : Backend) (dataset serviceId : String) (caller : Option AuthContext) :
    (¬ s.MayDeregister (dataset, serviceId) caller ∧ ∃ failure, s.revokePermanently dataset serviceId caller =
        (.error failure, { s with leases := s.leases.drop (dataset, serviceId) }.setRegistry dataset (s.registry dataset))) ∨
    (s.MayDeregister (dataset, serviceId) caller ∧
      (s.revokePermanently dataset serviceId caller).1 = .ok (.deregister serviceId)) := by
  have hsame : ({ s with leases := s.leases.drop (dataset, serviceId) } : Backend).registry dataset = s.registry dataset := rfl
  rcases Registry.deregister_cases (s.registry dataset) serviceId caller with ⟨failure, hfailure⟩ | ⟨entry, hget, huser, hskill, howner, hok⟩
  · refine .inl ⟨?_, failure, ?_⟩
    · rintro ⟨entry, hget, huser, hskill, howner⟩
      have hget : (s.registry dataset).entries.get? serviceId = some entry := hget
      simp [Registry.deregister, hget, huser, hskill, howner] at hfailure
    · simp only [revokePermanently, hsame, hfailure]
  · refine .inr ⟨⟨entry, hget, huser, hskill, howner⟩, ?_⟩
    simp only [revokePermanently, hsame, hok]

theorem drop_eq_self_iff {t : LeaseTable LeaseKey} {key : LeaseKey} : t.drop key = t ↔ t.contains key = false := by
  constructor
  · intro hsame
    have hgone : (t.drop key).contains key = false := by simp [LeaseTable.drop, Dict.contains_erase]
    rwa [hsame] at hgone
  · intro hnone
    apply Table.ext
    refine List.filter_eq_self.mpr fun p hp => ?_
    have hne : p.1 ≠ key := by
      rintro rfl
      have hlookup : t.lookup p.1 = some p.2 := Dict.lookup_eq_some.mpr hp
      simp [Dict.contains, hlookup] at hnone
    simpa using hne

/-- A refused revocation changes nothing exactly if there is no lease, or it is not refused. -/
theorem revokePermanently_unchanged_iff (s : Backend) (dataset serviceId : String) (caller : Option AuthContext) :
    (∀ failure, (s.revokePermanently dataset serviceId caller).1 = .error failure → Unchanged s (s.revokePermanently dataset serviceId caller).2) ↔
      s.leases.contains (dataset, serviceId) = false ∨ s.MayDeregister (dataset, serviceId) caller := by
  rcases revokePermanently_cases s dataset serviceId caller with ⟨hrefused, failure, hcall⟩ | ⟨hmay, hok⟩
  · rw [hcall]
    have hleases : ({ s with leases := s.leases.drop (dataset, serviceId) }.setRegistry dataset (s.registry dataset)).leases =
        s.leases.drop (dataset, serviceId) := rfl
    constructor
    · intro h
      have hsame := (h failure rfl).leases
      rw [hleases] at hsame
      exact .inl (drop_eq_self_iff.mp hsame)
    · rintro (hnone | hmay)
      · intro _ _
        refine ⟨fun other => ?_, ?_⟩
        · exact registry_setRegistry_self (s := { s with leases := s.leases.drop (dataset, serviceId) }) dataset other
        · rw [hleases, drop_eq_self_iff.mpr hnone]
      · exact absurd hmay hrefused
  · refine iff_of_true (fun failure hfailure => ?_) (.inr hmay)
    rw [hok] at hfailure
    cases hfailure

/-- Alice's service. -/
def aliceEntry : Entry where
  serviceId := "svc"
  source := .ephemeral
  ownerId := some "alice"
  payload := .generic { name := "first", description := "a service" }

def leasedService : Backend where
  datasets := (∅ : Dict String Registry).set "ds" { entries := (∅ : Table Entry.serviceId).insert aliceEntry }
  leases := (∅ : LeaseTable LeaseKey).set ("ds", "svc") (Lease.new 30 300 false 0)

def bob : AuthContext := { principalId := "bob", role := .provider }

/-- Another provider is refused, and the service has no lease any more. -/
theorem refused_revocation_drops : ¬ ∀ failure, (leasedService.revokePermanently "ds" "svc" (some bob)).1 = .error failure →
      Unchanged leasedService (leasedService.revokePermanently "ds" "svc" (some bob)).2 := by
  intro h
  have hsame := (h _ rfl).leases
  exact absurd (congrArg (fun t => t.contains ("ds", "svc")) hsame) (by decide)

end Revoke

end Backend

end AgentProtocol.Heartbeat
