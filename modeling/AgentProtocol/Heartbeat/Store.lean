-- SUMMARY: Heartbeat leases of services: the lease policy of a dataset, and the store that installs, renews, revokes and recovers leases.
import AgentProtocol.Common.Lease
import AgentProtocol.Register.Registry

namespace AgentProtocol.Heartbeat

open Lib Common Register

/-- The lease policy of a dataset, in the bounds that writing and loading it enforce. -/
structure LeaseConfig where
  enabled : Bool := false
  minTtl : ℤ := 10
  maxTtl : ℤ := 3600
  gracePeriod : ℤ := 300
  minTtl_pos : 1 ≤ minTtl := by decide
  minTtl_le : minTtl ≤ maxTtl := by decide
  grace_nonneg : 0 ≤ gracePeriod := by decide

/-- `write_lease_config`: values out of bounds are refused. -/
def LeaseConfig.make? (enabled : Bool) (minTtl maxTtl gracePeriod : ℤ) : Option LeaseConfig :=
  if h : 1 ≤ minTtl ∧ minTtl ≤ maxTtl ∧ 0 ≤ gracePeriod then
    some { enabled, minTtl, maxTtl, gracePeriod, minTtl_pos := h.1, minTtl_le := h.2.1, grace_nonneg := h.2.2 }
  else none

inductive HeartbeatError where
  | notSupported (dataset : String)
  | ttlRequired (dataset : String) (minTtl maxTtl : ℤ)
  | ttlOutOfRange (dataset : String) (leaseTtl minTtl maxTtl : ℤ)

/-- `validate`: a dataset grants leases to all of its services or to none. -/
def validate (cfg : LeaseConfig) (dataset : String) : Option ℤ → Except HeartbeatError (Option ℤ)
  | none => if cfg.enabled then .error (.ttlRequired dataset cfg.minTtl cfg.maxTtl) else .ok none
  | some ttl =>
    if !cfg.enabled then .error (.notSupported dataset)
    else if ttl < cfg.minTtl || cfg.maxTtl < ttl then .error (.ttlOutOfRange dataset ttl cfg.minTtl cfg.maxTtl)
    else .ok (some ttl)

theorem validate_pos {cfg : LeaseConfig} {dataset : String} {clientTtl : Option ℤ} {ttl : ℤ}
    (h : validate cfg dataset clientTtl = .ok (some ttl)) : 1 ≤ ttl := by
  unfold validate at h
  split at h
  · split at h <;> simp at h
  · split at h
    · cases h
    split at h
    · cases h
    rename_i granted _ hbounds
    have hgranted : granted = ttl := Option.some.inj (Except.ok.inj h)
    have hmin : cfg.minTtl ≤ granted := by
      by_contra hlt
      exact hbounds (by simp [not_le.mp hlt])
    exact hgranted ▸ cfg.minTtl_pos.trans hmin

/-- A dataset and a service id. -/
abbrev LeaseKey := String × String

/-- The entries with a time to live, with their keys. -/
def persistedLeases (datasets : Dict String Registry) : List (LeaseKey × ℤ) :=
  datasets.rows.flatMap fun p =>
    p.2.entries.rows.filterMap fun e => e.leaseTtl.map fun ttl => ((p.1, e.serviceId), ttl)

/-- `recover_from_persisted`: every entry with a time to live gets a grace period. -/
def recoverFromPersisted (config : String → LeaseConfig) (now : ℚ) (entries : List (LeaseKey × ℤ)) : LeaseTable LeaseKey :=
  (∅ : LeaseTable LeaseKey).insertAll (entries.map fun p => (p.1, Lease.new p.2 (config p.1.1).gracePeriod true now))

end AgentProtocol.Heartbeat
