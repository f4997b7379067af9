import AssetHierarchy.Config.ApiVersion
import AssetHierarchy.Config.BaseUrl
import AssetHierarchy.Config.Credentials

/-! The settings of a client. A draft holds what the caller gave; `build` fills in the defaults and
checks the limits, which every configuration then satisfies. -/
namespace AssetHierarchy

/-- The most items the service takes in one create or update request. -/
def maxCreateLimit : UInt64 := 1000

structure Config where
  project : ProjectName
  token : ApiToken
  clientName : ClientName
  baseUrl : BaseUrl
  apiVersion : ApiVersion
  /-- How many requests may be under way at once. -/
  maxWorkers : UInt64
  /-- How long a reply is waited for, in milliseconds. -/
  timeout : UInt64
  /-- How often a request is made while the service asks to try again. -/
  maxTries : UInt32
  /-- How many items one create or update request holds at most. -/
  createLimit : UInt64
  one_le_maxWorkers : 1 ≤ maxWorkers
  one_le_maxTries : 1 ≤ maxTries
  one_le_createLimit : 1 ≤ createLimit
  createLimit_le : createLimit ≤ maxCreateLimit

namespace Config

structure Draft where
  project : Option ProjectName := none
  token : Option ApiToken := none
  clientName : Option ClientName := none
  baseUrl : Option BaseUrl := none
  apiVersion : Option ApiVersion := none
  maxWorkers : Option UInt64 := none
  timeout : Option UInt64 := none
  maxTries : Option UInt32 := none
  createLimit : Option UInt64 := none

def defaultMaxWorkers : UInt64 := 10

def defaultTimeout : UInt64 := 30000

def require {α : Type} (field : String) : Option α → Except ConfigError α
  | none => .error (.missingField field)
  | some a => .ok a

/-- A number of tries below one counts as one. -/
def atLeastOne (tries : UInt32) : UInt32 :=
  if tries = 0 then 1 else tries

theorem one_le_atLeastOne (tries : UInt32) : 1 ≤ atLeastOne tries := by
  unfold atLeastOne
  split
  · exact UInt32.le_refl 1
  · next h =>
    have hn : tries.toNat ≠ 0 := fun h0 => h (UInt32.toNat_inj.mp h0)
    exact UInt32.le_iff_toNat_le.mpr (Nat.one_le_iff_ne_zero.mpr hn)

theorem one_le_of_ne_zero {n : UInt64} (h : n ≠ 0) : 1 ≤ n := by
  have hn : n.toNat ≠ 0 := fun h0 => h (UInt64.toNat_inj.mp h0)
  exact UInt64.le_iff_toNat_le.mpr (Nat.one_le_iff_ne_zero.mpr hn)

/-- Missing fields are reported first, then the number of workers, then the limit. -/
def Draft.build (d : Draft) : Except ConfigError Config := do
  let project ← require "project" d.project
  let token ← require "token" d.token
  let clientName ← require "client_name" d.clientName
  let maxWorkers := d.maxWorkers.getD defaultMaxWorkers
  let createLimit := d.createLimit.getD maxCreateLimit
  if hw : maxWorkers = 0 then .error (.invalidMaxWorkers maxWorkers)
  else if hc : 1 ≤ createLimit ∧ createLimit ≤ maxCreateLimit then
    .ok {
      project, token, clientName, maxWorkers, createLimit
      baseUrl := d.baseUrl.getD .default
      apiVersion := d.apiVersion.getD .v1
      timeout := d.timeout.getD defaultTimeout
      maxTries := atLeastOne (d.maxTries.getD 1)
      one_le_maxWorkers := one_le_of_ne_zero hw
      one_le_maxTries := one_le_atLeastOne _
      one_le_createLimit := hc.1
      createLimit_le := hc.2 }
  else .error (.invalidLimit "create_limit" createLimit maxCreateLimit)

end Config

end AssetHierarchy
