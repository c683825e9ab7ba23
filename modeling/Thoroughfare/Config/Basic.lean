import Thoroughfare.Decimal.Binary64
import Thoroughfare.Time.Clock

/-!
# Run configuration

The settings of a run, their defaults, and the one check that every run makes before it starts.
-/

namespace Thoroughfare

/-- The settings of a run. -/
structure Config where
  /-- Seconds per step. -/
  stepSecs : Nat
  /-- Into how many partitions the network is split. -/
  partitionCount : Nat
  /-- The second after which a run stops even if agents are still travelling. -/
  maxSecs : Nat
  /-- Factor on the flow capacity of every link. -/
  flowFactor : Float
  /-- Factor on the storage capacity of every link. -/
  storageFactor : Float
  /-- The second of the first step. -/
  startSecs : Nat
  /-- How many workers may be used; the results do not depend on it. -/
  workers : Option Nat
deriving BEq, Repr

/-- Why a configuration is refused. -/
inductive ConfigFault where
  | stepIsZero
  | noPartitions
  | tooManyPartitions (count : Nat)
  | flowFactorNotPositive
  | storageFactorNotPositive
  | endsBeforeStart (maxSecs startSecs : Nat)
  | noWorkers
deriving DecidableEq, Repr

def ConfigFault.message : ConfigFault → String
  | stepIsZero => "time_step_secs must be > 0"
  | noPartitions => "partition_count must be >= 1"
  | tooManyPartitions count =>
      "partition_count " ++ toString count ++ " exceeds 65535"
  | flowFactorNotPositive => "flow_capacity_factor must be a positive number"
  | storageFactorNotPositive => "storage_capacity_factor must be a positive number"
  | endsBeforeStart maxSecs startSecs =>
      "max_sim_time_secs " ++ toString maxSecs ++ " is before start_time_secs " ++
        toString startSecs
  | noWorkers => "num_threads must be >= 1 when set"

namespace Config

/-- Thirty hours in steps of one second, in one partition. -/
def standard : Config where
  stepSecs := 1
  partitionCount := 1
  maxSecs := 30 * 3600
  flowFactor := 1.0
  storageFactor := 1.0
  startSecs := 0
  workers := none

instance : Inhabited Config :=
  ⟨standard⟩

/-- The first fault of a configuration, in the order in which they are looked for. -/
def fault? (c : Config) : Option ConfigFault :=
  if c.stepSecs = 0 then some .stepIsZero
  else if c.partitionCount = 0 then some .noPartitions
  else if 65535 < c.partitionCount then some (.tooManyPartitions c.partitionCount)
  else if !Decimal.isPositive c.flowFactor then some .flowFactorNotPositive
  else if !Decimal.isPositive c.storageFactor then some .storageFactorNotPositive
  else if c.maxSecs < c.startSecs then some (.endsBeforeStart c.maxSecs c.startSecs)
  else if c.workers = some 0 then some .noWorkers
  else none

/-- A configuration without fault. -/
def Valid (c : Config) : Prop :=
  c.fault? = none

instance (c : Config) : Decidable c.Valid :=
  inferInstanceAs (Decidable (c.fault? = none))

/-- The clock of a run, at its first tick. -/
def clock (c : Config) : Clock :=
  .start c.startSecs c.stepSecs

/-- The exact conditions under which a configuration is accepted. -/
theorem valid_iff (c : Config) :
    c.Valid ↔
      0 < c.stepSecs ∧ 0 < c.partitionCount ∧ c.partitionCount ≤ 65535 ∧
        Decimal.isPositive c.flowFactor = true ∧ Decimal.isPositive c.storageFactor = true ∧
        c.startSecs ≤ c.maxSecs ∧ c.workers ≠ some 0 := by
  unfold Valid fault?
  constructor
  · intro h
    repeat' split at h
    all_goals simp_all
    omega
  · rintro ⟨hstep, hparts, hmany, hflow, hstorage, htime, hworkers⟩
    rw [if_neg (by omega), if_neg (by omega), if_neg (by omega), if_neg (by simp [hflow]),
      if_neg (by simp [hstorage]), if_neg (by omega), if_neg hworkers]

theorem Valid.stepSecs_pos {c : Config} (h : c.Valid) : 0 < c.stepSecs :=
  ((valid_iff c).1 h).1

end Config

end Thoroughfare
