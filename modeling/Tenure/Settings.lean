import Tenure.Decimal.Layout
import Tenure.Failure
import Tenure.Word

/-!
# Settings of the collector

Every setting is checked when a heap is built. Values out of range are refused,
never adjusted; the first fault in the order of the checks is the one reported.
-/

set_option autoImplicit false

namespace Tenure

structure Settings where
  /-- Bytes covered by one card, a power of two. -/
  cardSize : UInt64 := 512
  /-- The age at which a young object moves into the old space. -/
  promotionThreshold : UInt8 := 6
  /-- Capacity of eden in bytes. -/
  edenSize : UInt64 := 262144
  /-- Size of eden divided by the size of a survivor space. -/
  survivorRatio : UInt64 := 8
  /-- The fraction of a survivor space that is filled before survivors move into
  the old space early. -/
  survivorOccupancyLimit : Float := 0.9
  /-- First capacity of the old space in bytes. -/
  oldSize : UInt64 := 1048576
  /-- The occupancy of the old space that asks for a major cycle and, after one,
  for more room. -/
  oldGrowthTrigger : Float := 0.75
  /-- Minor cycles between enforced major cycles; zero enforces none. -/
  majorCycleInterval : UInt64 := 0
  /-- Gray objects scanned in one step of marking. -/
  stepBudget : UInt64 := 256
  /-- Whether every trace is checked for broken invariants. -/
  verifyAfterTrace : Bool := true
deriving BEq

def minThreshold : Nat := 2

/-- Causes for which settings are refused. -/
inductive SettingsFault where
  | cardSize (size : UInt64)
  | threshold (value : Nat)
  | edenEmpty
  | ratioZero
  | survivorEmpty (ratio eden : UInt64)
  | survivorLimit (limit : Float)
  | oldEmpty
  | growthTrigger (trigger : Float)
  | noStepBudget
  /-- The text is no document of settings. -/
  | malformed

def fractionMessage (name : String) (value : Float) : String :=
  s!"{name} must be within (0, 1], got {Decimal.plainFormat.write value}"

def SettingsFault.message : SettingsFault → String
  | .cardSize size => s!"card_size must be a power of two, got {size}"
  | .threshold value =>
      s!"promotion_threshold must be within {minThreshold}..={maxAge}, got {value}"
  | .edenEmpty => "eden_size must be non-zero"
  | .ratioZero => "survivor_ratio must be at least 1"
  | .survivorEmpty ratio eden =>
      s!"survivor_ratio {ratio} leaves no survivor space for eden_size {eden}"
  | .survivorLimit limit => fractionMessage "survivor_occupancy_limit" limit
  | .oldEmpty => "old_size must be non-zero"
  | .growthTrigger trigger => fractionMessage "old_growth_trigger" trigger
  | .noStepBudget => "incremental_step_budget must be at least 1"
  | .malformed => "malformed configuration"

def SettingsFault.failure (fault : SettingsFault) : Failure := .configuration fault.message

/-- Whether a threshold lets objects survive at least once and still be promoted. -/
def isThreshold (threshold : Nat) : Bool := minThreshold ≤ threshold && threshold ≤ maxAge

def checkThreshold (threshold : Nat) : Answer Unit :=
  if isThreshold threshold then .ok () else .error (SettingsFault.threshold threshold).failure

def isFraction (value : Float) : Bool := value > 0.0 && value ≤ 1.0

namespace Settings

/-- Capacity of each survivor space; none without a ratio. -/
def survivorSize (settings : Settings) : UInt64 := settings.edenSize / settings.survivorRatio

def fault? (settings : Settings) : Option SettingsFault :=
  if !Word.isPowerOfTwo settings.cardSize.toNat then some (.cardSize settings.cardSize)
  else if !isThreshold settings.promotionThreshold.toNat then
    some (.threshold settings.promotionThreshold.toNat)
  else if settings.edenSize = 0 then some .edenEmpty
  else if settings.survivorRatio = 0 then some .ratioZero
  else if settings.survivorSize = 0 then
    some (.survivorEmpty settings.survivorRatio settings.edenSize)
  else if !isFraction settings.survivorOccupancyLimit then
    some (.survivorLimit settings.survivorOccupancyLimit)
  else if settings.oldSize = 0 then some .oldEmpty
  else if !isFraction settings.oldGrowthTrigger then
    some (.growthTrigger settings.oldGrowthTrigger)
  else if settings.stepBudget = 0 then some .noStepBudget
  else none

def validate (settings : Settings) : Answer Unit :=
  match settings.fault? with
  | some fault => .error fault.failure
  | none => .ok ()

end Settings

end Tenure
