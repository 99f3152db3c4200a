import Tenure.Json.Reader
import Tenure.Settings

/-!
# Settings as documents

Settings are written as an object with one member for each of them. They are read
from such an object, where members may be missing or unknown, or from an array of
the values in their order. Whatever is read is checked like settings of any other
source.
-/

set_option autoImplicit false

namespace Tenure

/-- The settings one by one. -/
inductive Setting where
  | cardSize
  | promotionThreshold
  | edenSize
  | survivorRatio
  | survivorOccupancyLimit
  | oldSize
  | oldGrowthTrigger
  | majorCycleInterval
  | stepBudget
  | verifyAfterTrace
deriving DecidableEq, Repr

namespace Setting

def all : List Setting :=
  [.cardSize, .promotionThreshold, .edenSize, .survivorRatio, .survivorOccupancyLimit, .oldSize,
    .oldGrowthTrigger, .majorCycleInterval, .stepBudget, .verifyAfterTrace]

def key : Setting → String
  | .cardSize => "card_size"
  | .promotionThreshold => "promotion_threshold"
  | .edenSize => "eden_size"
  | .survivorRatio => "survivor_ratio"
  | .survivorOccupancyLimit => "survivor_occupancy_limit"
  | .oldSize => "old_size"
  | .oldGrowthTrigger => "old_growth_trigger"
  | .majorCycleInterval => "major_cycle_interval"
  | .stepBudget => "incremental_step_budget"
  | .verifyAfterTrace => "verify_after_trace"

def ofKey? (name : String) : Option Setting := all.find? fun setting => setting.key = name

def write (settings : Settings) : Setting → Json
  | .cardSize => .ofNat settings.cardSize.toNat
  | .promotionThreshold => .ofNat settings.promotionThreshold.toNat
  | .edenSize => .ofNat settings.edenSize.toNat
  | .survivorRatio => .ofNat settings.survivorRatio.toNat
  | .survivorOccupancyLimit => .ofFloat settings.survivorOccupancyLimit
  | .oldSize => .ofNat settings.oldSize.toNat
  | .oldGrowthTrigger => .ofFloat settings.oldGrowthTrigger
  | .majorCycleInterval => .ofNat settings.majorCycleInterval.toNat
  | .stepBudget => .ofNat settings.stepBudget.toNat
  | .verifyAfterTrace => .bool settings.verifyAfterTrace

def natural? (bound : Nat) : Json → Option Nat
  | .number lexeme => (Json.numeral lexeme).natural?.filter fun value => value < bound
  | _ => none

def word? (value : Json) : Option UInt64 := (natural? Word.limit value).map Nat.toUInt64

def float? : Json → Option Float
  | .number lexeme => (Json.numeral lexeme).quick?
  | _ => none

def bool? : Json → Option Bool
  | .bool value => some value
  | _ => none

def read? (settings : Settings) (value : Json) : Setting → Option Settings
  | .cardSize => (word? value).map ({ settings with cardSize := · })
  | .promotionThreshold =>
      (natural? 256 value).map ({ settings with promotionThreshold := ·.toUInt8 })
  | .edenSize => (word? value).map ({ settings with edenSize := · })
  | .survivorRatio => (word? value).map ({ settings with survivorRatio := · })
  | .survivorOccupancyLimit =>
      (float? value).map ({ settings with survivorOccupancyLimit := · })
  | .oldSize => (word? value).map ({ settings with oldSize := · })
  | .oldGrowthTrigger => (float? value).map ({ settings with oldGrowthTrigger := · })
  | .majorCycleInterval => (word? value).map ({ settings with majorCycleInterval := · })
  | .stepBudget => (word? value).map ({ settings with stepBudget := · })
  | .verifyAfterTrace => (bool? value).map ({ settings with verifyAfterTrace := · })

end Setting

namespace Settings

def toJson (settings : Settings) : Json :=
  .ofFields (Setting.all.map fun setting => (setting.key, setting.write settings))

def write (settings : Settings) : String := settings.toJson.pretty

/-- Reads members one by one; a setting may be given once. -/
def ofMembers? (settings : Settings) (given : List Setting) :
    List (String × Json) → Option Settings
  | [] => some settings
  | (key, value) :: members => do
    let name ← Json.unescape? key
    match Setting.ofKey? name with
    | none => ofMembers? settings given members
    | some setting =>
      if setting ∈ given then none
      else
        let settings ← setting.read? settings value
        ofMembers? settings (setting :: given) members

/-- Reads values in the order of settings; there may be fewer but not more. -/
def ofItems? (settings : Settings) : List Setting → List Json → Option Settings
  | _, [] => some settings
  | [], _ :: _ => none
  | setting :: others, value :: values => do
    let settings ← setting.read? settings value
    ofItems? settings others values

/-- Reads settings; what is not given has its default. -/
def ofJson? : Json → Option Settings
  | .object members => ofMembers? {} [] members
  | .array items => ofItems? {} Setting.all items
  | _ => none

def read (text : String) : Answer Settings := do
  match (Json.read? text).bind ofJson? with
  | none => throw SettingsFault.malformed.failure
  | some settings =>
    settings.validate
    return settings

end Settings

end Tenure
