import Tenure.Proofs.Decimal.Layout
import Tenure.Proofs.Json.Writing
import Tenure.Settings.Document

/-!
# Settings survive being written

Written settings are an object with one member for each of them, so they are read one by one
again. Whole numbers come back from their digits. A float comes back if its text does; one that
is no number is written as null, and settings with null for a float are malformed. What is read
is checked like the settings that were written.
-/

set_option autoImplicit false

namespace Tenure

/-! ## Null in the place of a number -/

namespace Json

/-- A value as it is found in a written document: the lexeme of a float that is no number
reads null. -/
def found : Json → Json
  | .number lexeme => if lexeme = "null" then .null else .number lexeme
  | value => value

theorem prettyOnto_found (written : String) (depth : Nat) (value : Json) :
    prettyOnto written depth value.found = prettyOnto written depth value := by
  cases value with
  | number lexeme =>
      rw [found]
      split
      · rename_i null
        subst null
        rfl
      · rfl
  | _ => rfl

theorem prettyMembers_found (written : String) (depth : Nat) (members : List (String × Json)) :
    prettyMembers written depth (members.map fun member => (member.1, member.2.found)) =
      prettyMembers written depth members := by
  induction members generalizing written with
  | nil => rfl
  | cons member members ih =>
      simp only [List.map_cons, prettyMembers, prettyOnto_found, ih]

theorem pretty_found (members : List (String × Json)) :
    (object (members.map fun member => (member.1, member.2.found))).pretty =
      (object members).pretty := by
  cases members with
  | nil => rfl
  | cons member members =>
      simp only [List.map_cons, pretty, prettyOnto, prettyOnto_found, prettyMembers_found]

theorem found_of_isNumber {lexeme : String} (isNumber : IsNumber lexeme.toList) :
    (number lexeme).found = .number lexeme := by
  refine if_neg fun null => ?_
  subst null
  obtain ⟨first, others, split, starts⟩ := isNumber.exists_first
  cases split
  rcases starts with minus | digit
  · cases minus
  · cases digit

theorem found_ofNat (number : Nat) : (ofNat number).found = ofNat number :=
  found_of_isNumber (isNumber_toString number)

theorem found_ofFloat (value : Float) :
    (ofFloat value).found = if value.isFinite = true then ofFloat value else .null := by
  split
  · rename_i finite
    exact found_of_isNumber (Decimal.isNumber_write finite)
  · rename_i infinite
    rw [ofFloat, Decimal.write_of_not_finite (Bool.not_eq_true _ ▸ infinite)]
    rfl

end Json

/-! ## One setting -/

namespace Setting

theorem isString_key (setting : Setting) : Json.IsString setting.key := by
  cases setting <;> rfl

theorem unescape?_key (setting : Setting) : Json.unescape? setting.key = some setting.key := by
  cases setting <;> rfl

theorem ofKey?_key (setting : Setting) : ofKey? setting.key = some setting := by
  cases setting <;> decide

theorem readable_found_ofFloat (value : Float) : (Json.ofFloat value).found.Readable := by
  rw [Json.found_ofFloat]
  split
  · rename_i finite
    exact Decimal.isNumber_write finite
  · trivial

theorem readable_found (settings : Settings) (setting : Setting) :
    (setting.write settings).found.Readable := by
  have naturals (number : Nat) : (Json.ofNat number).found.Readable := by
    rw [Json.found_ofNat]
    exact Json.isNumber_toString number
  cases setting with
  | survivorOccupancyLimit => exact readable_found_ofFloat _
  | oldGrowthTrigger => exact readable_found_ofFloat _
  | verifyAfterTrace => trivial
  | _ => exact naturals _

theorem natural?_ofNat {bound number : Nat} (below : number < bound) :
    natural? bound (Json.ofNat number).found = some number := by
  rw [Json.found_ofNat, Json.ofNat, natural?, Json.natural?_toString]
  simp [Option.filter, below]

theorem word?_ofNat (word : UInt64) : word? (Json.ofNat word.toNat).found = some word := by
  have below : word.toNat < Word.limit := word.toNat_lt
  rw [word?, natural?_ofNat below]
  simp

/-- The text of a float is read as the same float. -/
def ReadsBack (value : Float) : Prop := float? (Json.ofFloat value) = some value

theorem float?_found (value : Float) : float? (Json.ofFloat value).found =
    if value.isFinite = true then float? (Json.ofFloat value) else none := by
  rw [Json.found_ofFloat]
  split
  · rfl
  · rfl

end Setting

/-! ## All settings -/

namespace Settings

/-- Members under the keys of different settings are read one by one. -/
theorem ofMembers?_eq_foldlM (value : Setting → Json) {rest given : List Setting}
    (distinct : rest.Nodup) (apart : ∀ setting ∈ rest, setting ∉ given) (current : Settings) :
    current.ofMembers? given (rest.map fun setting => (setting.key, value setting)) =
      rest.foldlM (fun current setting => setting.read? current (value setting)) current := by
  induction rest generalizing given current with
  | nil => rfl
  | cons setting rest ih =>
      obtain ⟨unlisted, distinct⟩ := List.nodup_cons.mp distinct
      rw [List.map_cons, ofMembers?, Setting.unescape?_key]
      simp only [Option.bind_eq_bind, Option.bind_some, Setting.ofKey?_key,
        if_neg (apart setting List.mem_cons_self), List.foldlM_cons]
      refine congrArg _ (funext fun next => ih distinct (fun other member => ?_) next)
      rw [List.mem_cons, not_or]
      refine ⟨?_, apart other (List.mem_cons_of_mem _ member)⟩
      rintro rfl
      exact unlisted member

/-- The document that written settings are found to be. -/
def document (settings : Settings) : Json :=
  .object (Setting.all.map fun setting => (setting.key, (setting.write settings).found))

theorem read?_write (settings : Settings) : Json.read? settings.write = some settings.document := by
  have members : (Setting.all.map fun setting => (setting.key, setting.write settings)).map
      (fun member => (member.1, member.2.found)) =
        Setting.all.map fun setting => (setting.key, (setting.write settings).found) := by
    rw [List.map_map]
    rfl
  have readable (rest : List Setting) : Json.ReadableMembers
      (rest.map fun setting => (setting.key, (setting.write settings).found)) := by
    induction rest with
    | nil => trivial
    | cons setting rest ih => exact ⟨setting.isString_key, setting.readable_found settings, ih⟩
  rw [write, toJson, Json.ofFields, ← Json.pretty_found, members]
  exact Json.read?_pretty (readable Setting.all)

/-- All settings but the two floats are read as they were, and the floats as their texts. -/
theorem ofJson?_document (settings : Settings) : ofJson? settings.document = do
    let limit ← Setting.float? (Json.ofFloat settings.survivorOccupancyLimit).found
    let trigger ← Setting.float? (Json.ofFloat settings.oldGrowthTrigger).found
    return { settings with survivorOccupancyLimit := limit, oldGrowthTrigger := trigger } := by
  rw [document, ofJson?, ofMembers?_eq_foldlM _ (by decide) (by simp)]
  have threshold : Setting.natural? 256 (Json.ofNat settings.promotionThreshold.toNat).found =
      some settings.promotionThreshold.toNat :=
    Setting.natural?_ofNat settings.promotionThreshold.toNat_lt
  have verified : Setting.bool? (Json.bool settings.verifyAfterTrace).found =
      some settings.verifyAfterTrace := rfl
  simp only [Setting.all, List.foldlM_cons, List.foldlM_nil, Setting.read?, Setting.write,
    Setting.word?_ofNat, threshold, verified, Option.map_some, Option.bind_eq_bind,
    Option.bind_some]
  cases Setting.float? (Json.ofFloat settings.survivorOccupancyLimit).found with
  | none => rfl
  | some limit =>
      cases Setting.float? (Json.ofFloat settings.oldGrowthTrigger).found with
      | none => rfl
      | some trigger => simp

/-- Both floats are numbers. -/
def FiniteFloats (settings : Settings) : Prop :=
  settings.survivorOccupancyLimit.isFinite = true ∧ settings.oldGrowthTrigger.isFinite = true

/-- The text of each float is read as the same float. -/
def FloatsReadBack (settings : Settings) : Prop :=
  Setting.ReadsBack settings.survivorOccupancyLimit ∧ Setting.ReadsBack settings.oldGrowthTrigger

theorem reread_of_finite {settings : Settings} (finite : settings.FiniteFloats)
    (back : settings.FloatsReadBack) : ofJson? settings.document = some settings := by
  rw [ofJson?_document, Setting.float?_found, Setting.float?_found, if_pos finite.1,
    if_pos finite.2, back.1, back.2]
  rfl

theorem reread_of_not_finite {settings : Settings} (infinite : ¬ settings.FiniteFloats) :
    ofJson? settings.document = none := by
  rw [ofJson?_document, Setting.float?_found, Setting.float?_found]
  by_cases finite : settings.survivorOccupancyLimit.isFinite = true
  · rw [if_neg fun trigger => infinite ⟨finite, trigger⟩]
    cases if settings.survivorOccupancyLimit.isFinite = true then
        Setting.float? (Json.ofFloat settings.survivorOccupancyLimit) else none with
    | none => rfl
    | some limit => rfl
  · rw [if_neg finite]
    rfl

theorem read_write_of_finite {settings : Settings} (finite : settings.FiniteFloats)
    (back : settings.FloatsReadBack) : read settings.write = (do
      settings.validate
      return settings) := by
  rw [read, read?_write, Option.bind_some, reread_of_finite finite back]

theorem read_write_of_not_finite {settings : Settings} (infinite : ¬ settings.FiniteFloats) :
    read settings.write = .error SettingsFault.malformed.failure := by
  rw [read, read?_write, Option.bind_some, reread_of_not_finite infinite]
  rfl

/-- Settings that are written are read as the same settings or refused for what is wrong with
them. Where a float is no number they are malformed. So they are never read as other ones. -/
theorem write_reads_back (settings : Settings)
    (back : settings.FiniteFloats → settings.FloatsReadBack) :
    (settings.FiniteFloats → (settings.validate = .ok () → read settings.write = .ok settings) ∧
      ∀ failure, settings.validate = .error failure → read settings.write = .error failure) ∧
    (¬ settings.FiniteFloats →
      read settings.write = .error SettingsFault.malformed.failure) ∧
    ∀ other, read settings.write = .ok other → other = settings := by
  refine ⟨fun finite => ?_, read_write_of_not_finite, fun other accepted => ?_⟩
  · rw [read_write_of_finite finite (back finite)]
    refine ⟨fun valid => ?_, fun failure refused => ?_⟩
    · rw [valid]
      rfl
    · rw [refused]
      rfl
  · by_cases finite : settings.FiniteFloats
    · rw [read_write_of_finite finite (back finite)] at accepted
      cases checked : settings.validate with
      | error failure =>
          rw [checked] at accepted
          cases accepted
      | ok =>
          rw [checked] at accepted
          cases accepted
          rfl
    · rw [read_write_of_not_finite finite] at accepted
      cases accepted

/-- Settings with the greatest words and small floats that are written as powers of ten. -/
def extremeSettings : Settings :=
  { cardSize := 9223372036854775808
    edenSize := 18446744073709551615
    survivorOccupancyLimit := 5e-324
    oldGrowthTrigger := 1e-7
    majorCycleInterval := 18446744073709551615 }

theorem write_reads_back_when_extreme :
    (extremeSettings.FiniteFloats ∧ extremeSettings.FloatsReadBack) ∧
      read extremeSettings.write = .ok extremeSettings ∧
      read { extremeSettings with promotionThreshold := 255 }.write =
        .error (SettingsFault.threshold 255).failure ∧
      read { extremeSettings with oldGrowthTrigger := 0.0 / 0.0 }.write =
        .error SettingsFault.malformed.failure := by
  have finite : extremeSettings.FiniteFloats := ⟨by decide +kernel, by decide +kernel⟩
  have limit : Setting.float? (Json.ofFloat 5e-324) = some 5e-324 := by decide +kernel
  have trigger : Setting.float? (Json.ofFloat 1e-7) = some 1e-7 := by decide +kernel
  have back : extremeSettings.FloatsReadBack := ⟨limit, trigger⟩
  refine ⟨⟨finite, back⟩, ?_, ?_, ?_⟩
  · have faultless : extremeSettings.fault?.isNone = true := by decide +kernel
    have valid : extremeSettings.validate = .ok () := by
      rw [validate, Option.isNone_iff_eq_none.mp faultless]
    exact ((write_reads_back extremeSettings fun _ => back).1 finite).1 valid
  · have refused : { extremeSettings with promotionThreshold := 255 }.validate =
        .error (SettingsFault.threshold 255).failure := rfl
    exact ((write_reads_back { extremeSettings with promotionThreshold := 255 }
      fun _ => back).1 finite).2 _ refused
  · have infinite : ¬ { extremeSettings with oldGrowthTrigger := 0.0 / 0.0 }.FiniteFloats :=
      fun both => absurd both.2 (by decide +kernel)
    exact (write_reads_back { extremeSettings with oldGrowthTrigger := 0.0 / 0.0 }
      fun both => absurd both infinite).2.1 infinite

end Settings

end Tenure
