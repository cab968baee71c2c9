import FaultInjection.Failure.Specification

/-!
The options that an attack kind knows, and the check of given options against them. Options are
checked before an attack is built, so that no attack runs with an option it does not understand.
-/

namespace FaultInjection

inductive OptionType where
  | positiveInteger
  | range (low high : Nat)
  | duration
  | string
  | bool
  deriving DecidableEq, Repr

structure OptionRule where
  name : String
  type : OptionType
  required : Bool
  deriving DecidableEq, Repr

inductive OptionValue where
  | integer (value : Nat)
  | duration (value : Duration)
  | string (value : String)
  | bool (value : Bool)
  deriving DecidableEq

structure Schema where
  kind : String
  rules : List OptionRule
  deriving Repr

abbrev CheckedOptions := Table OptionValue

namespace CheckedOptions

def integer? (options : CheckedOptions) (name : String) : Option Nat :=
  match options.get? name with
  | some (.integer value) => some value
  | _ => none

def duration? (options : CheckedOptions) (name : String) : Option Duration :=
  match options.get? name with
  | some (.duration value) => some value
  | _ => none

def string? (options : CheckedOptions) (name : String) : Option String :=
  match options.get? name with
  | some (.string value) => some value
  | _ => none

def bool? (options : CheckedOptions) (name : String) : Option Bool :=
  match options.get? name with
  | some (.bool value) => some value
  | _ => none

end CheckedOptions

def Yaml.Value.description : Yaml.Value → String
  | .null => "null"
  | .bool _ => "a boolean"
  | .float _ => "a float"
  | .integer _ => "a number"
  | .string _ => "a string"
  | .sequence _ => "a list"
  | .mapping _ => "a map"
  | .tagged _ _ => "a tagged value"

namespace OptionType

def check : OptionType → Yaml.Value → Except String OptionValue
  | positiveInteger, .integer value =>
      if 0 < value then .ok (.integer value.toNat)
      else .error s!"must be greater than zero, got {value}"
  | positiveInteger, other => .error s!"expected an integer, got {other.description}"
  | range low high, .integer value =>
      if low ≤ value ∧ value ≤ high then .ok (.integer value.toNat)
      else .error s!"must be within {low}..={high}, got {value}"
  | range _ _, other => .error s!"expected an integer, got {other.description}"
  | duration, .string text =>
      match Duration.ofText text with
      | .ok value => .ok (.duration value)
      | .error error => .error error.message
  | duration, other => .error s!"expected a duration string, got {other.description}"
  | string, .string text => .ok (.string text)
  | string, other => .error s!"expected a string, got {other.description}"
  | bool, .bool value => .ok (.bool value)
  | bool, other => .error s!"expected a boolean, got {other.description}"

end OptionType

namespace OptionRule

/-- The checked value of this option. An option that is null counts as left out. -/
def value? (kind : String) (options : Options) (rule : OptionRule) :
    Except Error (Option OptionValue) :=
  let left : Except Error (Option OptionValue) :=
    if rule.required then .error (.invalidOption kind rule.name "missing required option")
    else .ok none
  match options.get? rule.name with
  | none => left
  | some .null => left
  | some value =>
      match rule.type.check value with
      | .ok checked => .ok (some checked)
      | .error reason => .error (.invalidOption kind rule.name reason)

end OptionRule

namespace Schema

def knows (schema : Schema) (name : String) : Bool := schema.rules.any (·.name = name)

def checkRules (kind : String) (options : Options) :
    List OptionRule → CheckedOptions → Except Error CheckedOptions
  | [], checked => .ok checked
  | rule :: rest, checked =>
      match rule.value? kind options with
      | .error error => .error error
      | .ok none => checkRules kind options rest checked
      | .ok (some value) => checkRules kind options rest (checked.put rule.name value)

/-- Checks options: none may be unknown, and then all must satisfy their rules. -/
def check (schema : Schema) (options : Option Options) : Except Error CheckedOptions :=
  let given := options.getD []
  match given.keys.find? fun name => !schema.knows name with
  | some name => .error (.invalidOption schema.kind name "unknown option")
  | none => checkRules schema.kind given schema.rules []

def PositiveAt (name : String) (checked : CheckedOptions) : Prop :=
  ∀ number, checked.integer? name = some number → 0 < number

theorem check_positiveInteger (value : Yaml.Value) (checked : OptionValue)
    (passed : OptionType.positiveInteger.check value = .ok checked) :
    ∃ number, checked = .integer number ∧ 0 < number := by
  cases value with
  | integer value =>
      simp only [OptionType.check] at passed
      split at passed
      next positive =>
        cases passed
        exact ⟨value.toNat, rfl, by omega⟩
      next => cases passed
  | _ => cases passed

theorem value?_positive (kind : String) (options : Options) (rule : OptionRule)
    (typed : rule.type = .positiveInteger) (checked : OptionValue)
    (passed : rule.value? kind options = .ok (some checked)) :
    ∃ number, checked = .integer number ∧ 0 < number := by
  simp only [OptionRule.value?, typed] at passed
  split at passed
  next => split at passed <;> cases passed
  next => split at passed <;> cases passed
  next value _ _ =>
    split at passed
    next found read =>
      cases passed
      exact check_positiveInteger value _ read
    next => cases passed

theorem put_positiveAt (name other : String) (checked : CheckedOptions) (value : OptionValue)
    (positive : PositiveAt name checked)
    (fresh : other = name → ∃ number, value = .integer number ∧ 0 < number) :
    PositiveAt name (checked.put other value) := by
  intro number found
  simp only [CheckedOptions.integer?, Table.get?_put] at found
  by_cases same : other = name
  · obtain ⟨known, rfl, above⟩ := fresh same
    simp only [same, ↓reduceIte, Option.some.injEq] at found
    omega
  · simp only [same, ↓reduceIte] at found
    exact positive number found

/-- An option that every rule for its name holds to be a positive integer is one. -/
theorem checkRules_positive (kind : String) (options : Options) (name : String)
    (rules : List OptionRule) (checked result : CheckedOptions)
    (typed : ∀ rule ∈ rules, rule.name = name → rule.type = .positiveInteger)
    (positive : PositiveAt name checked)
    (passed : checkRules kind options rules checked = .ok result) : PositiveAt name result := by
  induction rules generalizing checked with
  | nil => cases passed; exact positive
  | cons rule rest ih =>
      have restTyped : ∀ rule ∈ rest, rule.name = name → rule.type = .positiveInteger :=
        fun later member => typed later (List.mem_cons_of_mem rule member)
      simp only [checkRules] at passed
      cases read : rule.value? kind options with
      | error error =>
          rw [read] at passed
          cases passed
      | ok found =>
          rw [read] at passed
          cases found with
          | none => exact ih checked restTyped positive passed
          | some value =>
              apply ih (checked.put rule.name value) restTyped _ passed
              apply put_positiveAt name rule.name checked value positive
              intro same
              exact value?_positive kind options rule (typed rule List.mem_cons_self same) value
                read

theorem check_positive (schema : Schema) (options : Option Options) (name : String)
    (typed : ∀ rule ∈ schema.rules, rule.name = name → rule.type = .positiveInteger)
    (checked : CheckedOptions) (passed : schema.check options = .ok checked) :
    PositiveAt name checked := by
  simp only [check] at passed
  split at passed
  · cases passed
  · exact checkRules_positive schema.kind _ name schema.rules [] checked typed
      (fun number found => by cases found) passed

end Schema

end FaultInjection
