import FaultInjection.Attack.Schema
import FaultInjection.Proofs.Outcome

/-!
Which options pass a schema, what is kept of them, and which option is blamed if they do not pass.
The schema is a table of rules; whether options satisfy it is said here rule by rule, without the
order in which they are checked, and only the blame depends on that order.
-/

namespace FaultInjection

inductive OptionType.Reads : OptionType → Yaml.Value → OptionValue → Prop
  | positive (number : Nat) (positive : 0 < number) :
      Reads .positiveInteger (.integer number) (.integer number)
  | within (low high number : Nat) (least : low ≤ number) (most : number ≤ high) :
      Reads (.range low high) (.integer number) (.integer number)
  | duration (text : String) (length : Duration) (spelled : Duration.parse? text = some length) :
      Reads .duration (.string text) (.duration length)
  | string (text : String) : Reads .string (.string text) (.string text)
  | bool (flag : Bool) : Reads .bool (.bool flag) (.bool flag)

def OptionType.IsInteger : OptionType → Prop
  | positiveInteger => True
  | range _ _ => True
  | _ => False

/-- The value of an option, if it is given one. An option that is null counts as left out. -/
def Options.given? (options : Options) (name : String) : Option Yaml.Value :=
  match options.get? name with
  | some .null => none
  | found => found

structure OptionRule.Satisfied (rule : OptionRule) (options : Options) : Prop where
  present : rule.required = true → (options.given? rule.name).isSome = true
  typed : ∀ value, options.given? rule.name = some value →
    ∃ checked, rule.type.Reads value checked

inductive OptionRule.Complains (rule : OptionRule) (options : Options) : String → Prop
  | missing (absent : options.given? rule.name = none) (required : rule.required = true) :
      Complains rule options "missing required option"
  | unfit (value : Yaml.Value) (reason : String) (given : options.given? rule.name = some value)
      (refused : rule.type.check value = .error reason) : Complains rule options reason

/-! One option -/

theorem OptionType.check_eq_ok_iff (type : OptionType) (value : Yaml.Value)
    (checked : OptionValue) : type.check value = .ok checked ↔ type.Reads value checked := by
  constructor
  · intro passed
    cases type with
    | positiveInteger =>
        cases value with
        | integer number =>
            simp only [check] at passed
            split at passed
            next above =>
              cases passed
              obtain ⟨natural, rfl⟩ := Int.eq_ofNat_of_zero_le (Int.le_of_lt above)
              exact .positive natural (by omega)
            next => cases passed
        | _ => cases passed
    | range low high =>
        cases value with
        | integer number =>
            simp only [check] at passed
            split at passed
            next between =>
              cases passed
              obtain ⟨natural, rfl⟩ := Int.eq_ofNat_of_zero_le (by omega : 0 ≤ number)
              exact .within low high natural (by omega) (by omega)
            next => cases passed
        | _ => cases passed
    | duration =>
        cases value with
        | string text =>
            simp only [check, Duration.ofText] at passed
            cases spelled : Duration.parse? text with
            | none =>
                rw [spelled] at passed
                cases passed
            | some length =>
                rw [spelled] at passed
                cases passed
                exact .duration text length spelled
        | _ => cases passed
    | string =>
        cases value with
        | string text =>
            cases passed
            exact .string text
        | _ => cases passed
    | bool =>
        cases value with
        | bool flag =>
            cases passed
            exact .bool flag
        | _ => cases passed
  · intro read
    cases read with
    | positive number positive => simp [check, Nat.ne_of_gt positive]
    | within low high number least most => simp [check, least, most]
    | duration text length spelled => simp [check, Duration.ofText, spelled]
    | string text => rfl
    | bool flag => rfl

theorem OptionType.Reads.unique {type : OptionType} {value : Yaml.Value}
    {first second : OptionValue} (one : type.Reads value first) (other : type.Reads value second) :
    first = second :=
  Except.ok.inj (((type.check_eq_ok_iff value first).mpr one).symm.trans
    ((type.check_eq_ok_iff value second).mpr other))

theorem Options.given?_eq_some_iff (options : Options) (name : String) (value : Yaml.Value) :
    options.given? name = some value ↔ options.get? name = some value ∧ value ≠ .null := by
  unfold given?
  cases found : options.get? name with
  | none => simp
  | some there => cases there <;> simp <;> rintro rfl <;> simp

namespace OptionRule

theorem value?_eq (kind : String) (options : Options) (rule : OptionRule) :
    rule.value? kind options =
      match options.given? rule.name with
      | none =>
          if rule.required then .error (.invalidOption kind rule.name "missing required option")
          else .ok none
      | some value =>
          match rule.type.check value with
          | .ok checked => .ok (some checked)
          | .error reason => .error (.invalidOption kind rule.name reason) := by
  unfold value? Options.given?
  cases options.get? rule.name with
  | none => rfl
  | some value => cases value <;> rfl

/-- An option passes with what its value comes to, or with nothing if it may be left out. -/
inductive Passes (rule : OptionRule) (options : Options) : Option OptionValue → Prop
  | leftOut (absent : options.given? rule.name = none) (optional : rule.required = false) :
      Passes rule options none
  | given (value : Yaml.Value) (checked : OptionValue)
      (found : options.given? rule.name = some value) (read : rule.type.Reads value checked) :
      Passes rule options (some checked)

inductive Verdict (kind : String) (rule : OptionRule) (options : Options) :
    Except Error (Option OptionValue) → Prop
  | passed (found : Option OptionValue) (passes : rule.Passes options found) :
      Verdict kind rule options (.ok found)
  | refused (reason : String) (complaint : rule.Complains options reason) :
      Verdict kind rule options (.error (.invalidOption kind rule.name reason))

theorem value?_verdict (kind : String) (options : Options) (rule : OptionRule) :
    Verdict kind rule options (rule.value? kind options) := by
  rw [value?_eq]
  cases given : options.given? rule.name with
  | none =>
      cases required : rule.required with
      | true => exact .refused _ (.missing given required)
      | false => exact .passed none (.leftOut given required)
  | some value =>
      dsimp only
      cases read : rule.type.check value with
      | ok checked =>
          exact .passed _ (.given value checked given ((rule.type.check_eq_ok_iff _ _).mp read))
      | error reason => exact .refused reason (.unfit value reason given read)

theorem Passes.satisfied {rule : OptionRule} {options : Options} {found : Option OptionValue}
    (passes : rule.Passes options found) : rule.Satisfied options := by
  cases passes with
  | leftOut absent optional => exact ⟨by simp [optional], by simp [absent]⟩
  | given value checked found read =>
      refine ⟨fun _ => by rw [found]; rfl, fun other same => ?_⟩
      cases found.symm.trans same
      exact ⟨checked, read⟩

theorem Complains.unsatisfied {rule : OptionRule} {options : Options} {reason : String}
    (complaint : rule.Complains options reason) : ¬ rule.Satisfied options := by
  intro satisfied
  cases complaint with
  | missing absent required =>
      have present := satisfied.present required
      rw [absent] at present
      cases present
  | unfit value reason given refused =>
      obtain ⟨checked, read⟩ := satisfied.typed value given
      cases refused.symm.trans ((rule.type.check_eq_ok_iff value checked).mpr read)

theorem Passes.unique {rule : OptionRule} {options : Options} {first second : Option OptionValue}
    (one : rule.Passes options first) (other : rule.Passes options second) : first = second := by
  cases one with
  | leftOut absent optional =>
      cases other with
      | leftOut => rfl
      | given value checked found read => cases absent.symm.trans found
  | given value checked found read =>
      cases other with
      | leftOut absent optional => cases absent.symm.trans found
      | given same second again reread =>
          cases found.symm.trans again
          rw [read.unique reread]

end OptionRule

/-! All options -/

namespace Schema

structure Admits (schema : Schema) (options : Options) : Prop where
  known : ∀ name ∈ options.keys, ∃ rule ∈ schema.rules, rule.name = name
  satisfied : ∀ rule ∈ schema.rules, rule.Satisfied options

/-- What is kept of options that passed, and what each reader of it finds. -/
structure Keeps (schema : Schema) (options : Options) (checked : CheckedOptions) : Prop where
  ordered : checked.Ordered
  names : ∀ name, name ∈ checked.keys ↔ (options.given? name).isSome = true
  values : ∀ name value, checked.get? name = some value ↔
    ∃ rule ∈ schema.rules, rule.name = name ∧ rule.Passes options (some value)
  integers : ∀ name number, checked.integer? name = some number ↔
    options.get? name = some (.integer number) ∧
      ∃ rule ∈ schema.rules, rule.name = name ∧ rule.type.IsInteger
  durations : ∀ name length, checked.duration? name = some length ↔
    (∃ text, options.get? name = some (.string text) ∧ Duration.parse? text = some length) ∧
      ∃ rule ∈ schema.rules, rule.name = name ∧ rule.type = .duration
  strings : ∀ name text, checked.string? name = some text ↔
    options.get? name = some (.string text) ∧
      ∃ rule ∈ schema.rules, rule.name = name ∧ rule.type = .string
  bools : ∀ name flag, checked.bool? name = some flag ↔
    options.get? name = some (.bool flag) ∧
      ∃ rule ∈ schema.rules, rule.name = name ∧ rule.type = .bool
  /-- A number that was given in 64 bits is kept in 64 bits. -/
  narrow : ∀ name number, checked.integer? name = some number →
    (∀ given, options.get? name = some (.integer given) → given < 18446744073709551616) →
      (UInt64.ofNat number).toNat = number

/-- The error that options are refused with: the least name that no rule has is to blame, and if
there is none, the first rule that is not satisfied. -/
inductive Refuses (schema : Schema) (options : Options) : Error → Prop
  | unknown (name : String) (given : name ∈ options.keys)
      (strange : ∀ rule ∈ schema.rules, rule.name ≠ name)
      (least : ∀ other ∈ options.keys, (∀ rule ∈ schema.rules, rule.name ≠ other) →
        other = name ∨ name < other) :
      Refuses schema options (.invalidOption schema.kind name "unknown option")
  | offending (known : ∀ name ∈ options.keys, ∃ rule ∈ schema.rules, rule.name = name)
      (before after : List OptionRule) (rule : OptionRule) (reason : String)
      (place : schema.rules = before ++ rule :: after)
      (first : ∀ earlier ∈ before, earlier.Satisfied options)
      (complaint : rule.Complains options reason) :
      Refuses schema options (.invalidOption schema.kind rule.name reason)

theorem knows_iff (schema : Schema) (name : String) :
    schema.knows name = true ↔ ∃ rule ∈ schema.rules, rule.name = name := by
  simp [knows]

inductive Verdict (kind : String) (options : Options) (rules : List OptionRule) :
    Except Error CheckedOptions → Prop
  | passed (result : CheckedOptions) (satisfied : ∀ rule ∈ rules, rule.Satisfied options) :
      Verdict kind options rules (.ok result)
  | refused (before after : List OptionRule) (rule : OptionRule) (reason : String)
      (place : rules = before ++ rule :: after)
      (first : ∀ earlier ∈ before, earlier.Satisfied options)
      (complaint : rule.Complains options reason) :
      Verdict kind options rules (.error (.invalidOption kind rule.name reason))

theorem Verdict.cons {kind : String} {options : Options} {rule : OptionRule}
    {rest : List OptionRule} {outcome : Except Error CheckedOptions}
    (satisfied : rule.Satisfied options) (verdict : Verdict kind options rest outcome) :
    Verdict kind options (rule :: rest) outcome := by
  cases verdict with
  | passed result others => exact .passed result (List.forall_mem_cons.mpr ⟨satisfied, others⟩)
  | refused before after blamed reason place first complaint =>
      exact .refused (rule :: before) after blamed reason (by rw [place]; rfl)
        (List.forall_mem_cons.mpr ⟨satisfied, first⟩) complaint

theorem checkRules_verdict (kind : String) (options : Options) (rules : List OptionRule)
    (checked : CheckedOptions) :
    Verdict kind options rules (checkRules kind options rules checked) := by
  induction rules generalizing checked with
  | nil => exact .passed checked (List.forall_mem_nil _)
  | cons rule rest ih =>
      have verdict := rule.value?_verdict kind options
      unfold checkRules
      generalize rule.value? kind options = outcome at verdict
      cases verdict with
      | refused reason complaint =>
          exact .refused [] rest rule reason rfl (List.forall_mem_nil _) complaint
      | passed found passes =>
          cases found with
          | none => exact (ih checked).cons passes.satisfied
          | some value => exact (ih (checked.put rule.name value)).cons passes.satisfied

theorem checkRules_ordered (kind : String) (options : Options) (rules : List OptionRule)
    (checked result : CheckedOptions) (ordered : checked.Ordered)
    (passed : checkRules kind options rules checked = .ok result) : result.Ordered := by
  induction rules generalizing checked with
  | nil =>
      cases passed
      exact ordered
  | cons rule rest ih =>
      unfold checkRules at passed
      split at passed
      · cases passed
      · exact ih checked ordered passed
      next value _ => exact ih _ (checked.put_ordered rule.name value ordered) passed

/-- After all rules a name has the value that its rule found, or else the one that it had. -/
theorem checkRules_get? (kind : String) (options : Options) (rules : List OptionRule)
    (checked result : CheckedOptions) (distinct : (rules.map (·.name)).Nodup)
    (passed : checkRules kind options rules checked = .ok result) (name : String)
    (value : OptionValue) :
    result.get? name = some value ↔
      (∃ rule ∈ rules, rule.name = name ∧ rule.Passes options (some value)) ∨
      (∀ rule ∈ rules, rule.name = name → rule.Passes options none) ∧
        checked.get? name = some value := by
  induction rules generalizing checked with
  | nil =>
      cases passed
      simp
  | cons rule rest ih =>
      obtain ⟨fresh, others⟩ := List.nodup_cons.mp distinct
      have apart : ∀ later ∈ rest, later.name ≠ rule.name := fun later member same =>
        fresh (List.mem_map.mpr ⟨later, member, same⟩)
      have verdict := rule.value?_verdict kind options
      unfold checkRules at passed
      generalize rule.value? kind options = outcome at passed verdict
      cases verdict with
      | refused reason complaint => cases passed
      | passed found passes =>
          -- no later rule has this name, so that what is found here is not put over again
          have only : ∀ other, rule.Passes options other → other = found := fun other also =>
            also.unique passes
          cases found with
          | none =>
              rw [ih checked others passed]
              grind
          | some first =>
              rw [ih _ others passed, Table.get?_put]
              grind

theorem check_eq (schema : Schema) (options : Option Options) :
    schema.check options =
      match (options.getD []).keys.find? fun name => !schema.knows name with
      | some name => .error (.invalidOption schema.kind name "unknown option")
      | none => checkRules schema.kind (options.getD []) schema.rules [] := rfl

/-- The first unknown name among ascending ones is the least. -/
theorem least_unknown (schema : Schema) (options : Options) (name : String)
    (ordered : options.Ordered)
    (found : (options.keys.find? fun name => !schema.knows name) = some name) :
    schema.Refuses options (.invalidOption schema.kind name "unknown option") := by
  obtain ⟨unknown, before, after, split, known⟩ := List.find?_eq_some_iff_append.mp found
  have ascending := options.keys_ascend ordered
  rw [split] at ascending
  have later := (List.pairwise_cons.mp (List.pairwise_append.mp ascending).2.1).1
  have strange : ∀ other, (∀ rule ∈ schema.rules, rule.name ≠ other) ↔
      schema.knows other = false := by
    intro other
    rw [← Bool.not_eq_true, knows_iff]
    simp
  apply Refuses.unknown
  · rw [split]
    simp
  · exact (strange name).mpr (by simpa using unknown)
  · intro other member foreign
    rw [split] at member
    -- the names before the first unknown one are known, and those after it are greater
    rcases List.mem_append.mp member with early | rest
    · have recognised := known other early
      rw [(strange other).mp foreign] at recognised
      cases recognised
    · rcases List.mem_cons.mp rest with same | late
      · exact Or.inl same
      · exact Or.inr (later other late)

theorem known_of_find? (schema : Schema) (names : List String)
    (found : (names.find? fun name => !schema.knows name) = none) :
    ∀ name ∈ names, ∃ rule ∈ schema.rules, rule.name = name := by
  intro name member
  rw [← knows_iff]
  simpa using List.find?_eq_none.mp found name member

theorem known_of_isOk (schema : Schema) (options : Option Options) (checked : CheckedOptions)
    (passed : schema.check options = .ok checked) :
    checkRules schema.kind (options.getD []) schema.rules [] = .ok checked ∧
      ∀ name ∈ (options.getD []).keys, ∃ rule ∈ schema.rules, rule.name = name := by
  rw [check_eq] at passed
  cases found : (options.getD []).keys.find? fun name => !schema.knows name with
  | some name =>
      rw [found] at passed
      cases passed
  | none =>
      rw [found] at passed
      exact ⟨passed, schema.known_of_find? _ found⟩

theorem admits_of_check (schema : Schema) (options : Option Options) (checked : CheckedOptions)
    (passed : schema.check options = .ok checked) : schema.Admits (options.getD []) := by
  obtain ⟨collected, known⟩ := schema.known_of_isOk options checked passed
  have verdict := checkRules_verdict schema.kind (options.getD []) schema.rules []
  rw [collected] at verdict
  cases verdict with
  | passed _ satisfied => exact ⟨known, satisfied⟩

theorem check_refuses (schema : Schema) (options : Option Options) (error : Error)
    (ordered : Table.Ordered (options.getD [])) (failed : schema.check options = .error error) :
    schema.Refuses (options.getD []) error := by
  rw [check_eq] at failed
  cases found : (options.getD []).keys.find? fun name => !schema.knows name with
  | some name =>
      rw [found] at failed
      cases failed
      exact schema.least_unknown _ name ordered found
  | none =>
      rw [found] at failed
      have known := schema.known_of_find? _ found
      have verdict := checkRules_verdict schema.kind (options.getD []) schema.rules []
      dsimp only at failed
      rw [failed] at verdict
      cases verdict with
      | refused before after rule reason place first complaint =>
          exact .offending known before after rule reason place first complaint

theorem Refuses.not_admits {schema : Schema} {options : Options} {error : Error}
    (refuses : schema.Refuses options error) : ¬ schema.Admits options := by
  intro admitted
  cases refuses with
  | unknown name given strange least =>
      obtain ⟨rule, member, same⟩ := admitted.known name given
      exact strange rule member same
  | offending known before after rule reason place first complaint =>
      have member : rule ∈ schema.rules := by
        rw [place]
        simp
      exact complaint.unsatisfied (admitted.satisfied rule member)

end Schema

/-! What the readers find -/

namespace CheckedOptions

variable (checked : CheckedOptions) (name : String)

theorem integer?_eq_some_iff (number : Nat) :
    checked.integer? name = some number ↔ checked.get? name = some (.integer number) := by
  unfold integer?
  rcases checked.get? name with _ | ⟨_ | _ | _ | _⟩ <;> simp

theorem duration?_eq_some_iff (length : Duration) :
    checked.duration? name = some length ↔ checked.get? name = some (.duration length) := by
  unfold duration?
  rcases checked.get? name with _ | ⟨_ | _ | _ | _⟩ <;> simp

theorem string?_eq_some_iff (text : String) :
    checked.string? name = some text ↔ checked.get? name = some (.string text) := by
  unfold string?
  rcases checked.get? name with _ | ⟨_ | _ | _ | _⟩ <;> simp

theorem bool?_eq_some_iff (flag : Bool) :
    checked.bool? name = some flag ↔ checked.get? name = some (.bool flag) := by
  unfold bool?
  rcases checked.get? name with _ | ⟨_ | _ | _ | _⟩ <;> simp

end CheckedOptions

namespace OptionType

variable (type : OptionType) (value : Yaml.Value)

theorem reads_integer_iff (satisfied : ∃ checked, type.Reads value checked) (number : Nat) :
    type.Reads value (.integer number) ↔ value = .integer number ∧ type.IsInteger := by
  constructor
  · intro read
    cases read with
    | positive => exact ⟨rfl, trivial⟩
    | within => exact ⟨rfl, trivial⟩
  · rintro ⟨rfl, integer⟩
    obtain ⟨checked, read⟩ := satisfied
    generalize same : Yaml.Value.integer number = value at read
    cases read with
    | positive natural positive =>
        cases Int.ofNat.inj (Yaml.Value.integer.inj same)
        exact .positive _ positive
    | within low high natural least most =>
        cases Int.ofNat.inj (Yaml.Value.integer.inj same)
        exact .within low high _ least most
    | duration => cases integer
    | string => cases integer
    | bool => cases integer

theorem reads_duration_iff (length : Duration) :
    type.Reads value (.duration length) ↔
      (∃ text, value = .string text ∧ Duration.parse? text = some length) ∧ type = .duration := by
  constructor
  · intro read
    cases read with
    | duration text _ spelled => exact ⟨⟨text, rfl, spelled⟩, rfl⟩
  · rintro ⟨⟨text, rfl, spelled⟩, rfl⟩
    exact .duration text length spelled

theorem reads_string_iff (text : String) :
    type.Reads value (.string text) ↔ value = .string text ∧ type = .string := by
  constructor
  · intro read
    cases read with
    | string => exact ⟨rfl, rfl⟩
  · rintro ⟨rfl, rfl⟩
    exact .string text

theorem reads_bool_iff (flag : Bool) :
    type.Reads value (.bool flag) ↔ value = .bool flag ∧ type = .bool := by
  constructor
  · intro read
    cases read with
    | bool => exact ⟨rfl, rfl⟩
  · rintro ⟨rfl, rfl⟩
    exact .bool flag

end OptionType

theorem OptionRule.passes_some_iff (rule : OptionRule) (options : Options) (value : OptionValue) :
    rule.Passes options (some value) ↔
      ∃ given, options.given? rule.name = some given ∧ rule.type.Reads given value := by
  constructor
  · intro passes
    cases passes with
    | given raw _ found read => exact ⟨raw, found, read⟩
  · rintro ⟨raw, found, read⟩
    exact .given raw value found read

namespace Schema

theorem check_keeps (schema : Schema) (options : Option Options) (checked : CheckedOptions)
    (distinct : (schema.rules.map (·.name)).Nodup)
    (passed : schema.check options = .ok checked) :
    schema.Keeps (options.getD []) checked := by
  generalize given : options.getD [] = bag
  have admitted := schema.admits_of_check options checked passed
  obtain ⟨collected, _⟩ := schema.known_of_isOk options checked passed
  rw [given] at admitted collected
  have values : ∀ name value, checked.get? name = some value ↔
      ∃ rule ∈ schema.rules, rule.name = name ∧ rule.Passes bag (some value) := by
    intro name value
    rw [checkRules_get? schema.kind bag schema.rules [] checked distinct collected name value]
    simp [Table.get?]
  have readings : ∀ name value, checked.get? name = some value ↔
      ∃ raw, bag.given? name = some raw ∧
        ∃ rule ∈ schema.rules, rule.name = name ∧ rule.type.Reads raw value := by
    intro name value
    rw [values]
    simp only [OptionRule.passes_some_iff]
    grind
  have integers : ∀ name number, checked.integer? name = some number ↔
      bag.get? name = some (.integer number) ∧
        ∃ rule ∈ schema.rules, rule.name = name ∧ rule.type.IsInteger := by
    intro name number
    rw [CheckedOptions.integer?_eq_some_iff, readings]
    constructor
    · rintro ⟨raw, found, rule, member, same, read⟩
      obtain ⟨rfl, integer⟩ := (rule.type.reads_integer_iff raw ⟨_, read⟩ number).mp read
      exact ⟨((bag.given?_eq_some_iff name _).mp found).1, rule, member, same, integer⟩
    · rintro ⟨found, rule, member, rfl, integer⟩
      have present := (bag.given?_eq_some_iff rule.name _).mpr ⟨found, by simp⟩
      have typed := (admitted.satisfied rule member).typed _ present
      exact ⟨_, present, rule, member, rfl,
        (rule.type.reads_integer_iff _ typed number).mpr ⟨rfl, integer⟩⟩
  constructor
  case ordered =>
    exact checkRules_ordered schema.kind bag schema.rules [] checked List.Pairwise.nil collected
  case names =>
    intro name
    rw [Table.mem_keys_iff, Option.isSome_iff_exists, Option.isSome_iff_exists]
    constructor
    · rintro ⟨value, kept⟩
      obtain ⟨raw, found, _⟩ := (readings name value).mp kept
      exact ⟨raw, found⟩
    · rintro ⟨raw, found⟩
      have there := ((bag.given?_eq_some_iff name raw).mp found).1
      have listed : name ∈ bag.keys := (bag.mem_keys_iff name).mpr (by rw [there]; rfl)
      obtain ⟨rule, member, rfl⟩ := admitted.known name listed
      obtain ⟨value, read⟩ := (admitted.satisfied rule member).typed raw found
      exact ⟨value, (readings rule.name value).mpr ⟨raw, found, rule, member, rfl, read⟩⟩
  case values => exact values
  case integers => exact integers
  case durations =>
    intro name length
    rw [CheckedOptions.duration?_eq_some_iff, readings]
    simp only [OptionType.reads_duration_iff, Options.given?_eq_some_iff]
    grind
  case strings =>
    intro name text
    rw [CheckedOptions.string?_eq_some_iff, readings]
    simp only [OptionType.reads_string_iff, Options.given?_eq_some_iff]
    grind
  case bools =>
    intro name flag
    rw [CheckedOptions.bool?_eq_some_iff, readings]
    simp only [OptionType.reads_bool_iff, Options.given?_eq_some_iff]
    grind
  case narrow =>
    intro name number kept bounded
    have small := bounded number ((integers name number).mp kept).1
    exact UInt64.toNat_ofNat_of_lt (Int.ofNat_lt.mp small)

section Kept

variable {schema : Schema} {options : Options} {checked : CheckedOptions}
  (keeps : schema.Keeps options checked)

include keeps

theorem Keeps.kept_of_given (admitted : schema.Admits options) (rule : OptionRule)
    (member : rule ∈ schema.rules) (raw : Yaml.Value)
    (given : options.given? rule.name = some raw) :
    ∃ value, checked.get? rule.name = some value ∧ rule.type.Reads raw value := by
  obtain ⟨value, read⟩ := (admitted.satisfied rule member).typed raw given
  have passes : rule.Passes options (some value) := .given raw value given read
  exact ⟨value, (keeps.values rule.name value).mpr ⟨rule, member, rfl, passes⟩, read⟩

theorem Keeps.get?_of_left_out (name : String) (absent : options.given? name = none) :
    checked.get? name = none := by
  have missing : name ∉ checked.keys := by simp [keeps.names, absent]
  simpa [Table.mem_keys_iff] using missing

end Kept

/-- Options pass just if they are known to the schema and satisfy its rules. Those that pass are
kept, each under its name and as what it says; those that do not are refused for the least unknown
name, or else for the first rule that is not satisfied. -/
theorem check_exact (schema : Schema) (options : Option Options)
    (distinct : (schema.rules.map (·.name)).Nodup) (ordered : Table.Ordered (options.getD [])) :
    ((schema.check options).isOk = true ↔ schema.Admits (options.getD [])) ∧
    (∀ checked, schema.check options = .ok checked → schema.Keeps (options.getD []) checked) ∧
    (∀ error, schema.check options = .error error → schema.Refuses (options.getD []) error) := by
  refine ⟨⟨?accepted, ?admitted⟩, fun checked => schema.check_keeps options checked distinct,
    ?refused⟩
  case accepted =>
    intro passed
    obtain ⟨checked, accepted⟩ := (isOk_iff _).mp passed
    exact schema.admits_of_check options checked accepted
  case admitted =>
    intro admitted
    cases outcome : schema.check options with
    | ok checked => rfl
    | error error =>
        exact absurd admitted (schema.check_refuses options error ordered outcome).not_admits
  case refused => exact fun error => schema.check_refuses options error ordered

def probeSchema : Schema :=
  ⟨"probe", [⟨"size", .positiveInteger, true⟩, ⟨"interval", .duration, false⟩,
    ⟨"load", .range 1 18446744073709551615, false⟩, ⟨"label", .string, false⟩,
    ⟨"quiet", .bool, true⟩]⟩

/-- Options at the edges of their types, one of which is left out as null. -/
def probeOptions : Options :=
  [("interval", .string "1h30m"), ("label", .null), ("load", .integer 18446744073709551615),
    ("quiet", .bool false), ("size", .integer 1)]

theorem check_exact_probe :
    (probeSchema.rules.map (·.name)).Nodup ∧ probeOptions.Ordered ∧
      probeSchema.Admits probeOptions := by
  have distinct : (probeSchema.rules.map (·.name)).Nodup := by decide
  have ordered : probeOptions.Ordered := by decide
  exact ⟨distinct, ordered,
    (check_exact probeSchema (some probeOptions) distinct ordered).1.mp (by decide +kernel)⟩

/-- The least unknown name is told before the option that is missing, and that one before the one
that is out of range. -/
example :
    probeSchema.check (some [("Size", .integer 1), ("load", .integer 0), ("siz", .null)]) =
      .error (.invalidOption "probe" "Size" "unknown option") ∧
    probeSchema.check (some [("load", .integer 0)]) =
      .error (.invalidOption "probe" "size" "missing required option") :=
  ⟨rfl, rfl⟩

end Schema

end FaultInjection
