import FaultInjection.Proofs.Outcome
import FaultInjection.Proofs.Yaml.Rearranged

/-!
Which specifications are accepted, and what they come to. The list of attacks has one shape, checked
member by member; what fits is taken over in its order, with the options as they stood but for the
order of entries inside of them.
-/

namespace FaultInjection

open Yaml

/-- A check accepts what fits, with a result that tells what was there, and refuses all else for its
format. -/
inductive Decides {α : Type} (fits : Prop) (tells : α → Prop) : Except Error α → Prop
  | accepts {result : α} (fit : fits) (told : tells result) : Decides fits tells (.ok result)
  | refuses (unfit : ¬ fits) : Decides fits tells (.error .attacksFormat)

namespace Decides

variable {α β : Type} {fits whole : Prop} {tells : α → Prop} {further : β → Prop}
  {outcome : Except Error α} (checked : Decides fits tells outcome)

include checked

theorem isOk_iff : outcome.isOk = true ↔ fits := by
  cases checked with
  | accepts fit _ => exact iff_of_true rfl fit
  | refuses unfit => exact iff_of_false nofun unfit

theorem told (result : α) (accepted : outcome = .ok result) : tells result := by
  cases checked with
  | accepts _ told => exact Except.ok.inj accepted ▸ told
  | refuses _ => cases accepted

theorem refused (error : Error) (failed : outcome = .error error) : error = .attacksFormat := by
  cases checked with
  | accepts _ _ => cases failed
  | refuses _ => exact (Except.error.inj failed).symm

theorem of_iff (same : whole ↔ fits) : Decides whole tells outcome := by
  rwa [propext same]

/-- What is needed for a whole is checked first. -/
theorem bind {next : α → Except Error β} (needed : whole → fits)
    (rest : ∀ result, fits → tells result → Decides whole further (next result)) :
    Decides whole further (outcome >>= next) := by
  cases checked with
  | accepts fit told => exact rest _ fit told
  | refuses unfit => exact .refuses fun fit => unfit (needed fit)

end Decides

/-! The shape -/

def Yaml.NamedEntries (entries : List (Value × Value)) : Prop :=
  ∀ entry ∈ entries, ∃ name, entry.1 = .string name

inductive Yaml.Value.IsOptions : Value → Prop
  | absent : IsOptions .null
  | given (entries : List (Value × Value)) (named : NamedEntries entries) :
      IsOptions (.mapping entries)

inductive Yaml.Value.IsAttack : Value → Prop
  | ofKind (kind : String) (options : Value) (fit : options.IsOptions) :
      IsAttack (.mapping [(.string kind, options)])

inductive AttacksFit : Option Value → Prop
  | absent : AttacksFit none
  | null : AttacksFit (some .null)
  | listed (items : List Value) (each : ∀ item ∈ items, item.IsAttack) :
      AttacksFit (some (.sequence items))

def RawSpecification.TimeoutFits (raw : RawSpecification) : Prop :=
  ∀ text ∈ raw.timeout, (Duration.parse? text).isSome = true

/-! What is taken over -/

/-- The value under a text. Of several the last one counts. -/
def Yaml.valueUnder (entries : List (Value × Value)) (name : String) : Option Value :=
  (entries.reverse.find? (·.1 == .string name)).map (·.2)

structure Options.Tell (options : Options) (entries : List (Value × Value)) : Prop where
  ordered : options.Ordered
  each : ∀ name, Option.Rel Value.Rearranged (valueUnder entries name) (options.get? name)

inductive AttackMap.Tells : AttackMap → Value → Prop
  | bare (kind : String) : Tells (.ofKind kind none) (.mapping [(.string kind, .null)])
  | given (kind : String) (options : Options) (entries : List (Value × Value))
      (told : options.Tell entries) :
      Tells (.ofKind kind (some options)) (.mapping [(.string kind, .mapping entries)])

def attackItems : Option Value → List Value
  | some (.sequence items) => items
  | _ => []

structure Specification.Tells (specification : Specification) (raw : RawSpecification) : Prop where
  unlimited : raw.timeout = none → specification.timeout = .zero
  timeout : ∀ text ∈ raw.timeout, Duration.parse? text = some specification.timeout
  attacks : List.Forall₂ AttackMap.Tells specification.attacks (attackItems raw.attacks)

/-! The checks, from the options outwards -/

def Options.entry (option : String × Value) : Value × Value := (.string option.1, option.2)

theorem Options.ofEntries_decides (entries : List (Value × Value)) :
    Decides (NamedEntries entries)
      (fun options : List (String × Value) => canonicalEntries entries = options.map entry)
      (ofEntries entries) := by
  induction entries with
  | nil => exact .accepts (List.forall_mem_nil _) rfl
  | cons first rest ih =>
      obtain ⟨key, value⟩ := first
      cases key with
      | string name =>
          refine ih.bind (fun fit => (List.forall_mem_cons.mp fit).2) fun options fit told => ?_
          refine .accepts (List.forall_mem_cons.mpr ⟨⟨name, rfl⟩, fit⟩) ?_
          rw [canonicalEntries, told, List.map_cons, entry]
      -- a key of any other type ends the check at once
      | _ =>
          refine .refuses fun fit => ?_
          obtain ⟨name, named⟩ := fit _ List.mem_cons_self
          cases named

theorem valueUnder_canonicalEntries (entries : List (Value × Value)) (name : String) :
    valueUnder (canonicalEntries entries) name =
      (valueUnder entries name).map Value.canonical := by
  rw [valueUnder, canonicalEntries_eq, ← List.map_reverse, List.find?_map, valueUnder,
    Option.map_map, Option.map_map]
  rfl

theorem Options.ofEntries_tell (entries : List (Value × Value)) (options : List (String × Value))
    (same : canonicalEntries entries = options.map entry) :
    Options.Tell (Table.ofEntries options) entries where
  ordered := Table.ofEntries_ordered options
  each name := by
    have found : Table.get? (Table.ofEntries options) name =
        (valueUnder entries name).map Value.canonical := by
      rw [← valueUnder_canonicalEntries, same, Table.get?_ofEntries, valueUnder, ← List.map_reverse,
        List.find?_map, Option.map_map]
      congr 2
      funext option
      simp [entry]
    rw [found]
    cases valueUnder entries name with
    | none => exact .none
    | some value => exact .some value.rearranged_canonical

theorem AttackMap.ofValue_decides (item : Value) :
    Decides item.IsAttack (fun map : AttackMap => map.Tells item) (ofValue item) := by
  unfold ofValue
  split
  next kind => exact .accepts (.ofKind kind .null .absent) (.bare kind)
  next kind entries =>
      refine (Options.ofEntries_decides entries).bind ?_ fun options fit told => ?_
      · rintro ⟨_, _, fit⟩
        cases fit with | given _ named => exact named
      · exact .accepts (.ofKind kind _ (.given entries fit))
          (.given kind _ entries (Options.ofEntries_tell entries options told))
  next notBare notGiven =>
      refine .refuses ?_
      rintro ⟨kind, _, fit⟩
      cases fit with
      | absent => exact notBare kind rfl
      | given entries _ => exact notGiven kind entries rfl

theorem attacksOfItems_decides (items : List Value) :
    Decides (∀ item ∈ items, item.IsAttack)
      (fun maps => List.Forall₂ AttackMap.Tells maps items) (attacksOfItems items) := by
  induction items with
  | nil => exact .accepts (List.forall_mem_nil _) .nil
  | cons item rest ih =>
      refine (AttackMap.ofValue_decides item).bind (fun fit => (List.forall_mem_cons.mp fit).1)
        fun map here told => ?_
      refine ih.bind (fun fit => (List.forall_mem_cons.mp fit).2) fun maps later tail => ?_
      exact .accepts (List.forall_mem_cons.mpr ⟨here, later⟩) (.cons told tail)

theorem attacksOfValue_decides (attacks : Option Value) :
    Decides (AttacksFit attacks)
      (fun maps => List.Forall₂ AttackMap.Tells maps (attackItems attacks))
      (attacksOfValue attacks) := by
  unfold attacksOfValue
  split
  next => exact .accepts .absent .nil
  next => exact .accepts .null .nil
  next items =>
      refine (attacksOfItems_decides items).of_iff ⟨?_, .listed items⟩
      rintro ⟨⟩
      next each => exact each
  next attacks notNull notListed =>
      refine .refuses ?_
      rintro (_ | _ | ⟨items, _⟩)
      · exact notNull rfl
      · exact notListed items rfl

namespace Specification

def timeoutOf : Option String → Except Error Duration
  | none => .ok .zero
  | some text => Duration.ofText text

theorem ofRaw_eq_ok (raw : RawSpecification) (specification : Specification) :
    ofRaw raw = .ok specification ↔ timeoutOf raw.timeout = .ok specification.timeout ∧
      attacksOfValue raw.attacks = .ok specification.attacks := by
  have chain : ofRaw raw = timeoutOf raw.timeout >>= fun timeout =>
      attacksOfValue raw.attacks >>= fun attacks => .ok ⟨timeout, attacks⟩ := by
    rw [ofRaw]
    cases raw.timeout <;> rfl
  rw [chain, bind_eq_ok]
  constructor
  · rintro ⟨timeout, timed, rest⟩
    obtain ⟨attacks, listed, made⟩ := (bind_eq_ok _ _ _).mp rest
    cases made
    exact ⟨timed, listed⟩
  · rintro ⟨timed, listed⟩
    exact ⟨_, timed, (bind_eq_ok _ _ _).mpr ⟨_, listed, rfl⟩⟩

theorem ofRaw_decides (raw : RawSpecification) (fits : raw.TimeoutFits) :
    Decides (AttacksFit raw.attacks) (fun specification : Specification => specification.Tells raw)
      (ofRaw raw) := by
  obtain ⟨timeout, attacks⟩ := raw
  -- once the timeout is known, all that is left to check is the list of attacks
  cases timeout with
  | none =>
      refine (attacksOfValue_decides attacks).bind id fun maps fit told => ?_
      exact .accepts fit ⟨fun _ => rfl, nofun, told⟩
  | some text =>
      obtain ⟨duration, read⟩ := Option.isSome_iff_exists.mp (fits text rfl)
      have timed : Duration.ofText text = .ok duration := by rw [Duration.ofText, read]
      simp only [ofRaw, timed]
      refine (attacksOfValue_decides attacks).bind id fun maps fit told => ?_
      exact .accepts fit ⟨nofun, fun _ same => Option.some.inj same ▸ read, told⟩

theorem ofRaw_late (raw : RawSpecification) (unfit : ¬ raw.TimeoutFits) :
    ∃ text, raw.timeout = some text ∧ ofRaw raw = .error (.invalidDuration text) := by
  obtain ⟨timeout, attacks⟩ := raw
  simp only [RawSpecification.TimeoutFits, not_forall, Option.mem_def] at unfit
  obtain ⟨text, rfl, unread⟩ := unfit
  refine ⟨text, rfl, ?_⟩
  rw [Bool.not_eq_true, Option.isSome_eq_false_iff, Option.isNone_iff_eq_none] at unread
  simp only [ofRaw, Duration.ofText, unread]
  rfl

/-- A specification is accepted just if its timeout can be read and its attacks have their shape. It
is then what was written, but for the order of entries inside the options. A fault in the timeout
is reported before any in the attacks. -/
theorem accepts_its_schema (raw : RawSpecification) :
    ((ofRaw raw).isOk = true ↔ raw.TimeoutFits ∧ AttacksFit raw.attacks) ∧
    (∀ specification, ofRaw raw = .ok specification → specification.Tells raw) ∧
    ∀ error, ofRaw raw = .error error →
      (raw.TimeoutFits → error = .attacksFormat) ∧
      (¬ raw.TimeoutFits → ∃ text, raw.timeout = some text ∧ error = .invalidDuration text) := by
  by_cases fits : raw.TimeoutFits
  · have checked := ofRaw_decides raw fits
    refine ⟨checked.isOk_iff.trans (and_iff_right fits).symm, checked.told, ?_⟩
    exact fun error failed => ⟨fun _ => checked.refused error failed, fun late => absurd fits late⟩
  · obtain ⟨text, timed, late⟩ := ofRaw_late raw fits
    rw [late]
    refine ⟨iff_of_false nofun fun both => fits both.1, nofun, fun error failed => ?_⟩
    exact ⟨fun fit => absurd fit fits, fun _ => ⟨text, timed, (Except.error.inj failed).symm⟩⟩

/-- An option that is not indented stands beside the attack. -/
example : ofRaw ⟨none, some (.sequence [.mapping [(.string "custom", .null),
    (.string "size", .integer 1)]])⟩ = .error .attacksFormat := rfl

end Specification

end FaultInjection
