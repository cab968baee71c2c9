import FaultInjection.Proofs.Outcome
import FaultInjection.Proofs.Text.Blank
import FaultInjection.Proofs.Text.Split
import FaultInjection.Selector
import Mathlib.Data.List.Basic

/-!
Which texts are selectors. Every part between commas that is not blank has to state a requirement,
and the requirements of the selector are those that its parts state, in the same order. A selector
is read back from the text that is written for it.
-/

namespace FaultInjection.Selector

/-- The parts of a text between its commas, blank ones among them. -/
def sections (text : String) : List (List Char) := Text.splitAll ',' text.toList

/-- A part states a key, which is not blank, in front of its first equals sign and a value behind
it. White space around them does not count. -/
def States (part : List Char) (stated : String × String) : Prop :=
  ∃ name value, part = name ++ '=' :: value ∧ '=' ∉ name ∧ Text.trimChars name ≠ [] ∧
    stated = (String.ofList (Text.trimChars name), String.ofList (Text.trimChars value))

theorem unmarked_of_blank (blank : List Char) (spaces : ∀ c ∈ blank, Text.isSpace c = true) :
    '=' ∉ blank := by
  intro inside
  have space := spaces '=' inside
  revert space
  decide

theorem requirement_trimmed (part : List Char) (stated : String × String) :
    requirement (Text.trimChars part) = .ok stated ↔ States part stated := by
  obtain ⟨before, after, same, leading, trailing⟩ := Text.trimChars_surrounded part
  have front := unmarked_of_blank before leading
  have back := unmarked_of_blank after trailing
  cases found : Text.splitFirst '=' (Text.trimChars part) with
  | none =>
      have inner := (Text.splitFirst_eq_none_iff _ _).mp found
      have absent : '=' ∉ part := by
        rw [same]
        simp [front, inner, back]
      constructor
      · intro read
        simp [requirement, found] at read
      · rintro ⟨name, value, rfl, _⟩
        exact absurd (List.mem_append_right name List.mem_cons_self) absent
  | some split =>
      obtain ⟨name, value⟩ := split
      obtain ⟨inner, free⟩ := (Text.splitFirst_eq_some_iff _ _ _ _).mp found
      -- the first equals sign of the part is the first one of what is left when it is trimmed
      have first : Text.splitFirst '=' part = some (before ++ name, value ++ after) := by
        refine (Text.splitFirst_eq_some_iff _ _ _ _).mpr ⟨?_, by simp [front, free]⟩
        rw [same, inner]
        simp
      have key : Text.trimChars (before ++ name) = Text.trimChars name := by
        simpa using Text.trimChars_wrapped before name [] leading nofun
      have worth : Text.trimChars (value ++ after) = Text.trimChars value := by
        simpa using Text.trimChars_wrapped [] value after nofun trailing
      rw [requirement, found]
      constructor
      · intro read
        dsimp only at read
        split at read
        · cases read
        next named =>
          cases read
          obtain ⟨whole, unmarked⟩ := (Text.splitFirst_eq_some_iff _ _ _ _).mp first
          refine ⟨_, _, whole, unmarked, ?_, by rw [key, worth]⟩
          rw [key]
          simpa using named
      · rintro ⟨other, rest, whole, unmarked, named, rfl⟩
        have again := (Text.splitFirst_eq_some_iff _ _ _ _).mpr ⟨whole, unmarked⟩
        cases first.symm.trans again
        rw [key] at named
        simp [named, key, worth]

def stated? (part : List Char) : Option (String × String) :=
  (requirement (Text.trimChars part)).toOption

theorem stated?_eq_some_iff (part : List Char) (stated : String × String) :
    stated? part = some stated ↔ States part stated := by
  rw [stated?, toOption_eq_some, requirement_trimmed]

theorem stated?_blank (part : List Char) (blank : Text.trimChars part = []) :
    stated? part = none := by
  rw [stated?, blank]
  rfl

theorem requirementsOf_eq_ok_iff (parts : List (List Char))
    (requirements : List (String × String)) :
    requirementsOf ((parts.map Text.trimChars).filter fun part => !part.isEmpty) =
        .ok requirements ↔
      (∀ part ∈ parts, Text.trimChars part = [] ∨ ∃ stated, States part stated) ∧
        requirements = parts.filterMap stated? := by
  induction parts generalizing requirements with
  | nil =>
      constructor
      · intro read
        cases read
        exact ⟨nofun, rfl⟩
      · rintro ⟨_, rfl⟩
        rfl
  | cons part rest ih =>
      rw [List.map_cons, List.filter_cons, List.filterMap_cons, List.forall_mem_cons]
      by_cases blank : Text.trimChars part = []
      · -- a blank part is passed over on both sides
        rw [if_neg (by simp [blank]), stated?_blank part blank, ih]
        simp only [blank, true_or, true_and]
      · rw [if_pos (by simp [blank]), requirementsOf]
        simp only [bind_eq_ok, ih, blank, false_or]
        constructor
        · rintro ⟨first, read, others, ⟨each, rfl⟩, same⟩
          cases same
          have stated := (requirement_trimmed part first).mp read
          rw [(stated?_eq_some_iff part first).mpr stated]
          exact ⟨⟨⟨first, stated⟩, each⟩, rfl⟩
        · rintro ⟨⟨⟨first, stated⟩, each⟩, rfl⟩
          rw [(stated?_eq_some_iff part first).mpr stated]
          exact ⟨first, (requirement_trimmed part first).mpr stated, _, ⟨each, rfl⟩, rfl⟩

theorem parse_eq_ok_iff (text : String) (selector : Selector) :
    parse text = .ok selector ↔
      (∀ part ∈ sections text, Text.trimChars part = [] ∨ ∃ stated, States part stated) ∧
        selector.requirements = (sections text).filterMap stated? := by
  rw [parse, map_eq_ok]
  constructor
  · rintro ⟨requirements, read, rfl⟩
    exact (requirementsOf_eq_ok_iff _ _).mp read
  · rintro accepted
    exact ⟨_, (requirementsOf_eq_ok_iff _ _).mpr accepted, rfl⟩

/-- A text gives a key a value, at one place or at several. -/
def Gives (text key value : String) : Prop := ∃ part ∈ sections text, States part (key, value)

/-- The requirements of a selector are what its text gives. -/
theorem mem_requirements (text : String) (selector : Selector)
    (accepted : parse text = .ok selector) (key value : String) :
    (key, value) ∈ selector.requirements ↔ Gives text key value := by
  rw [((parse_eq_ok_iff text selector).mp accepted).2, List.mem_filterMap]
  simp only [stated?_eq_some_iff, Gives]

/-! The text of a selector -/

/-- A requirement whose text states nothing else. -/
structure Proper (stated : String × String) : Prop where
  named : stated.1.toList ≠ []
  unmarked : '=' ∉ stated.1.toList
  key : Text.Trimmed stated.1.toList
  value : Text.Trimmed stated.2.toList
  whole : ',' ∉ stated.1.toList ++ stated.2.toList

def written (stated : String × String) : List Char := stated.1.toList ++ '=' :: stated.2.toList

theorem toList_text (selector : Selector) :
    selector.text.toList = [','].intercalate (selector.requirements.map written) := by
  have part : String.toList ∘ (fun stated : String × String => stated.1 ++ "=" ++ stated.2) =
      written := by
    funext stated
    simp [written]
  rw [text, String.toList_intercalate, List.map_map, part]
  rfl

theorem States.proper {part : List Char} {stated : String × String} (states : States part stated)
    (whole : ',' ∉ part) : Proper stated := by
  obtain ⟨name, value, rfl, unmarked, named, rfl⟩ := states
  have apart : ',' ∉ name ∧ ',' ∉ value := by simpa using whole
  constructor <;> simp only [String.toList_ofList]
  case named => exact named
  case unmarked => exact fun inside => unmarked (Text.trimChars_subset name inside)
  case key => exact Text.trimChars_trimmed name
  case value => exact Text.trimChars_trimmed value
  case whole =>
    intro inside
    rcases List.mem_append.mp inside with inKey | inValue
    · exact apart.1 (Text.trimChars_subset name inKey)
    · exact apart.2 (Text.trimChars_subset value inValue)

theorem Proper.states {stated : String × String} (proper : Proper stated) :
    States (written stated) stated := by
  have key := proper.key.trimChars_eq
  have value := proper.value.trimChars_eq
  refine ⟨stated.1.toList, stated.2.toList, rfl, proper.unmarked, ?_, ?_⟩
  · rw [key]
    exact proper.named
  · rw [key, value, String.ofList_toList, String.ofList_toList]

theorem Proper.undivided {stated : String × String} (proper : Proper stated) :
    ',' ∉ written stated := by
  simpa [written] using proper.whole

theorem parse_proper (text : String) (selector : Selector) (accepted : parse text = .ok selector) :
    ∀ stated ∈ selector.requirements, Proper stated := by
  rintro ⟨key, value⟩ member
  obtain ⟨part, inside, states⟩ := (mem_requirements text selector accepted key value).mp member
  exact states.proper (Text.splitAll_parts ',' text.toList part inside)

/-- The text of a selector falls apart into the texts of its requirements. -/
theorem sections_text (selector : Selector) (present : selector.requirements ≠ [])
    (proper : ∀ stated ∈ selector.requirements, Proper stated) :
    sections selector.text = selector.requirements.map written := by
  rw [sections, toList_text, Text.splitAll_eq_splitOn]
  refine List.splitOn_intercalate ',' ?_ (by simpa using present)
  intro part member
  obtain ⟨stated, listed, rfl⟩ := List.mem_map.mp member
  exact (proper stated listed).undivided

theorem parse_text (selector : Selector)
    (proper : ∀ stated ∈ selector.requirements, Proper stated) :
    parse selector.text = .ok selector := by
  by_cases nothing : selector.requirements = []
  · obtain ⟨_⟩ := selector
    subst nothing
    rfl
  · rw [parse_eq_ok_iff, sections_text selector nothing proper]
    have read : ∀ stated ∈ selector.requirements, stated? (written stated) = some stated :=
      fun stated listed => (stated?_eq_some_iff _ _).mpr (proper stated listed).states
    constructor
    · intro part member
      obtain ⟨stated, listed, rfl⟩ := List.mem_map.mp member
      exact Or.inr ⟨stated, (proper stated listed).states⟩
    · calc selector.requirements
        _ = selector.requirements.filterMap some := List.filterMap_some.symm
        _ = selector.requirements.filterMap (stated? ∘ written) :=
          List.filterMap_congr fun stated listed => (read stated listed).symm
        _ = (selector.requirements.map written).filterMap stated? := List.filterMap_map.symm

/-- Any selector that was read is read back from its own text, with the same requirements in the
same order, and that text is then written again. -/
theorem text_read_back (text : String) (selector : Selector)
    (accepted : parse text = .ok selector) :
    parse selector.text = .ok selector ∧
      (parse selector.text).map Selector.text = .ok selector.text := by
  have again := parse_text selector (parse_proper text selector accepted)
  exact ⟨again, congrArg (Except.map Selector.text) again⟩

/-- Empty values, values with an equals sign, idle parts and repeated keys. -/
def messyText : String := "\u3000zone = a b=c ,, tier=\u00a0,zone=x"

def messySelector : Selector := ⟨[("zone", "a b=c"), ("tier", ""), ("zone", "x")]⟩

theorem text_read_back_messy :
    parse messyText = .ok messySelector ∧ messySelector.text = "zone=a b=c,tier=,zone=x" ∧
      parse messySelector.text = .ok messySelector ∧
      (parse messySelector.text).map Selector.text = .ok messySelector.text := by
  have accepted : parse messyText = .ok messySelector := by decide +kernel
  exact ⟨accepted, by decide +kernel, text_read_back messyText messySelector accepted⟩

end FaultInjection.Selector
