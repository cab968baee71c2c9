import FaultInjection.Duration
import FaultInjection.Proofs.Text.Blank
import Mathlib.Data.List.SplitBy

/-!
The grammar of durations: a lone zero, or counts with their units, one after the other. A text is
cut into counts and units in one way only, at the ends of its runs of digits, so that reading finds
the sum that it stands for.
-/

namespace FaultInjection.Duration

structure Component where
  digits : List Char
  unit : String
  length : Nat
  counted : digits ≠ []
  decimal : ∀ digit ∈ digits, digit.isDigit = true
  known : (unit, length) ∈ units

namespace Component

def chars (component : Component) : List Char := component.digits ++ component.unit.toList

def runs (component : Component) : List (List Char) := [component.digits, component.unit.toList]

def nanos (component : Component) : Nat := digitsValue component.digits * component.length

end Component

def spelling (parts : List Component) : List Char := parts.flatMap Component.chars

def sumOf (parts : List Component) : Nat := parts.foldr (fun part rest => part.nanos + rest) 0

inductive Denotes : List Char → Nat → Prop where
  | zero : Denotes ['0'] 0
  | sum (parts : List Component) (some : parts ≠ []) : Denotes (spelling parts) (sumOf parts)

/-- The text stands for a number of nanoseconds, with white space around what denotes it. -/
def Spells (text : String) (nanos : Nat) : Prop :=
  ∃ before body after, text.toList = before ++ body ++ after ∧
    (∀ c ∈ before, Text.isSpace c = true) ∧ (∀ c ∈ after, Text.isSpace c = true) ∧
    Denotes body nanos

/-! Units and digits -/

theorem unitLength_eq_some_iff (name : List Char) (length : Nat) :
    unitLength name = some length ↔ ∃ unit, name = unit.toList ∧ (unit, length) ∈ units := by
  constructor
  · intro found
    obtain ⟨⟨unit, known⟩, listed, rfl⟩ := Option.map_eq_some_iff.mp found
    have named := List.find?_some listed
    simp only [decide_eq_true_eq] at named
    exact ⟨unit, named.symm, List.mem_of_find?_eq_some listed⟩
  · rintro ⟨unit, rfl, member⟩
    have every : ∀ entry ∈ units, unitLength entry.1.toList = some entry.2 := by decide
    exact every (unit, length) member

theorem isUnit_letters (unit : String × Nat) (known : unit ∈ units) :
    unit.1.toList ≠ [] ∧ ∀ letter ∈ unit.1.toList, letter.isDigit = false ∧
      Text.isSpace letter = false := by
  have every : (units.all fun unit => unit.1.toList ≠ [] ∧
      unit.1.toList.all fun letter => !letter.isDigit && !Text.isSpace letter) = true := by rfl
  simpa using List.all_eq_true.mp every unit known

theorem digit_not_space (digit : Char) (isDigit : digit.isDigit = true) :
    Text.isSpace digit = false := by
  simp only [Char.isDigit, Bool.and_eq_true, decide_eq_true_eq, UInt32.le_iff_toNat_le] at isDigit
  simp only [Text.isSpace, Bool.or_eq_false_iff, Bool.and_eq_false_iff, decide_eq_false_iff_not,
    beq_eq_false_iff_ne]
  have value : digit.val.toNat = digit.toNat := rfl
  simp at isDigit
  omega

def extended (value : Nat) (digits : List Char) : Nat :=
  digits.foldl (fun value digit => 10 * value + (digit.toNat - '0'.toNat)) value

theorem le_extended (value : Nat) (digits : List Char) : value ≤ extended value digits := by
  induction digits generalizing value with
  | nil => exact Nat.le_refl value
  | cons digit rest ih =>
      have later := ih (10 * value + (digit.toNat - '0'.toNat))
      rw [extended, List.foldl_cons, ← extended]
      omega

/-! A text is cut where its runs of digits start and end -/

/-- Characters of one kind are one run. -/
theorem runs_uniform (chars : List Char) (nonempty : chars ≠ []) (kind : Bool)
    (uniform : ∀ c ∈ chars, c.isDigit = kind) : runs chars = [chars] := by
  apply List.splitBy_of_isChain nonempty
  apply List.Pairwise.isChain
  apply List.pairwise_of_forall_mem_list
  intro a inA b inB
  simp [uniform a inA, uniform b inB]

/-- A run ends where the kind of the characters changes. -/
theorem runs_append (first second : List Char) (kind : Bool)
    (before : ∀ c ∈ first, c.isDigit = kind) (after : ∀ c ∈ second.head?, c.isDigit = !kind) :
    runs (first ++ second) = runs first ++ runs second := by
  apply List.splitBy_append
  intro a last b head
  rw [before a (List.mem_of_getLast? last), after b head]
  cases kind <;> rfl

theorem spelling_cons (part : Component) (rest : List Component) :
    spelling (part :: rest) = part.digits ++ (part.unit.toList ++ spelling rest) :=
  List.append_assoc _ _ _

theorem sumOf_cons (part : Component) (rest : List Component) :
    sumOf (part :: rest) = part.nanos + sumOf rest := rfl

/-- Every count starts with a digit. -/
theorem spelling_head (parts : List Component) :
    ∀ c ∈ (spelling parts).head?, c.isDigit = true := by
  intro c head
  cases parts with
  | nil => cases head
  | cons part rest =>
      rw [spelling_cons, List.head?_append_of_ne_nil _ part.counted] at head
      exact part.decimal c (List.mem_of_mem_head? head)

theorem unit_letters (part : Component) : part.unit.toList ≠ [] ∧
    ∀ c ∈ part.unit.toList, c.isDigit = false ∧ Text.isSpace c = false :=
  isUnit_letters (part.unit, part.length) part.known

theorem unit_head (part : Component) (behind : List Char) :
    ∀ c ∈ (part.unit.toList ++ behind).head?, c.isDigit = false := by
  intro c head
  rw [List.head?_append_of_ne_nil _ (unit_letters part).1] at head
  exact ((unit_letters part).2 c (List.mem_of_mem_head? head)).1

theorem runs_spelling (parts : List Component) :
    runs (spelling parts) = parts.flatMap Component.runs := by
  induction parts with
  | nil => rfl
  | cons part rest ih =>
      have letters : ∀ c ∈ part.unit.toList, c.isDigit = false :=
        fun c inside => ((unit_letters part).2 c inside).1
      calc runs (spelling (part :: rest))
          = runs part.digits ++ (runs part.unit.toList ++ runs (spelling rest)) := by
              rw [spelling_cons, runs_append _ _ true part.decimal (unit_head part _),
                runs_append _ _ false letters (spelling_head rest)]
        _ = [part.digits] ++ ([part.unit.toList] ++ rest.flatMap Component.runs) := by
              rw [runs_uniform _ part.counted true part.decimal,
                runs_uniform _ (unit_letters part).1 false letters, ih]
        _ = (part :: rest).flatMap Component.runs := rfl

/-! What is counted -/

theorem component_eq_some_iff (digits unit : List Char) (nanos : Nat) (counted : digits ≠ []) :
    component digits unit = some nanos ↔
      ∃ part : Component, part.runs = [digits, unit] ∧ part.nanos = nanos := by
  unfold component
  constructor
  · intro found
    split at found
    next decimal =>
      obtain ⟨length, named, rfl⟩ := Option.map_eq_some_iff.mp found
      obtain ⟨name, rfl, known⟩ := (unitLength_eq_some_iff unit length).mp named
      exact ⟨⟨digits, name, length, counted, List.all_eq_true.mp decimal, known⟩, rfl, rfl⟩
    next => cases found
  · rintro ⟨part, same, rfl⟩
    cases same
    have known := (unitLength_eq_some_iff part.unit.toList part.length).mpr ⟨_, rfl, part.known⟩
    rw [if_pos (List.all_eq_true.mpr part.decimal), known]
    rfl

theorem total_eq_some_iff (list : List (List Char)) (nanos : Nat) (solid : ∀ run ∈ list, run ≠ []) :
    total list = some nanos ↔
      ∃ parts : List Component, list = parts.flatMap Component.runs ∧ sumOf parts = nanos := by
  fun_induction total list generalizing nanos with
  | case1 =>
      constructor
      · intro nothing
        cases nothing
        exact ⟨[], rfl, rfl⟩
      · rintro ⟨parts, same, rfl⟩
        cases parts with
        | nil => rfl
        | cons part rest => cases same
  | case2 digits unit rest ih =>
      have later : ∀ run ∈ rest, run ≠ [] :=
        fun run member => solid run (List.mem_cons_of_mem _ (List.mem_cons_of_mem _ member))
      have first := fun nanos =>
        component_eq_some_iff digits unit nanos (solid digits List.mem_cons_self)
      simp only [Option.bind_eq_bind, Option.bind_eq_some_iff, Option.pure_def, Option.some.injEq,
        first, ih _ later]
      constructor
      · rintro ⟨_, ⟨part, runs, rfl⟩, _, ⟨parts, rfl, rfl⟩, rfl⟩
        refine ⟨part :: parts, ?_, sumOf_cons part parts⟩
        rw [List.flatMap_cons, runs]
        rfl
      · rintro ⟨parts, same, rfl⟩
        cases parts with
        | nil => cases same
        | cons part parts =>
            cases same
            exact ⟨_, ⟨part, rfl, rfl⟩, _, ⟨parts, rfl, rfl⟩, (sumOf_cons part parts).symm⟩
  | case3 run =>
      refine iff_of_false nofun ?_
      rintro ⟨parts, same, -⟩
      cases parts with
      | nil => cases same
      | cons part rest => cases same

theorem flatten_runs (parts : List Component) :
    (parts.flatMap Component.runs).flatten = spelling parts := by
  induction parts with
  | nil => rfl
  | cons part rest ih =>
      rw [List.flatMap_cons, List.flatten_append, ih, spelling_cons]
      simp [Component.runs]

/-- Every count has a digit and a letter at least. -/
theorem two_le_length (part : Component) (rest : List Component) :
    2 ≤ (spelling (part :: rest)).length := by
  have digits := List.length_pos_iff.mpr part.counted
  have letters := List.length_pos_iff.mpr (unit_letters part).1
  rw [spelling_cons, List.length_append, List.length_append]
  omega

/-- A reading of counts, and of a lone zero besides, is a reading of what denotes a number. -/
theorem denotes_iff (chars : List Char) (nanos : Nat) (counts : Option Nat)
    (exact : counts = some nanos ↔ ∃ parts, chars = spelling parts ∧ sumOf parts = nanos) :
    (if chars = [] then none else if chars = ['0'] then some 0 else counts) = some nanos ↔
      Denotes chars nanos := by
  constructor
  · intro read
    split at read
    · cases read
    next present =>
      split at read
      next zero =>
        cases read
        exact zero ▸ .zero
      next =>
        obtain ⟨parts, rfl, rfl⟩ := exact.mp read
        refine .sum parts ?_
        rintro rfl
        exact present rfl
  · rintro (_ | ⟨parts, some⟩)
    · rfl
    · obtain ⟨part, rest, rfl⟩ := List.exists_cons_of_ne_nil some
      have long := two_le_length part rest
      have present : spelling (part :: rest) ≠ [] := fun none => by simp [none] at long
      have other : spelling (part :: rest) ≠ ['0'] := fun zero => by simp [zero] at long
      rw [if_neg present, if_neg other]
      exact exact.mpr ⟨_, rfl, rfl⟩

/-- Characters are read as the number that they denote. -/
theorem nanosOf_eq_some_iff (chars : List Char) (nanos : Nat) :
    nanosOf chars = some nanos ↔ Denotes chars nanos := by
  refine denotes_iff chars nanos _ ?_
  rw [total_eq_some_iff (runs chars) nanos fun run => List.ne_nil_of_mem_splitBy]
  refine exists_congr fun parts => and_congr_left fun _ => ?_
  constructor
  · intro cut
    rw [← flatten_runs, ← cut]
    exact (List.flatten_splitBy _ chars).symm
  · rintro rfl
    exact runs_spelling parts

/-! White space around a duration -/

theorem Denotes.solid {chars : List Char} {nanos : Nat} (denotes : Denotes chars nanos) :
    ∀ c ∈ chars, Text.isSpace c = false := by
  rcases denotes with _ | ⟨parts, _⟩
  · intro c member
    obtain rfl := List.mem_singleton.mp member
    rfl
  · intro c member
    obtain ⟨part, _, inside⟩ := List.mem_flatMap.mp member
    rcases List.mem_append.mp inside with digit | letter
    · exact digit_not_space c (part.decimal c digit)
    · exact ((unit_letters part).2 c letter).2

/-- What a text spells is denoted by what is left when it is trimmed. -/
theorem spells_iff (text : String) (nanos : Nat) :
    Spells text nanos ↔ Denotes (Text.trimChars text.toList) nanos := by
  constructor
  · rintro ⟨before, body, after, same, leading, trailing, denotes⟩
    rw [same, Text.trimChars_padded before body after leading trailing]
    · exact denotes
    · exact fun c head => denotes.solid c (List.mem_of_mem_head? head)
    · exact fun c last => denotes.solid c (List.mem_of_getLast? last)
  · intro denotes
    obtain ⟨before, after, same, leading, trailing⟩ := Text.trimChars_surrounded text.toList
    exact ⟨before, _, after, same, leading, trailing, denotes⟩

theorem ofNanos?_eq_some_iff (nanos : Nat) (duration : Duration) :
    ofNanos? nanos = some duration ↔ nanos = duration.nanos := by
  unfold ofNanos?
  constructor
  · intro made
    split at made
    · cases made
      rfl
    · cases made
  · rintro rfl
    exact dif_pos duration.inRange

/-- A text is read as the duration that it spells. -/
theorem parse?_eq_some_iff (text : String) (duration : Duration) :
    parse? text = some duration ↔ Spells text duration.nanos := by
  simp only [parse?, Option.bind_eq_some_iff, nanosOf_eq_some_iff, ofNanos?_eq_some_iff,
    exists_eq_right, spells_iff]

end FaultInjection.Duration
