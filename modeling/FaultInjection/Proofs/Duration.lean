import FaultInjection.Proofs.Duration.Grammar

/-!
The canonical text of a duration reads back as the duration: it spells the counts that are written,
and together they are worth the whole.
-/

namespace FaultInjection.Duration

theorem eq_zero (duration : Duration) (nothing : duration.isZero = true) : duration = zero := by
  obtain ⟨nanos, inRange⟩ := duration
  have none : nanos = 0 := of_decide_eq_true nothing
  subst none
  rfl

theorem digitsValue_toString (count : Nat) : digitsValue (toString count).toList = count := by
  have value := Nat.ofDigitChars_ten_toDigits (n := count)
  rw [Nat.ofDigitChars_eq_foldl] at value
  rwa [Nat.toString_eq_ofList_toDigits, String.toList_ofList]

theorem toString_digits (count : Nat) :
    (toString count).toList ≠ [] ∧ ∀ digit ∈ (toString count).toList, digit.isDigit = true := by
  rw [Nat.toString_eq_ofList_toDigits, String.toList_ofList]
  exact ⟨Nat.toDigits_ne_nil, fun digit => Nat.isDigit_of_mem_toDigits (by decide) (by decide)⟩

def written (count : Nat) (unit : String × Nat) (known : unit ∈ units) : Component :=
  ⟨(toString count).toList, unit.1, unit.2, (toString_digits count).1, (toString_digits count).2,
    known⟩

theorem nanos_written (count : Nat) (unit : String × Nat) (known : unit ∈ units) :
    (written count unit known).nanos = count * unit.2 :=
  congrArg (· * unit.2) (digitsValue_toString count)

/-- The text of some counts, without those of nothing. -/
def countsText (counts : List (Nat × String)) : List Char :=
  (counts.filter (·.1 ≠ 0)).flatMap fun count => (toString count.1).toList ++ count.2.toList

theorem countsText_cons (count : Nat) (unit : String) (rest : List (Nat × String)) :
    countsText ((count, unit) :: rest) =
      (if count = 0 then [] else (toString count).toList ++ unit.toList) ++ countsText rest := by
  by_cases nothing : count = 0 <;> simp [countsText, nothing]

theorem toList_text (duration : Duration) (positive : duration.nanos ≠ 0) :
    duration.text.toList = countsText (counts duration.nanos units) := by
  rw [text, if_neg positive, String.toList_join, List.flatMap_map, countsText]
  simp only [String.toList_append]

/-- The counts that are written: as many of each unit as fit into what the larger units left, if
there are any. -/
def counted : Nat → (lengths : List (String × Nat)) → (∀ unit ∈ lengths, unit ∈ units) →
    List Component
  | _, [], _ => []
  | remaining, unit :: rest, known =>
      let others := counted (remaining % unit.2) rest fun later member =>
        known later (List.mem_cons_of_mem unit member)
      if remaining / unit.2 = 0 then others
      else written (remaining / unit.2) unit (known unit List.mem_cons_self) :: others

theorem countsText_counts (remaining : Nat) (lengths : List (String × Nat))
    (known : ∀ unit ∈ lengths, unit ∈ units) :
    countsText (counts remaining lengths) = spelling (counted remaining lengths known) := by
  induction lengths generalizing remaining with
  | nil => rfl
  | cons unit rest ih =>
      rw [counts, countsText_cons, counted, ih]
      split
      · rfl
      · rw [spelling_cons]
        exact List.append_assoc _ _ _

/-- What is left over is worth less than the smallest unit. -/
theorem sumOf_counted (remaining : Nat) (lengths : List (String × Nat))
    (known : ∀ unit ∈ lengths, unit ∈ units) :
    sumOf (counted remaining lengths known) +
      lengths.foldl (fun left unit => left % unit.2) remaining = remaining := by
  induction lengths generalizing remaining with
  | nil => exact Nat.zero_add remaining
  | cons unit rest ih =>
      have division := Nat.div_add_mod' remaining unit.2
      have others := ih (remaining % unit.2) fun later member =>
        known later (List.mem_cons_of_mem unit member)
      rw [counted, List.foldl_cons]
      split
      next nothing =>
        rw [nothing] at division
        omega
      next =>
        rw [sumOf_cons, nanos_written]
        omega

def parts (duration : Duration) : List Component :=
  counted duration.nanos units fun _ member => member

theorem sumOf_parts (duration : Duration) : sumOf duration.parts = duration.nanos := by
  have sum := sumOf_counted duration.nanos units fun _ member => member
  have whole : units.foldl (fun left unit => left % unit.2) duration.nanos = 0 := by
    simp [units, Nat.mod_one]
  rwa [whole, Nat.add_zero] at sum

theorem parts_ne_nil (duration : Duration) (positive : duration.nanos ≠ 0) :
    duration.parts ≠ [] := by
  intro nothing
  have sum := duration.sumOf_parts
  rw [nothing] at sum
  exact positive sum.symm

/-- A duration of some length is written as its counts. -/
theorem toList_text_parts (duration : Duration) (positive : duration.nanos ≠ 0) :
    duration.text.toList = spelling duration.parts :=
  (duration.toList_text positive).trans (countsText_counts _ _ _)

/-- Every duration is read back from its canonical text. -/
theorem parse?_text (duration : Duration) : parse? duration.text = some duration := by
  by_cases nothing : duration.nanos = 0
  · have read : parse? "0s" = ofNanos? 0 := by decide
    rw [text, if_pos nothing, read, ofNanos?_eq_some_iff, nothing]
  · have denotes : Denotes (spelling duration.parts) duration.nanos :=
      duration.sumOf_parts ▸ Denotes.sum duration.parts (duration.parts_ne_nil nothing)
    refine (parse?_eq_some_iff _ _).mpr ⟨[], spelling duration.parts, [], ?_, nofun, nofun, denotes⟩
    rw [duration.toList_text_parts nothing, List.nil_append, List.append_nil]

end FaultInjection.Duration
