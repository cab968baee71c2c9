import FaultInjection.Failure.Specification
import FaultInjection.Proofs.Duration
import FaultInjection.Proofs.Duration.Reading

/-!
The canonical texts of durations. Their units fall, no count is zero or starts with an idle zero,
and each count stays below what makes one of the next larger unit. Every duration has exactly one
such text, and that is the one that is written for it.
-/

namespace FaultInjection.Duration

/-- How many of a unit make one of the next larger unit. Hours are counted on and on. -/
def radixes : List (String × Nat) :=
  [("m", 60), ("s", 60), ("ms", 1000), ("us", 1000), ("ns", 1000)]

structure Component.Tidy (part : Component) : Prop where
  nonzero : digitsValue part.digits ≠ 0
  trimmed : part.digits.head? ≠ some '0'
  below : ∀ radix, (part.unit, radix) ∈ radixes → digitsValue part.digits < radix

/-- Counts as a canonical text may hold them, of units that get smaller and smaller. -/
structure Tidy (parts : List Component) : Prop where
  each : ∀ part ∈ parts, part.Tidy
  falling : parts.Pairwise fun larger smaller => smaller.length < larger.length

inductive Canonical : String → Prop where
  | zero : Canonical "0s"
  | counts (text : String) (parts : List Component) (spelled : text.toList = spelling parts)
      (some : parts ≠ []) (tidy : Tidy parts) : Canonical text

/-! Digits without idle zeros -/

theorem digitChar_of_digit (digit : Char) (decimal : digit.isDigit = true) :
    digit.toNat - '0'.toNat < 10 ∧ Nat.digitChar (digit.toNat - '0'.toNat) = digit := by
  simp only [Char.isDigit, Bool.and_eq_true, decide_eq_true_eq, UInt32.le_iff_toNat_le] at decimal
  have value : digit.val.toNat = digit.toNat := rfl
  have zero : '0'.toNat = 48 := rfl
  simp at decimal
  have small : digit.toNat - '0'.toNat < 10 := by omega
  refine ⟨small, Char.toNat_inj.mp ?_⟩
  rw [Nat.toNat_digitChar_of_lt_ten small]
  omega

theorem digitsValue_append (digits : List Char) (last : Char) :
    digitsValue (digits ++ [last]) = 10 * digitsValue digits + (last.toNat - '0'.toNat) := by
  rw [digitsValue, List.foldl_append]
  rfl

/-- Digits that start with another digit than zero stand for something. -/
theorem digitsValue_pos (digits : List Char) (counted : digits ≠ [])
    (decimal : ∀ digit ∈ digits, digit.isDigit = true) (trimmed : digits.head? ≠ some '0') :
    0 < digitsValue digits := by
  cases digits with
  | nil => exact absurd rfl counted
  | cons first rest =>
      obtain ⟨_, same⟩ := digitChar_of_digit first (decimal first List.mem_cons_self)
      have grows : 10 * 0 + (first.toNat - '0'.toNat) ≤ digitsValue (first :: rest) :=
        le_extended _ rest
      by_contra nothing
      have zero : first.toNat - '0'.toNat = 0 := by omega
      rw [zero] at same
      exact trimmed (congrArg some same.symm)

/-- Digits without an idle zero in front are those that are written for their number. -/
theorem toDigits_digitsValue (digits : List Char) (counted : digits ≠ [])
    (decimal : ∀ digit ∈ digits, digit.isDigit = true) (trimmed : digits.head? ≠ some '0') :
    Nat.toDigits 10 (digitsValue digits) = digits := by
  induction digits using List.reverseRecOn with
  | nil => exact absurd rfl counted
  | append_singleton earlier last ih =>
      obtain ⟨small, same⟩ := digitChar_of_digit last (decimal last (by simp))
      have final : Nat.toDigits 10 (last.toNat - '0'.toNat) = [last] := by
        rw [Nat.toDigits_of_lt_base small, same]
      by_cases alone : earlier = []
      · subst alone
        simpa [digitsValue] using final
      · have before : ∀ digit ∈ earlier, digit.isDigit = true :=
          fun digit member => decimal digit (List.mem_append_left _ member)
        rw [List.head?_append_of_ne_nil _ alone] at trimmed
        have positive := digitsValue_pos earlier alone before trimmed
        rw [digitsValue_append, ← Nat.toDigits_append_toDigits (by decide) positive small,
          ih alone before trimmed, final]

/-- No number but zero is written with a zero in front. -/
theorem toDigits_trimmed (count : Nat) (nonzero : count ≠ 0) :
    (Nat.toDigits 10 count).head? ≠ some '0' := by
  induction count using Nat.strongRecOn with
  | ind count ih =>
      by_cases small : count < 10
      · rw [Nat.toDigits_of_lt_base small]
        simpa using nonzero
      · have large : 10 ≤ count := Nat.le_of_not_lt small
        rw [Nat.toDigits_of_base_le (by decide) large,
          List.head?_append_of_ne_nil _ Nat.toDigits_ne_nil]
        exact ih (count / 10) (by omega) (by omega)

/-! Tidy counts are determined by their sum -/

theorem unit_pos (unit : String × Nat) (known : unit ∈ units) : 0 < unit.2 := by
  have every : ∀ unit ∈ units, 0 < unit.2 := by decide
  exact every unit known

/-- A tidy count leaves room for one more of its unit within any larger unit. -/
theorem Component.Tidy.room {part : Component} (tidy : part.Tidy) (larger : String × Nat)
    (known : larger ∈ units) (less : part.length < larger.2) :
    part.nanos + part.length ≤ larger.2 := by
  have every : ∀ unit ∈ units, ∀ larger ∈ units, unit.2 < larger.2 →
      ∃ radix, (unit.1, radix) ∈ radixes ∧ radix * unit.2 ≤ larger.2 := by
    simp [units, radixes]
  obtain ⟨radix, listed, within⟩ := every _ part.known larger known less
  calc part.nanos + part.length
      = (digitsValue part.digits + 1) * part.length := (Nat.succ_mul _ _).symm
    _ ≤ radix * part.length := Nat.mul_le_mul_right _ (tidy.below radix listed)
    _ ≤ larger.2 := within

theorem Component.Tidy.length_le {part : Component} (tidy : part.Tidy) :
    part.length ≤ part.nanos :=
  Nat.le_mul_of_pos_left _ (Nat.pos_of_ne_zero tidy.nonzero)

theorem Tidy.tail {part : Component} {rest : List Component} (tidy : Tidy (part :: rest)) :
    Tidy rest :=
  ⟨fun other member => tidy.each other (List.mem_cons_of_mem _ member),
    (List.pairwise_cons.mp tidy.falling).2⟩

/-- Tidy counts of smaller units come to less than one of a unit. -/
theorem Tidy.sumOf_lt {parts : List Component} (tidy : Tidy parts) (larger : String × Nat)
    (known : larger ∈ units) (less : ∀ part ∈ parts, part.length < larger.2) :
    sumOf parts < larger.2 := by
  induction parts generalizing larger with
  | nil => exact unit_pos larger known
  | cons part rest ih =>
      have later := ih tidy.tail (part.unit, part.length) part.known
        (List.pairwise_cons.mp tidy.falling).1
      have room := (tidy.each part List.mem_cons_self).room larger known
        (less part List.mem_cons_self)
      rw [sumOf_cons]
      omega

/-- What stands behind a count is worth less than one of its unit. -/
theorem Tidy.rest_lt {part : Component} {rest : List Component} (tidy : Tidy (part :: rest)) :
    sumOf rest < part.length :=
  tidy.tail.sumOf_lt (part.unit, part.length) part.known (List.pairwise_cons.mp tidy.falling).1

/-- Counts that start with a smaller unit come to less. -/
theorem Tidy.unit_le {first second : Component} {rest others : List Component}
    (tidy : Tidy (first :: rest)) (otherTidy : Tidy (second :: others))
    (same : sumOf (first :: rest) = sumOf (second :: others)) : second.length ≤ first.length := by
  by_contra smaller
  have room := (tidy.each first List.mem_cons_self).room (second.unit, second.length) second.known
    (Nat.lt_of_not_le smaller)
  have behind := tidy.rest_lt
  have worth := (otherTidy.each second List.mem_cons_self).length_le
  rw [sumOf_cons, sumOf_cons] at same
  omega

theorem component_ext (first second : Component) (length : first.length = second.length)
    (digits : first.digits = second.digits) : first = second := by
  have every : ∀ unit ∈ units, ∀ other ∈ units, unit.2 = other.2 → unit.1 = other.1 := by decide
  have unit := every _ first.known _ second.known length
  cases first
  cases second
  cases digits
  cases length
  cases unit
  rfl

/-- Tidy counts of the same sum start with the same count. -/
theorem Tidy.heads_eq {first second : Component} {rest others : List Component}
    (tidy : Tidy (first :: rest)) (otherTidy : Tidy (second :: others))
    (same : sumOf (first :: rest) = sumOf (second :: others)) :
    first = second ∧ sumOf rest = sumOf others := by
  have length : first.length = second.length :=
    Nat.le_antisymm (otherTidy.unit_le tidy same.symm) (tidy.unit_le otherTidy same)
  have behind := tidy.rest_lt
  have otherBehind := otherTidy.rest_lt
  rw [sumOf_cons, sumOf_cons, Component.nanos, Component.nanos, ← length] at same
  rw [← length] at otherBehind
  have positive := unit_pos _ first.known
  -- the count is the quotient of the sum by the unit, and what is behind it is the remainder
  have count : digitsValue first.digits = digitsValue second.digits := by
    have quotient := congrArg (· / first.length) same
    simpa [Nat.mul_comm _ first.length, Nat.mul_add_div positive, Nat.div_eq_of_lt behind,
      Nat.div_eq_of_lt otherBehind] using quotient
  have digits : first.digits = second.digits := by
    rw [← toDigits_digitsValue first.digits first.counted first.decimal
        (tidy.each first List.mem_cons_self).trimmed, count,
      toDigits_digitsValue second.digits second.counted second.decimal
        (otherTidy.each second List.mem_cons_self).trimmed]
  exact ⟨component_ext first second length digits, by rw [count] at same; omega⟩

/-- A sum of nothing is spelled without counts. -/
theorem Tidy.sumOf_pos {part : Component} {rest : List Component} (tidy : Tidy (part :: rest)) :
    0 < sumOf (part :: rest) := by
  have worth := (tidy.each part List.mem_cons_self).length_le
  have positive := unit_pos _ part.known
  rw [sumOf_cons]
  omega

theorem Tidy.eq_of_sumOf {parts others : List Component} (tidy : Tidy parts)
    (otherTidy : Tidy others) (same : sumOf parts = sumOf others) : parts = others := by
  induction parts generalizing others with
  | nil =>
      cases others with
      | nil => rfl
      | cons part rest => exact absurd same (Nat.ne_of_lt otherTidy.sumOf_pos)
  | cons first rest ih =>
      cases others with
      | nil => exact absurd same (Nat.ne_of_gt tidy.sumOf_pos)
      | cons second others =>
          obtain ⟨rfl, behind⟩ := tidy.heads_eq otherTidy same
          rw [ih tidy.tail otherTidy.tail behind]

/-! What is written is tidy -/

theorem mem_counted (remaining : Nat) (lengths : List (String × Nat))
    (known : ∀ unit ∈ lengths, unit ∈ units) (part : Component)
    (member : part ∈ counted remaining lengths known) : (part.unit, part.length) ∈ lengths := by
  induction lengths generalizing remaining with
  | nil => cases member
  | cons unit rest ih =>
      rw [counted] at member
      split at member
      · exact List.mem_cons_of_mem _ (ih _ _ member)
      · rcases List.mem_cons.mp member with rfl | later
        · exact List.mem_cons_self
        · exact List.mem_cons_of_mem _ (ih _ _ later)

theorem written_tidy (count : Nat) (unit : String × Nat) (known : unit ∈ units)
    (nonzero : count ≠ 0) (below : ∀ radix, (unit.1, radix) ∈ radixes → count < radix) :
    (written count unit known).Tidy := by
  have value := digitsValue_toString count
  have digits : (toString count).toList = Nat.toDigits 10 count := by
    rw [Nat.toString_eq_ofList_toDigits, String.toList_ofList]
  refine ⟨value.symm ▸ nonzero, ?_, value.symm ▸ below⟩
  change (toString count).toList.head? ≠ some '0'
  rw [digits]
  exact toDigits_trimmed count nonzero

/-- Counting down a chain of units, each of which is a number of the next one, is tidy if there is
not too much for the first unit. -/
theorem counted_tidy (remaining : Nat) (lengths : List (String × Nat))
    (known : ∀ unit ∈ lengths, unit ∈ units)
    (falling : lengths.Pairwise fun larger smaller => smaller.2 < larger.2)
    (chain : lengths.IsChain fun larger smaller =>
      ∀ radix, (smaller.1, radix) ∈ radixes → larger.2 ≤ radix * smaller.2)
    (fits : ∀ unit ∈ lengths.head?, ∀ radix, (unit.1, radix) ∈ radixes →
      remaining < radix * unit.2) :
    Tidy (counted remaining lengths known) := by
  induction lengths generalizing remaining with
  | nil => exact ⟨nofun, List.Pairwise.nil⟩
  | cons unit rest ih =>
      have here := known unit List.mem_cons_self
      obtain ⟨smaller, falls⟩ := List.pairwise_cons.mp falling
      have others : Tidy (counted (remaining % unit.2) rest fun later member =>
          known later (List.mem_cons_of_mem unit member)) := by
        refine ih _ _ falls chain.tail ?_
        intro next head radix listed
        cases rest with
        | nil => cases head
        | cons second more =>
            cases head
            exact Nat.lt_of_lt_of_le (Nat.mod_lt _ (unit_pos unit here))
              ((List.isChain_cons_cons.mp chain).1 radix listed)
      rw [counted]
      split
      · exact others
      next some =>
        have first := written_tidy (remaining / unit.2) unit here some fun radix listed =>
          Nat.div_lt_of_lt_mul (Nat.mul_comm _ _ ▸ fits unit rfl radix listed)
        refine ⟨?_, List.pairwise_cons.mpr ⟨?_, others.falling⟩⟩
        · intro part member
          rcases List.mem_cons.mp member with rfl | later
          · exact first
          · exact others.each part later
        · intro part member
          exact smaller _ (mem_counted _ _ _ part member)

theorem parts_tidy (duration : Duration) : Tidy duration.parts := by
  apply counted_tidy
  · simp [units]
  · simp [units, radixes]
  · simp [units, radixes]

theorem text_canonical (duration : Duration) : Canonical duration.text := by
  by_cases nothing : duration.nanos = 0
  · rw [text, if_pos nothing]
    exact .zero
  · exact .counts _ duration.parts (duration.toList_text_parts nothing)
      (duration.parts_ne_nil nothing) duration.parts_tidy

/-! The one canonical text of a duration -/

theorem Spells.unique {text : String} {first second : Nat} (one : Spells text first)
    (other : Spells text second) : first = second := by
  rw [spells_iff, ← nanosOf_eq_some_iff] at one other
  exact Option.some.inj (one.symm.trans other)

theorem spells_spelling (text : String) (parts : List Component)
    (spelled : text.toList = spelling parts) (some : parts ≠ []) : Spells text (sumOf parts) :=
  ⟨[], spelling parts, [], by rw [spelled, List.nil_append, List.append_nil], nofun, nofun,
    .sum parts some⟩

theorem Canonical.eq_text {text : String} (canonical : Canonical text) (duration : Duration)
    (spells : Spells text duration.nanos) : text = duration.text := by
  cases canonical with
  | zero =>
      have read : parse? "0s" = some Duration.zero := by decide
      have nothing := spells.unique ((parse?_eq_some_iff _ _).mp read)
      exact (if_pos nothing).symm
  | counts _ parts spelled some tidy =>
      have sum := (spells_spelling text parts spelled some).unique spells
      have positive : duration.nanos ≠ 0 := by
        cases parts with
        | nil => exact absurd rfl some
        | cons part rest => exact sum ▸ Nat.ne_of_gt tidy.sumOf_pos
      have same := tidy.eq_of_sumOf duration.parts_tidy (sum.trans duration.sumOf_parts.symm)
      rw [← String.toList_inj, spelled, duration.toList_text_parts positive, same]

/-- Every duration is read back from the text that is written for it. That text is canonical, and no
other canonical text is read as the same duration; so reading any text and writing what was read
gives the one canonical text of its value. -/
theorem writes_the_canonical_text :
    (∀ duration : Duration, ofText duration.text = .ok duration ∧ Canonical duration.text) ∧
    ∀ (read : String) (duration : Duration), ofText read = .ok duration →
      ∀ text, Canonical text ∧ ofText text = .ok duration ↔ text = duration.text := by
  have inverse : ∀ duration : Duration, ofText duration.text = .ok duration := by
    intro duration
    rw [ofText_eq_ok_iff, ← parse?_eq_some_iff, parse?_text]
  refine ⟨fun duration => ⟨inverse duration, duration.text_canonical⟩, ?_⟩
  intro _ duration _ text
  constructor
  · rintro ⟨canonical, accepted⟩
    exact canonical.eq_text duration ((ofText_eq_ok_iff _ _).mp accepted)
  · rintro rfl
    exact ⟨duration.text_canonical, inverse duration⟩

example : (ofText " 90m0h1000us3600s ").map text = .ok "2h30m1ms" := by decide +kernel

end FaultInjection.Duration
