import FaultInjection.Duration.Scan
import FaultInjection.Failure.Specification
import FaultInjection.Proofs.Duration.Grammar
import FaultInjection.Proofs.Outcome

/-!
Which texts are durations. A text is read exactly if it spells a number of nanoseconds below the
limit; and numbers of 128 bits are enough on the way, since none of them exceeds the sum.
-/

namespace FaultInjection.Duration

theorem fit?_eq_some_iff (value result : Nat) :
    fit? value = some result ↔
      value = result ∧ result < 18446744073709551616 * 18446744073709551616 := by
  unfold fit?
  constructor
  · intro kept
    split at kept
    next fits =>
      cases kept
      exact ⟨rfl, fits⟩
    next => cases kept
  · rintro ⟨rfl, fits⟩
    exact if_pos fits

/-- A number can be read if the whole of it fits. -/
theorem extend?_eq_some_iff (value : Nat) (digits : List Char) (result : Nat)
    (fits : value < 18446744073709551616 * 18446744073709551616) :
    extend? value digits = some result ↔
      extended value digits = result ∧ result < 18446744073709551616 * 18446744073709551616 := by
  induction digits generalizing value with
  | nil =>
      simp only [extend?, extended, List.foldl_nil, Option.some.injEq]
      exact ⟨fun same => ⟨same, same ▸ fits⟩, And.left⟩
  | cons digit rest ih =>
      have grows := le_extended (10 * value + (digit.toNat - '0'.toNat)) rest
      rw [extended, List.foldl_cons, ← extended]
      simp only [extend?, Option.bind_eq_bind, Option.bind_eq_some_iff, fit?_eq_some_iff]
      constructor
      · rintro ⟨_, ⟨rfl, _⟩, _, ⟨rfl, small⟩, read⟩
        exact (ih _ small).mp read
      · rintro ⟨rfl, small⟩
        exact ⟨_, ⟨rfl, by omega⟩, _, ⟨rfl, by omega⟩, (ih _ (by omega)).mpr ⟨rfl, small⟩⟩

/-- A run is cut off where the kind of the characters changes. -/
theorem cut_run (kind : Char → Bool) (first second : List Char)
    (before : ∀ c ∈ first, kind c = true) (after : ∀ c ∈ second.head?, kind c = false) :
    (first ++ second).takeWhile kind = first ∧ (first ++ second).dropWhile kind = second := by
  rw [List.takeWhile_append_of_pos before, List.dropWhile_append_of_pos before]
  cases second with
  | nil => simp
  | cons c rest => simp [after c rfl]

/-- A text can be scanned if what it spells fits. -/
theorem scan?_spelling (sum : Nat) (parts : List Component)
    (fits : sum + sumOf parts < 18446744073709551616 * 18446744073709551616) :
    scan? sum (spelling parts) = some (sum + sumOf parts) := by
  induction parts generalizing sum with
  | nil => simp [scan?, spelling, sumOf]
  | cons part rest ih =>
      rw [sumOf_cons] at fits
      have letters : ∀ c ∈ part.unit.toList, (!c.isDigit) = true := fun c inside => by
        rw [((unit_letters part).2 c inside).1, Bool.not_false]
      have next : ∀ c ∈ (spelling rest).head?, (!c.isDigit) = false := fun c head => by
        rw [spelling_head rest c head, Bool.not_true]
      obtain ⟨digits, behind⟩ := cut_run Char.isDigit part.digits
        (part.unit.toList ++ spelling rest) part.decimal (unit_head part _)
      obtain ⟨unit, later⟩ := cut_run (!·.isDigit) part.unit.toList (spelling rest) letters next
      have positive : 0 < part.length := by
        have every : ∀ entry ∈ units, 0 < entry.2 := by decide
        exact every _ part.known
      have small : digitsValue part.digits ≤ part.nanos := Nat.le_mul_of_pos_right _ positive
      have counted : extend? 0 part.digits = some (digitsValue part.digits) :=
        (extend?_eq_some_iff 0 part.digits _ (by decide)).mpr ⟨rfl, by omega⟩
      have named : unitLength part.unit.toList = some part.length :=
        (unitLength_eq_some_iff _ _).mpr ⟨part.unit, rfl, part.known⟩
      have worth : fit? (digitsValue part.digits * part.length) = some part.nanos :=
        (fit?_eq_some_iff _ _).mpr ⟨rfl, by omega⟩
      have added : fit? (sum + part.nanos) = some (sum + part.nanos) :=
        (fit?_eq_some_iff _ _).mpr ⟨rfl, by omega⟩
      have present : part.digits ++ (part.unit.toList ++ spelling rest) ≠ [] :=
        List.append_ne_nil_of_left_ne_nil part.counted _
      rw [spelling_cons, scan?, if_neg present, digits, behind, if_neg part.counted]
      simp only [unit, later, counted, named, worth, added, Option.bind_eq_bind, Option.bind_some]
      rw [ih _ (by omega), sumOf_cons, Nat.add_assoc]

/-- Whatever can be scanned is spelled by counts with their units. -/
theorem exists_of_scan? (sum : Nat) (chars : List Char) (result : Nat)
    (scanned : scan? sum chars = some result) :
    ∃ parts, chars = spelling parts ∧ sum + sumOf parts = result := by
  fun_induction scan? sum chars with
  | case1 sum =>
      cases scanned
      exact ⟨[], rfl, rfl⟩
  | case2 => cases scanned
  | case3 sum chars present counted behind ih =>
      simp only [Option.bind_eq_bind, Option.bind_eq_some_iff, fit?_eq_some_iff,
        extend?_eq_some_iff 0 _ _ (by decide)] at scanned
      obtain ⟨_, ⟨rfl, _⟩, length, named, _, ⟨rfl, _⟩, _, ⟨rfl, _⟩, scanned⟩ := scanned
      obtain ⟨unit, spelled, known⟩ := (unitLength_eq_some_iff _ _).mp named
      obtain ⟨parts, later, rfl⟩ := ih _ scanned
      let part : Component := ⟨chars.takeWhile Char.isDigit, unit, length, counted,
        fun _ digit => List.mem_takeWhile_imp digit, known⟩
      refine ⟨part :: parts, ?_, by rw [sumOf_cons, ← Nat.add_assoc]; rfl⟩
      rw [spelling_cons, ← spelled, ← later, List.takeWhile_append_dropWhile,
        List.takeWhile_append_dropWhile]

theorem ofSum?_eq (nanos : Nat) : ofSum? nanos = ofNanos? nanos := by
  have whole := Nat.div_add_mod' nanos 1000000000
  have limited : nanos / 1000000000 < 18446744073709551616 ↔
      nanos < 18446744073709551616 * 1000000000 := by omega
  simp only [ofSum?, ofNanos?, limited, whole]

/-- Numbers of 128 bits are enough for every sum below the limit. -/
theorem scan?_eq_some_iff (chars : List Char) (nanos : Nat) (fits : nanos < limit) :
    scan? 0 chars = some nanos ↔ ∃ parts, chars = spelling parts ∧ sumOf parts = nanos := by
  constructor
  · intro scanned
    obtain ⟨parts, spelled, sum⟩ := exists_of_scan? 0 chars nanos scanned
    exact ⟨parts, spelled, by rwa [Nat.zero_add] at sum⟩
  · rintro ⟨parts, rfl, rfl⟩
    have scanned := scan?_spelling 0 parts (by unfold limit at fits; omega)
    rwa [Nat.zero_add] at scanned

/-- What is read with every number checked is what is read without a bound. -/
theorem scanned?_eq_some_iff (text : String) (duration : Duration) :
    scanned? text = some duration ↔ Spells text duration.nanos := by
  have counts := fun chars => scan?_eq_some_iff chars duration.nanos duration.inRange
  rw [spells_iff, ← denotes_iff _ _ _ (counts _), scanned?]
  generalize Text.trimChars text.toList = chars
  have zeroed : some zero = some duration ↔ some 0 = some duration.nanos := by
    cases duration
    simp [zero]
  have last : (scan? 0 chars).bind ofSum? = some duration ↔
      scan? 0 chars = some duration.nanos := by
    simp only [Option.bind_eq_some_iff, ofSum?_eq, ofNanos?_eq_some_iff, exists_eq_right]
  split
  · simp
  · split
    · exact zeroed
    · exact last

theorem ofText_eq_ok_iff (text : String) (duration : Duration) :
    ofText text = .ok duration ↔ Spells text duration.nanos := by
  rw [← parse?_eq_some_iff, ofText]
  cases parse? text with
  | none => simp
  | some read => simp

/-- The texts that are read as durations are those that spell one, and each is read as the sum that
it spells; all others are refused as they stand. Numbers of 128 bits never fall short on the way. -/
theorem reads_what_is_spelled (text : String) :
    (∀ duration, ofText text = .ok duration ↔ Spells text duration.nanos) ∧
    (ofText text = .error (.invalidDuration text) ↔ ∀ nanos, Spells text nanos → limit ≤ nanos) ∧
    scanned? text = (ofText text).toOption := by
  have read := ofText_eq_ok_iff text
  refine ⟨read, ?refused, ?scanned⟩
  case refused =>
    constructor
    · intro refused nanos spelled
      by_contra small
      have taken := (read ⟨nanos, Nat.lt_of_not_le small⟩).mpr spelled
      cases refused.symm.trans taken
    · intro large
      cases parsed : parse? text with
      | none => rw [ofText, parsed]
      | some duration =>
          have spelled := (parse?_eq_some_iff text duration).mp parsed
          exact absurd duration.inRange (Nat.not_lt.mpr (large _ spelled))
  case scanned =>
    apply Option.ext
    intro duration
    rw [scanned?_eq_some_iff, toOption_eq_some, read]

example : (ofText "18446744073709551615s999999999ns").isOk = true ∧
    ofText " 18446744073709551616s" = .error (.invalidDuration " 18446744073709551616s") := by
  decide +kernel

end FaultInjection.Duration
