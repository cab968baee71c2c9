import FaultInjection.Text.Blank
import Mathlib.Data.List.TakeWhile

/-!
Texts that are split at a mark: at every occurrence, or at the first one only.
-/

namespace FaultInjection.Text

variable (mark : Char)

theorem splitAll_eq_splitOn (chars : List Char) : splitAll mark chars = chars.splitOn mark := by
  induction chars with
  | nil => rfl
  | cons c rest ih =>
      rw [splitAll, ih, List.splitOn_cons_eq_if_modifyHead]
      cases parts : rest.splitOn mark with
      | nil => exact absurd parts (List.splitOn_ne_nil mark rest)
      | cons part others => simp

/-- The parts of two texts with a mark between them are those of the first and those of the
second. -/
theorem splitAll_append (first second : List Char) :
    splitAll mark (first ++ mark :: second) = splitAll mark first ++ splitAll mark second := by
  simp only [splitAll_eq_splitOn, List.splitOn_append_cons_self]

/-- No part has the mark. -/
theorem splitAll_parts (chars part : List Char) (member : part ∈ splitAll mark chars) :
    mark ∉ part := by
  rw [splitAll_eq_splitOn] at member
  induction chars generalizing part with
  | nil =>
      rw [List.mem_singleton.mp member]
      exact List.not_mem_nil
  | cons c rest ih =>
      obtain ⟨first, others, parts⟩ :=
        List.exists_cons_of_ne_nil (List.splitOn_ne_nil mark rest)
      rw [List.splitOn_cons_eq_if_modifyHead, parts] at member
      rw [parts] at ih
      split at member
      · rcases List.mem_cons.mp member with rfl | later
        · exact List.not_mem_nil
        · exact ih part later
      next different =>
        -- the character joins the first part of the rest
        rw [List.modifyHead_cons] at member
        rcases List.mem_cons.mp member with rfl | later
        · intro inside
          rcases List.mem_cons.mp inside with rfl | deeper
          · exact different (beq_self_eq_true _)
          · exact ih first List.mem_cons_self deeper
        · exact ih part (List.mem_cons_of_mem _ later)

/-- The part before the first mark is the one without a mark. -/
theorem splitFirst_eq_some_iff (chars before after : List Char) :
    splitFirst mark chars = some (before, after) ↔
      chars = before ++ mark :: after ∧ mark ∉ before := by
  constructor
  · intro found
    unfold splitFirst at found
    split at found
    · cases found
    next c rest behind =>
      cases found
      -- what is left when the front is dropped starts with a mark
      have stops := List.head?_dropWhile_not (· != mark) chars
      rw [behind] at stops
      obtain rfl : c = mark := by simpa using stops
      refine ⟨?_, fun inside => ?_⟩
      · rw [← behind, List.takeWhile_append_dropWhile]
      · simpa using List.mem_takeWhile_imp inside
  · rintro ⟨rfl, free⟩
    have passes : ∀ c ∈ before, (c != mark) = true := fun c inside =>
      bne_iff_ne.mpr fun same => free (same ▸ inside)
    rw [splitFirst, List.dropWhile_append_of_pos passes, List.takeWhile_append_of_pos passes]
    simp

theorem splitFirst_eq_none_iff (chars : List Char) :
    splitFirst mark chars = none ↔ mark ∉ chars := by
  constructor
  · intro nowhere inside
    unfold splitFirst at nowhere
    split at nowhere
    next behind => simpa using List.dropWhile_eq_nil_iff.mp behind mark inside
    next => cases nowhere
  · intro free
    cases found : splitFirst mark chars with
    | none => rfl
    | some split =>
        obtain ⟨rfl, _⟩ := (splitFirst_eq_some_iff mark chars split.1 split.2).mp found
        exact absurd (List.mem_append_right _ List.mem_cons_self) free

end FaultInjection.Text
