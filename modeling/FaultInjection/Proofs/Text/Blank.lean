import FaultInjection.Text.Blank
import Mathlib.Data.List.TakeWhile

/-!
Trimming takes away the white space around a text, and nothing else.
-/

namespace FaultInjection.Text

theorem trimStart_padded (before rest : List Char) (blank : ∀ c ∈ before, isSpace c = true)
    (start : ∀ c ∈ rest.head?, isSpace c = false) : trimStart (before ++ rest) = rest := by
  rw [trimStart, List.dropWhile_append_of_pos blank]
  cases rest with
  | nil => rfl
  | cons first others => simp [start first rfl]

theorem trimEnd_padded (rest after : List Char) (blank : ∀ c ∈ after, isSpace c = true)
    (finish : ∀ c ∈ rest.getLast?, isSpace c = false) : trimEnd (rest ++ after) = rest := by
  have turned : trimStart (after.reverse ++ rest.reverse) = rest.reverse := by
    apply trimStart_padded
    · exact fun c member => blank c (List.mem_reverse.mp member)
    · rwa [List.head?_reverse]
  rw [trimEnd, List.reverse_append, ← trimStart, turned, List.reverse_reverse]

theorem trimChars_padded (before body after : List Char)
    (leading : ∀ c ∈ before, isSpace c = true) (trailing : ∀ c ∈ after, isSpace c = true)
    (start : ∀ c ∈ body.head?, isSpace c = false)
    (finish : ∀ c ∈ body.getLast?, isSpace c = false) :
    trimChars (before ++ body ++ after) = body := by
  cases body with
  | nil =>
      -- the spaces on both sides are taken away together
      have blank : ∀ c ∈ before ++ after, isSpace c = true :=
        fun c member => (List.mem_append.mp member).elim (leading c) (trailing c)
      have gone := trimStart_padded (before ++ after) [] blank nofun
      rw [List.append_nil] at gone
      rw [trimChars, List.append_nil, gone]
      rfl
  | cons first rest =>
      have opened := trimStart_padded before (first :: rest ++ after) leading start
      rw [trimChars, List.append_assoc, opened, trimEnd_padded _ after trailing finish]

theorem trimChars_surrounded (chars : List Char) :
    ∃ before after, chars = before ++ trimChars chars ++ after ∧
      (∀ c ∈ before, isSpace c = true) ∧ ∀ c ∈ after, isSpace c = true := by
  have start := chars.takeWhile_append_dropWhile (p := isSpace)
  have finish := (chars.dropWhile isSpace).reverse.takeWhile_append_dropWhile (p := isSpace)
  refine ⟨chars.takeWhile isSpace,
    ((chars.dropWhile isSpace).reverse.takeWhile isSpace).reverse, ?_, ?_, ?_⟩
  · rw [trimChars, trimEnd, trimStart, List.append_assoc, ← List.reverse_append, finish,
      List.reverse_reverse, start]
  · exact fun c member => List.mem_takeWhile_imp member
  · exact fun c member => List.mem_takeWhile_imp (List.mem_reverse.mp member)

/-! What is left is trimmed -/

structure Trimmed (chars : List Char) : Prop where
  start : ∀ c ∈ chars.head?, isSpace c = false
  finish : ∀ c ∈ chars.getLast?, isSpace c = false

theorem solid_of_dropWhile (chars : List Char) (c : Char)
    (first : c ∈ (chars.dropWhile isSpace).head?) : isSpace c = false := by
  have stays := List.head?_dropWhile_not isSpace chars
  rw [first] at stays
  simpa using stays

theorem trimChars_trimmed (chars : List Char) : Trimmed (trimChars chars) := by
  have finish : ∀ c ∈ (trimChars chars).getLast?, isSpace c = false := by
    intro c last
    rw [trimChars, trimEnd, List.getLast?_reverse] at last
    exact solid_of_dropWhile _ c last
  refine ⟨fun c first => ?_, finish⟩
  -- what is cut off at the end leaves the first character where it is
  obtain ⟨rest, same⟩ : ∃ rest, trimStart chars = trimChars chars ++ rest := by
    have suffix := List.dropWhile_suffix isSpace (l := (trimStart chars).reverse)
    exact (List.reverse_prefix.mpr suffix).imp fun rest joined => by
      rw [trimChars, trimEnd, joined, List.reverse_reverse]
  refine solid_of_dropWhile chars c ?_
  rw [← trimStart, same, List.head?_append, first]
  rfl

theorem Trimmed.trimChars_eq {chars : List Char} (trimmed : Trimmed chars) :
    trimChars chars = chars := by
  simpa using trimChars_padded [] chars [] nofun nofun trimmed.start trimmed.finish

theorem trimChars_subset (chars : List Char) : trimChars chars ⊆ chars := by
  intro c member
  obtain ⟨before, after, same, _⟩ := trimChars_surrounded chars
  rw [same]
  exact List.mem_append_left _ (List.mem_append_right _ member)

/-- White space that is put around a text makes no difference to what is left of it. -/
theorem trimChars_wrapped (before chars after : List Char)
    (leading : ∀ c ∈ before, isSpace c = true) (trailing : ∀ c ∈ after, isSpace c = true) :
    trimChars (before ++ chars ++ after) = trimChars chars := by
  obtain ⟨front, back, same, blankFront, blankBack⟩ := trimChars_surrounded chars
  have trimmed := trimChars_trimmed chars
  have joined : before ++ chars ++ after =
      before ++ front ++ trimChars chars ++ (back ++ after) := by
    have whole := congrArg (before ++ · ++ after) same
    simpa only [List.append_assoc] using whole
  rw [joined]
  exact trimChars_padded _ _ _
    (fun c member => (List.mem_append.mp member).elim (leading c) (blankFront c))
    (fun c member => (List.mem_append.mp member).elim (blankBack c) (trailing c))
    trimmed.start trimmed.finish

end FaultInjection.Text
