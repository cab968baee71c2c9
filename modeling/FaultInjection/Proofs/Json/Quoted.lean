import FaultInjection.Json.Reader

/-!
Strings and objects of strings are read back from their text, whatever follows it.
-/

namespace FaultInjection.Json

theorem readString_plain (c : Char) (read : Option (List Char)) (rest : List Char)
    (notQuote : c ≠ '"') (notSlash : c ≠ '\\') (printed : ¬ c.toNat < 32) :
    readString read (c :: rest) = readString (read.map (c :: ·)) rest := by
  rw [readString]
  · simp [notSlash, printed]
  · exact notQuote
  · rintro _ _ _ _ _ _ _ _ _ slash
    exact absurd slash notSlash
  · rintro _ _ _ _ _ slash
    exact absurd slash notSlash
  · rintro _ _ slash
    exact absurd slash notSlash

theorem readString_letter (letter c : Char) (read : Option (List Char)) (rest : List Char)
    (escaped : letterEscape? letter = some c) :
    readString read ('\\' :: letter :: rest) = readString (read.map (c :: ·)) rest := by
  have notUnit : letter ≠ 'u' := by
    rintro rfl
    cases escaped
  rw [readString]
  · simp [escaped]
  · rintro _ _ _ _ _ _ _ _ _ unit
    exact absurd unit notUnit
  · rintro _ _ _ _ _ unit
    exact absurd unit notUnit

/-- A unit that is no half of a pair stands for itself, even if another unit follows it. -/
theorem readString_unit (a b c d : Char) (unit : Nat) (read : Option (List Char))
    (rest : List Char) (digits : hexUnit? a b c d = some unit) (whole : unit < 0xD800) :
    readString read ('\\' :: 'u' :: a :: b :: c :: d :: rest) =
      readString (extend read (charOf? unit)) rest := by
  have single : ∀ low, pair? unit low = none := by
    intro low
    rw [pair?, if_neg]
    simp only [Bool.and_eq_true, decide_eq_true_eq]
    omega
  have unpaired : ∀ low : Option Nat, low.bind (pair? unit) = none := by
    rintro (_ | low)
    · rfl
    · exact single low
  by_cases more : ∃ e f g h after, rest = '\\' :: 'u' :: e :: f :: g :: h :: after
  · obtain ⟨e, f, g, h, after, rfl⟩ := more
    -- the reader looks for a pair first, and goes on behind the first unit if there is none
    simp only [readString, digits, unpaired]
  · rw [readString]
    · simp only [digits]
    · rintro e f g h after followed
      exact more ⟨e, f, g, h, after, followed⟩

theorem control_unit : ∀ code < 32,
    hexUnit? '0' '0' (Nat.digitChar (code / 16)) (Nat.digitChar (code % 16)) = some code ∧
      charOf? code = some (Char.ofNat code) := by
  decide

/-- What stands for a character is read as that character. -/
theorem readString_escape (c : Char) (read rest : List Char) :
    readString (some read) (escape c ++ rest) = readString (some (c :: read)) rest := by
  unfold escape
  split
  case h_8 notQuote notSlash _ _ _ _ _ =>
    split
    next control =>
      obtain ⟨digits, code⟩ := control_unit c.toNat control
      have unit := readString_unit _ _ _ _ _ (some read) rest digits (by omega)
      rw [code, Char.ofNat_toNat] at unit
      exact unit
    next printed => exact readString_plain c (some read) rest notQuote notSlash printed
  all_goals exact readString_letter _ _ (some read) rest rfl

theorem readString_escapes (chars read rest : List Char) :
    readString (some read) (chars.flatMap escape ++ '"' :: rest) =
      some (some (read.reverse ++ chars), rest) := by
  induction chars generalizing read with
  | nil => simp [readString]
  | cons c chars ih =>
      rw [List.flatMap_cons, List.append_assoc, readString_escape, ih]
      simp

/-- A quoted text is a string, and what stands behind it is left. -/
theorem readString_quote (text : String) (rest : List Char) :
    ∃ inner, (quote text).toList = '"' :: inner ∧
      readString (some []) (inner ++ rest) = some (some text.toList, rest) := by
  refine ⟨text.toList.flatMap escape ++ ['"'], ?_, ?_⟩
  · simp [quote]
  · simpa using readString_escapes text.toList [] rest

/-! Objects of strings -/

theorem skipSpace_cons (c : Char) (rest : List Char) (solid : isJsonSpace c = false) :
    skipSpace (c :: rest) = c :: rest := by
  simp [skipSpace, solid]

theorem readValue_quote (steps : Nat) (text : String) (rest : List Char) :
    readValue (steps + 1) ((quote text).toList ++ rest) = (.string (some text), rest) := by
  obtain ⟨inner, quoted, read⟩ := readString_quote text rest
  rw [quoted, List.cons_append, readValue, skipSpace_cons _ _ rfl]
  simp [read]

theorem readMembers_last (steps : Nat) (name text : String) (rest : List Char) :
    readMembers (steps + 2)
        ((quote name).toList ++ ':' :: ((quote text).toList ++ '\x7d' :: rest)) =
      ([(some name, .string (some text))], true, rest) := by
  obtain ⟨inner, quoted, read⟩ :=
    readString_quote name (':' :: ((quote text).toList ++ '\x7d' :: rest))
  rw [quoted, List.cons_append, readMembers, skipSpace_cons _ _ rfl]
  simp only [read, skipSpace_cons ':' _ rfl, readValue_quote, skipSpace_cons '\x7d' _ rfl,
    Option.map_some, String.ofList_toList]

theorem readMembers_next (steps : Nat) (name text : String) (rest : List Char)
    (others : List (Option String × Draft)) (after : List Char)
    (follow : readMembers (steps + 1) rest = (others, true, after)) :
    readMembers (steps + 2) ((quote name).toList ++ ':' :: ((quote text).toList ++ ',' :: rest)) =
      ((some name, .string (some text)) :: others, true, after) := by
  obtain ⟨inner, quoted, read⟩ :=
    readString_quote name (':' :: ((quote text).toList ++ ',' :: rest))
  rw [quoted, List.cons_append, readMembers, skipSpace_cons _ _ rfl]
  simp only [read, skipSpace_cons ':' _ rfl, readValue_quote, skipSpace_cons ',' _ rfl, follow,
    Option.map_some, String.ofList_toList]

def stringMembers (members : List (String × String)) : List (String × Json) :=
  members.map fun member => (member.1, .string member.2)

def stringDrafts (members : List (String × String)) : List (Option String × Draft) :=
  members.map fun member => (some member.1, .string (some member.2))

theorem readMembers_text (members : List (String × String)) (some : members ≠ []) (steps : Nat)
    (rest : List Char) :
    readMembers (steps + members.length + 1)
        ((membersText (stringMembers members)).toList ++ '\x7d' :: rest) =
      (stringDrafts members, true, rest) := by
  induction members with
  | nil => exact absurd rfl some
  | cons member others ih =>
      obtain ⟨name, text⟩ := member
      cases others with
      | nil => simpa [stringMembers, stringDrafts, membersText, Json.text] using
          readMembers_last steps name text rest
      | cons next others =>
          have tail := ih (List.cons_ne_nil next others)
          have whole := readMembers_next (steps + others.length + 1) name text _ _ rest tail
          simpa [stringMembers, stringDrafts, membersText, Json.text, Nat.add_assoc] using whole

theorem length_le_membersText (members : List (String × String)) :
    members.length ≤ (membersText (stringMembers members)).toList.length := by
  induction members with
  | nil => exact Nat.zero_le _
  | cons member others ih =>
      cases others with
      | nil => simp [stringMembers, membersText]; omega
      | cons next others =>
          simp only [stringMembers, List.map_cons, membersText] at ih ⊢
          simp only [String.toList_append, List.length_append, List.length_cons] at ih ⊢
          simp
          omega

theorem membersText_cons (members : List (String × String)) (some : members ≠ []) :
    ∃ others, (membersText (stringMembers members)).toList = '"' :: others := by
  cases members with
  | nil => exact absurd rfl some
  | cons member rest =>
      obtain ⟨inner, quoted, _⟩ := readString_quote member.1 []
      cases rest <;>
        exact ⟨_, by simp [stringMembers, membersText, quoted]; rfl⟩

/-- An object of strings is read back from its text. -/
theorem read_strings (members : List (String × String)) (some : members ≠ []) :
    read (Json.object (stringMembers members)).text.toList =
      (.object (stringDrafts members) true, []) := by
  have chars : (Json.object (stringMembers members)).text.toList =
      '\x7b' :: ((membersText (stringMembers members)).toList ++ ['\x7d']) := by
    simp [Json.text]
  have enough := length_le_membersText members
  obtain ⟨others, starts⟩ := membersText_cons members some
  -- every member has a character at least, so that the characters are steps enough
  obtain ⟨steps, count⟩ : ∃ steps, (Json.object (stringMembers members)).text.toList.length =
      steps + members.length + 1 := by
    refine ⟨(membersText (stringMembers members)).toList.length + 1 - members.length, ?_⟩
    rw [chars]
    simp only [List.length_cons, List.length_append, List.length_nil]
    omega
  have members := readMembers_text members some steps []
  rw [read, count, chars, readValue, skipSpace_cons _ _ rfl]
  simp only [members]
  rw [starts, List.cons_append, skipSpace_cons _ _ rfl]
  rfl

end FaultInjection.Json
