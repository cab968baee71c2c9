import FaultInjection.Error
import FaultInjection.Table
import FaultInjection.Text.Blank

/-!
Labels of nodes and selectors over them. Both are written as `key=value` parts between commas. A
node matches a selector if it carries every label that the selector asks for, so the empty
selector matches all nodes.
-/

namespace FaultInjection

abbrev Labels := Table String

structure Selector where
  requirements : List (String × String)
  deriving DecidableEq, Repr, Inhabited

namespace Selector

/-- The parts of a text that are not blank, without the white space around them. -/
def parts (text : List Char) : List (List Char) :=
  ((Text.splitAll ',' text).map Text.trimChars).filter fun part => !part.isEmpty

/-- A part up to its first equals sign is the key, the rest is the value. -/
def requirement (part : List Char) : Except Error (String × String) :=
  match Text.splitFirst '=' part with
  | none => .error (.invalidSelector s!"'{String.ofList part}' is not key=value")
  | some (key, value) =>
      let name := Text.trimChars key
      if name.isEmpty then .error (.invalidSelector s!"'{String.ofList part}' has an empty key")
      else .ok (String.ofList name, String.ofList (Text.trimChars value))

def requirementsOf : List (List Char) → Except Error (List (String × String))
  | [] => .ok []
  | part :: rest => do
      let first ← requirement part
      let others ← requirementsOf rest
      .ok (first :: others)

def parse (text : String) : Except Error Selector :=
  (requirementsOf (parts text.toList)).map fun requirements => ⟨requirements⟩

def isEmpty (selector : Selector) : Bool := selector.requirements.isEmpty

def accepts (selector : Selector) (labels : Labels) : Bool :=
  selector.requirements.all fun requirement => labels.get? requirement.1 = some requirement.2

def text (selector : Selector) : String :=
  ",".intercalate (selector.requirements.map fun requirement =>
    requirement.1 ++ "=" ++ requirement.2)

end Selector

/-- The labels that a text gives, of which the last under a key counts. -/
def Labels.parse (text : String) : Except Error Labels :=
  (Selector.parse text).map fun selector => Table.ofEntries selector.requirements

end FaultInjection
