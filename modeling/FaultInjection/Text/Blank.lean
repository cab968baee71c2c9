/-!
White space as Unicode defines it, and the text that is left when the white space around it is
dropped. Options, labels and durations are all read up to surrounding white space.
-/

namespace FaultInjection.Text

/-- The code points with the Unicode property `White_Space`. -/
def isSpace (c : Char) : Bool :=
  let code := c.toNat
  (0x09 ≤ code && code ≤ 0x0D) || code == 0x20 || code == 0x85 || code == 0xA0 ||
    code == 0x1680 || (0x2000 ≤ code && code ≤ 0x200A) || code == 0x2028 || code == 0x2029 ||
    code == 0x202F || code == 0x205F || code == 0x3000

def trimStart (chars : List Char) : List Char := chars.dropWhile isSpace

def trimEnd (chars : List Char) : List Char := (chars.reverse.dropWhile isSpace).reverse

def trimChars (chars : List Char) : List Char := trimEnd (trimStart chars)

/-- The part before the first `mark` and the part after it, if `mark` occurs. -/
def splitFirst (mark : Char) (chars : List Char) : Option (List Char × List Char) :=
  match chars.dropWhile (· != mark) with
  | [] => none
  | _ :: after => some (chars.takeWhile (· != mark), after)

/-- The parts between the occurrences of `mark`; there is always one more part than marks. -/
def splitAll (mark : Char) : List Char → List (List Char)
  | [] => [[]]
  | c :: rest =>
      match splitAll mark rest with
      | [] => [[c]]
      | part :: parts => if c = mark then [] :: part :: parts else (c :: part) :: parts

end FaultInjection.Text
