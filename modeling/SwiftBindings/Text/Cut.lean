/-
**Cutting texts at marks.**

Taking a mark off the start or the end of a text, and cutting a text at the first occurrence of a
character or at all of them.
-/

namespace SwiftBindings.Text

/-- What follows the mark, when the text starts with it. -/
def afterMark? : List Char → List Char → Option (List Char)
  | [], chars => some chars
  | _ :: _, [] => none
  | m :: mark, c :: chars => if m = c then afterMark? mark chars else none

/-- What precedes the last character, when it is the given one. -/
def beforeLast? (last : Char) (chars : List Char) : Option (List Char) :=
  if chars.getLast? = some last then some chars.dropLast else none

/-- What precedes and what follows the first occurrence of a character. -/
def cutAt? (mark : Char) (chars : List Char) : Option (List Char × List Char) :=
  match chars.dropWhile (· != mark) with
  | [] => none
  | _ :: rest => some (chars.takeWhile (· != mark), rest)

/-- The pieces between the occurrences of a character, empty ones included. -/
def pieces (mark : Char) : List Char → List (List Char)
  | [] => [[]]
  | c :: rest =>
    if c = mark then [] :: pieces mark rest
    else
      match pieces mark rest with
      | [] => [[c]]
      | piece :: others => (c :: piece) :: others

end SwiftBindings.Text
