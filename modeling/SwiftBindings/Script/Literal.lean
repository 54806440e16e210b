/-
**String literals of the scripting language.**

The value of a string literal is a list of code points that may contain halves of surrogate pairs,
each from an escape of its own. Two halves side by side make one character; a half alone becomes the
replacement character.
-/

namespace SwiftBindings.Script

/-- The value of a hexadecimal digit. -/
def hexDigit? (c : Char) : Option Nat :=
  if c.isDigit then some (c.toNat - 48)
  else if 'a' ≤ c ∧ c ≤ 'f' then some (c.toNat - 87)
  else if 'A' ≤ c ∧ c ≤ 'F' then some (c.toNat - 55)
  else none

/-- The value of a list of hexadecimal digits, at least one. -/
def hexValue? (digits : List Char) : Option Nat :=
  if digits.isEmpty then none
  else digits.foldlM (fun value digit => (hexDigit? digit).map (16 * value + ·)) 0

/-- What an escape of one letter stands for; any other character stands for itself. -/
def simpleEscape (c : Char) : Nat :=
  match c with
  | 'n' => 10
  | 't' => 9
  | 'r' => 13
  | 'b' => 8
  | 'v' => 11
  | 'f' => 12
  | c => c.toNat

/-- A digit below eight. -/
def isOctalDigit (c : Char) : Bool := '0' ≤ c && c ≤ '7'

/-- The value of a list of octal digits. -/
def octalValue (digits : List Char) : Nat :=
  digits.foldl (fun value digit => 8 * value + (digit.toNat - 48)) 0

/-- The octal digits that make up one escape: at most three, for a value below 256. -/
def octalEscape (chars : List Char) : List Char :=
  let digits := (chars.takeWhile isOctalDigit).take 3
  if octalValue digits < 256 then digits else digits.take 2

/-- A character that ends a line. -/
def isLineEnd (c : Char) : Bool :=
  c == '\n' || c == '\r' || c == '\u2028' || c == '\u2029'

/-- The code points of a literal's body; the first argument bounds the number of steps. An escaped
line end stands for nothing. -/
def decodeBody : Nat → List Char → Option (List Nat)
  | _, [] => some []
  | 0, _ :: _ => none
  | steps + 1, '\\' :: '\r' :: '\n' :: rest => decodeBody steps rest
  | steps + 1, '\\' :: 'x' :: a :: b :: rest => do
    let code ← hexValue? [a, b]
    return code :: (← decodeBody steps rest)
  | steps + 1, '\\' :: 'u' :: '\x7b' :: rest => do
    let code ← hexValue? (rest.takeWhile (· != '\x7d'))
    if code > 0x10FFFF then none
    else return code :: (← decodeBody steps ((rest.dropWhile (· != '\x7d')).drop 1))
  | steps + 1, '\\' :: 'u' :: a :: b :: c :: d :: rest => do
    let code ← hexValue? [a, b, c, d]
    return code :: (← decodeBody steps rest)
  | steps + 1, '\\' :: c :: rest =>
    if isLineEnd c then decodeBody steps rest
    else if isOctalDigit c then
      let digits := octalEscape (c :: rest)
      (decodeBody steps ((c :: rest).drop digits.length)).map (octalValue digits :: ·)
    else if c = 'x' ∨ c = 'u' then none
    else (decodeBody steps rest).map (simpleEscape c :: ·)
  | steps + 1, c :: rest => (decodeBody steps rest).map (c.toNat :: ·)

/-- The code point is the first half of a surrogate pair. -/
def isLeadingHalf (code : Nat) : Bool := 0xD800 ≤ code && code < 0xDC00

/-- The code point is the second half of a surrogate pair. -/
def isTrailingHalf (code : Nat) : Bool := 0xDC00 ≤ code && code < 0xE000

/-- The text of a list of code points: pairs of halves are joined, halves alone are replaced. -/
def joinHalves : List Nat → List Char
  | [] => []
  | [code] =>
    [if isLeadingHalf code || isTrailingHalf code then '\ufffd' else Char.ofNat code]
  | code :: next :: rest =>
    if isLeadingHalf code then
      if isTrailingHalf next then
        Char.ofNat (0x10000 + 0x400 * (code - 0xD800) + (next - 0xDC00)) :: joinHalves rest
      else '\ufffd' :: joinHalves (next :: rest)
    else if isTrailingHalf code then '\ufffd' :: joinHalves (next :: rest)
    else Char.ofNat code :: joinHalves (next :: rest)

/-- The value of a string literal with the given body. -/
def literalValue? (body : List Char) : Option String :=
  (decodeBody body.length body).map fun codes => String.ofList (joinHalves codes)

/-- The body of a string literal up to its closing quote, and the text after the quote. -/
def literalBody? (quote : Char) : List Char → Option (List Char × List Char)
  | [] => none
  | '\\' :: '\r' :: '\n' :: rest =>
    (literalBody? quote rest).map fun cut => ('\\' :: '\r' :: '\n' :: cut.1, cut.2)
  | '\\' :: c :: rest => (literalBody? quote rest).map fun cut => ('\\' :: c :: cut.1, cut.2)
  | c :: rest =>
    if c = quote then some ([], rest)
    else if c = '\n' ∨ c = '\r' then none
    else (literalBody? quote rest).map fun cut => (c :: cut.1, cut.2)

end SwiftBindings.Script
