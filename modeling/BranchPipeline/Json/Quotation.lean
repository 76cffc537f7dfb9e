import BranchPipeline.Json.Number

namespace BranchPipeline
namespace Json

/-!
# Strings in JSON texts

A string stands between double quotes.  Control characters must be escaped;
a character outside the basic plane may be escaped by a pair of surrogates,
and half a pair is an error.
-/

/-- The number of bytes that a text takes. -/
def byteLength (chars : List Char) : Nat :=
  chars.foldl (fun length c => length + c.utf8Size) 0

/-- Reads the four hexadecimal digits of a code unit.  The text has ended too
early if fewer than four bytes of it are left, whatever they are. -/
def readUnit (input : List Char) : Except Fault Nat :=
  let digits := input.take 4
  if byteLength digits < 4 then .error .ended
  else if digits.length < 4 then .error .malformed
  else
    match Text.natural? 16 Text.hexDigit? digits with
    | some unit => .ok unit
    | none => .error .malformed

/-- Whether a code unit is the first half of a pair. -/
def isLeading (unit : Nat) : Bool := 0xD800 ≤ unit && unit ≤ 0xDBFF

/-- Whether a code unit is the second half of a pair. -/
def isTrailing (unit : Nat) : Bool := 0xDC00 ≤ unit && unit ≤ 0xDFFF

/-- The character that two halves denote. -/
def combine (leading trailing : Nat) : Char :=
  Char.ofNat (0x10000 + (leading - 0xD800) * 0x400 + (trailing - 0xDC00))

/-- Reads the second half of a pair, which must follow the first at once. -/
def readTrailing (leading : Nat) : List Char → Except Fault Char
  | '\\' :: 'u' :: rest => do
    let unit ← readUnit rest
    if isTrailing unit then return combine leading unit else .error .malformed
  | [] | ['\\'] => .error .ended
  | _ => .error .malformed

/-- Reads the rest of an escape by code unit, behind its letter.  Gives the
character and how many characters of the text it took. -/
def readUnitEscape (input : List Char) : Except Fault (Char × Nat) := do
  let unit ← readUnit input
  if isTrailing unit then .error .malformed
  else if isLeading unit then
    let c ← readTrailing unit (input.drop 4)
    return (c, 10)
  else return (Char.ofNat unit, 4)

/-- Reads the rest of an escape, behind the backslash.  Gives the character
and how many characters of the text it took. -/
def readEscape : List Char → Except Fault (Char × Nat)
  | [] => .error .ended
  | '"' :: _ => .ok ('"', 1)
  | '\\' :: _ => .ok ('\\', 1)
  | '/' :: _ => .ok ('/', 1)
  | 'b' :: _ => .ok ('\x08', 1)
  | 'f' :: _ => .ok ('\x0c', 1)
  | 'n' :: _ => .ok ('\n', 1)
  | 'r' :: _ => .ok ('\r', 1)
  | 't' :: _ => .ok ('\t', 1)
  | 'u' :: rest => do
    let (c, taken) ← readUnitEscape rest
    return (c, taken + 1)
  | _ => .error .malformed

/-- Reads the rest of a string, behind its opening quote. -/
def readQuoted : List Char → Except Fault (List Char × List Char)
  | [] => .error .ended
  | '"' :: rest => .ok ([], rest)
  | '\\' :: rest => do
    let (c, taken) ← readEscape rest
    let (text, left) ← readQuoted (rest.drop taken)
    return (c :: text, left)
  | c :: rest =>
    if c.toNat < 0x20 then .error .malformed
    else do
      let (text, left) ← readQuoted rest
      return (c :: text, left)
termination_by input => input.length
decreasing_by
  all_goals simp only [List.length_drop, List.length_cons]; omega

def writtenChar (c : Char) : String :=
  if c == '"' then "\\\""
  else if c == '\\' then "\\\\"
  else if c == '\x08' then "\\b"
  else if c == '\x0c' then "\\f"
  else if c == '\n' then "\\n"
  else if c == '\r' then "\\r"
  else if c == '\t' then "\\t"
  else if c.toNat < 0x20 then
    let digits := Nat.toDigits 16 c.toNat
    "\\u" ++ String.ofList (List.replicate (4 - digits.length) '0' ++ digits)
  else String.singleton c

def written (text : String) : String :=
  "\"" ++ String.join (text.toList.map writtenChar) ++ "\""

end Json
end BranchPipeline
