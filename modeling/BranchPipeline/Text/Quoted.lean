import BranchPipeline.Text.Combining
import BranchPipeline.Text.Unprintable

namespace BranchPipeline
namespace Text

/-!
# Quoted texts

A text that could be mistaken for a number, or whose end could not be seen,
is shown between double quotes.  Inside, the quote, the backslash and four
control characters have escapes of two characters; every other character that
has no printed form, or that would attach to its neighbour, is written by its
code point.
-/

/-- A code point in lowercase hexadecimal, without leading zeros. -/
def hexText (code : Nat) : String :=
  String.ofList (Nat.toDigits 16 code)

/-- How one character is written between quotes. -/
def quotedChar (c : Char) : String :=
  if c == '\x00' then "\\0"
  else if c == '\t' then "\\t"
  else if c == '\r' then "\\r"
  else if c == '\n' then "\\n"
  else if c == '\\' then "\\\\"
  else if c == '"' then "\\\""
  else if isExtending c || isUnprintable c then "\\u\x7b" ++ hexText c.toNat ++ "\x7d"
  else String.singleton c

/-- The text between double quotes, with its escapes. -/
def quoted (text : String) : String :=
  "\"" ++ String.join (text.toList.map quotedChar) ++ "\""

end Text
end BranchPipeline
