import BranchPipeline.Decimal.Scientific
import BranchPipeline.Json.Quotation
import BranchPipeline.Text.Blank
import BranchPipeline.Text.Quoted

namespace BranchPipeline

/-!
# JSON values

How JSON is read is not a rule of the simulator, which leaves it to a library.
The definitions here follow the documented reading.  A value is one of three
words, a number, a quoted text, an array or an object.  Four kinds of blanks may
stand around a value and around the signs between values, which are one colon
behind a key and one comma between two items, none behind the last.  Behind the
value of a text there are only blanks.  Values nest at most 127 deep.

A reader of a certain shape takes the text as it comes.  It fails as soon as
the text in front of it cannot be of that shape, and then says what it found
and what it wanted, even if the text is no JSON further on.  A cell of an
executable is the exception: its whole value is read before anything is said
about it.  A count is an integer that fits an unsigned machine word.
-/

inductive Json where
  | null
  | bool (value : Bool)
  | number (value : Json.Number)
  | string (text : String)
  | array (items : List Json)
  | object (members : List (String × Json))

namespace Json

/-- Drops the blanks in front. -/
def skipBlanks (input : List Char) : List Char :=
  input.dropWhile Text.isAsciiBlank

/-- Reads one of the three words that stand for a value, letter by letter. -/
def readWord : List Char → List Char → Except Fault (List Char)
  | [], input => .ok input
  | _ :: _, [] => .error .ended
  | letter :: word, c :: rest =>
    if c == letter then readWord word rest else .error .malformed

/-- Reads items up to a closing bracket, each of which changes a state; commas
stand between them.  `first` says whether no item has been read yet, and
`bound` is more than the number of items to come. -/
def readItemsFrom {σ : Type} (close : Char)
    (item : σ → List Char → Except Fault (σ × List Char)) :
    (bound : Nat) → (state : σ) → (first : Bool) → List Char → Except Fault (σ × List Char)
  | 0, _, _, _ => .error .malformed
  | bound + 1, state, first, input =>
    match skipBlanks input with
    | [] => .error .ended
    | c :: rest =>
      if c == close then .ok (state, rest)
      else if first || c == ',' then do
        let (state, left) ← item state (if first then c :: rest else skipBlanks rest)
        readItemsFrom close item bound state false left
      else .error .malformed

/-- Reads all items behind an opening bracket.  An item takes a character at
least, so there are at most as many items as characters. -/
def readItems {σ : Type} (close : Char)
    (item : σ → List Char → Except Fault (σ × List Char)) (state : σ) (input : List Char) :
    Except Fault (σ × List Char) :=
  readItemsFrom close item (input.length + 1) state true input

/-- Reads the colon between the key and the value of a member. -/
def readColon (input : List Char) : Except Fault (List Char) :=
  match skipBlanks input with
  | [] => .error .ended
  | ':' :: rest => .ok rest
  | _ => .error .malformed

def readKey : List Char → Except Fault (String × List Char)
  | [] => .error .ended
  | '"' :: rest => do
    let (text, rest) ← readQuoted rest
    return (String.ofList text, rest)
  | _ => .error .malformed

def startsNumber (c : Char) : Bool :=
  c == '-' || ('0' ≤ c && c ≤ '9')

/-- How deep values may nest. -/
def deepest : Nat := 127

/-- Reads a value in which brackets nest at most `depth` deep. -/
def readValue (depth : Nat) (input : List Char) : Except Fault (Json × List Char) :=
  match skipBlanks input with
  | [] => .error .ended
  | 'n' :: rest => do
    let rest ← readWord ['u', 'l', 'l'] rest
    return (null, rest)
  | 't' :: rest => do
    let rest ← readWord ['r', 'u', 'e'] rest
    return (bool true, rest)
  | 'f' :: rest => do
    let rest ← readWord ['a', 'l', 's', 'e'] rest
    return (bool false, rest)
  | '"' :: rest => do
    let (text, rest) ← readQuoted rest
    return (string (String.ofList text), rest)
  | '[' :: rest =>
    match depth with
    | 0 => .error .malformed
    | depth + 1 => do
      let (items, rest) ← readItems ']' (fun items input => do
        let (item, left) ← readValue depth input
        return (item :: items, left)) [] rest
      return (array items.reverse, rest)
  | '\x7b' :: rest =>
    match depth with
    | 0 => .error .malformed
    | depth + 1 => do
      let (members, rest) ← readItems '\x7d' (fun members input => do
        let (key, left) ← readKey input
        let left ← readColon left
        let (value, left) ← readValue depth left
        return ((key, value) :: members, left)) [] rest
      return (object members.reverse, rest)
  | c :: rest =>
    if startsNumber c then do
      let (value, rest) ← readNumber (c :: rest)
      return (number value, rest)
    else .error .malformed
termination_by depth

/-- Checks that nothing but blanks is left. -/
def readEnd (input : List Char) : Except Fault Unit :=
  if (skipBlanks input).isEmpty then .ok () else .error .malformed

/-- What a number is called in a message. -/
def numberText : Number → String
  | .integer value => s!"integer `{value}`"
  | .double value => s!"floating point `{Decimal.scientific value}`"

/-- The complaint that something was found where another shape was wanted. -/
def unfitType (found wanted : String) : Fault :=
  .unfit s!"invalid type: {found}, expected {wanted}"

/-- Finds out what stands in front of the reader instead of the wanted shape.
Only as much is read as it takes to name it. -/
def refuse {α : Type} (wanted : String) (input : List Char) : Except Fault α :=
  match skipBlanks input with
  | [] => .error .ended
  | 'n' :: rest => do
    let _ ← readWord ['u', 'l', 'l'] rest
    .error (unfitType "null" wanted)
  | 't' :: rest => do
    let _ ← readWord ['r', 'u', 'e'] rest
    .error (unfitType "boolean `true`" wanted)
  | 'f' :: rest => do
    let _ ← readWord ['a', 'l', 's', 'e'] rest
    .error (unfitType "boolean `false`" wanted)
  | '"' :: rest => do
    let (text, _) ← readQuoted rest
    .error (unfitType s!"string {Text.quoted (String.ofList text)}" wanted)
  | '[' :: _ => .error (unfitType "sequence" wanted)
  | '\x7b' :: _ => .error (unfitType "map" wanted)
  | c :: rest =>
    if startsNumber c then do
      let (value, _) ← readNumber (c :: rest)
      .error (unfitType (numberText value) wanted)
    else .error .malformed

/-- Reads a count.  No integer of a JSON text has more than 64 bits. -/
def readCount (input : List Char) : Except Fault (UInt64 × List Char) :=
  match skipBlanks input with
  | [] => .error .ended
  | c :: rest =>
    if startsNumber c then do
      match ← readNumber (c :: rest) with
      | (.integer value, rest) =>
        if value < 0 then
          .error (.unfit s!"invalid value: {numberText (.integer value)}, expected usize")
        else return (value.toNat.toUInt64, rest)
      | (.double value, _) => .error (unfitType (numberText (.double value)) "usize")
    else refuse "usize" (c :: rest)

/-- Reads a count, or the word that stands for none. -/
def readOptionalCount (input : List Char) : Except Fault (Option UInt64 × List Char) :=
  match skipBlanks input with
  | 'n' :: rest => do
    let rest ← readWord ['u', 'l', 'l'] rest
    return (none, rest)
  | input => do
    let (count, rest) ← readCount input
    return (some count, rest)

end Json
end BranchPipeline
