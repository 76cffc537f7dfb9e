import BranchPipeline.Json.Quotation

namespace BranchPipeline
namespace Json

/-!
# Written strings can be read back

What stands between the quotes of a written string is, character by character,
one of three things: an escape by letter, an escape by code unit, or the
character itself.  The reader undoes each of them, whatever follows.
-/

/-- What is read behind a character of a string. -/
def behind (c : Char) : List Char × List Char → List Char × List Char
  | (text, rest) => (c :: text, rest)

variable {c : Char} {taken : Nat} {rest : List Char}

theorem readQuoted_quote (rest : List Char) : readQuoted ('"' :: rest) = .ok ([], rest) := by
  rw [readQuoted]

theorem readQuoted_escape (escaped : readEscape rest = .ok (c, taken)) :
    readQuoted ('\\' :: rest) = (readQuoted (rest.drop taken)).map (behind c) := by
  rw [readQuoted, escaped]
  show (do let (text, left) ← readQuoted (rest.drop taken); return (c :: text, left)) = _
  cases readQuoted (rest.drop taken) <;> rfl

theorem readQuoted_plain (quote : c ≠ '"') (backslash : c ≠ '\\') (printable : 0x20 ≤ c.toNat) :
    readQuoted (c :: rest) = (readQuoted rest).map (behind c) := by
  rw [readQuoted, if_neg (Nat.not_lt.mpr printable)]
  · cases readQuoted rest <;> rfl
  · exact quote
  · exact backslash

/-! ## Escapes by code unit -/

/-- The four digits of a code unit. -/
def unitDigits (unit : Nat) : List Char :=
  let digits := Nat.toDigits 16 unit
  List.replicate (4 - digits.length) '0' ++ digits

theorem unitDigits_control : ∀ unit < 0x20, (unitDigits unit).length = 4 ∧
    byteLength (unitDigits unit) = 4 ∧
    Text.natural? 16 Text.hexDigit? (unitDigits unit) = some unit := by
  decide

theorem readEscape_unit (control : c.toNat < 0x20) :
    readEscape ('u' :: (unitDigits c.toNat ++ rest)) = .ok (c, 5) := by
  rcases unitDigits_control c.toNat control with ⟨length, bytes, value⟩
  have front : (unitDigits c.toNat ++ rest).take 4 = unitDigits c.toNat := by
    rw [← length, List.take_left]
  have unit : readUnit (unitDigits c.toNat ++ rest) = .ok c.toNat := by
    unfold readUnit
    simp only [front, bytes, length, value, Nat.lt_irrefl, if_false]
  have single : readUnitEscape (unitDigits c.toNat ++ rest) = .ok (c, 4) := by
    have trailing : isTrailing c.toNat = false := by
      simp only [isTrailing, Bool.and_eq_false_imp, decide_eq_true_eq, decide_eq_false_iff_not]
      omega
    have leading : isLeading c.toNat = false := by
      simp only [isLeading, Bool.and_eq_false_imp, decide_eq_true_eq, decide_eq_false_iff_not]
      omega
    unfold readUnitEscape
    rw [unit]
    show (if isTrailing c.toNat then _ else if isLeading c.toNat then _ else
      (.ok (Char.ofNat c.toNat, 4) : Except Fault (Char × Nat))) = _
    rw [trailing, leading, Char.ofNat_toNat]
    rfl
  rw [readEscape, single]
  rfl

/-! ## Whole strings -/

/-- The characters that are escaped by a letter, with their letters. -/
def letters : List (Char × Char) :=
  [('"', '"'), ('\\', '\\'), ('\x08', 'b'), ('\x0c', 'f'), ('\n', 'n'), ('\r', 'r'), ('\t', 't')]

theorem escape_of_mem_letters {letter : Char} (escaped : (c, letter) ∈ letters) :
    (writtenChar c).toList = ['\\', letter] ∧ readEscape (letter :: rest) = .ok (c, 1) := by
  simp only [letters, List.mem_cons, Prod.mk.injEq, List.not_mem_nil, or_false] at escaped
  rcases escaped with ⟨rfl, rfl⟩ | ⟨rfl, rfl⟩ | ⟨rfl, rfl⟩ | ⟨rfl, rfl⟩ | ⟨rfl, rfl⟩ | ⟨rfl, rfl⟩ |
    ⟨rfl, rfl⟩ <;> exact ⟨rfl, rfl⟩

/-- Every other character but a control character stands for itself. -/
theorem writtenChar_of_letterless (letterless : ∀ letter, (c, letter) ∉ letters) :
    c ≠ '"' ∧ c ≠ '\\' ∧ (writtenChar c).toList =
      if c.toNat < 0x20 then '\\' :: 'u' :: unitDigits c.toNat else [c] := by
  have differs (other letter : Char) (listed : (other, letter) ∈ letters) : c ≠ other := by
    rintro rfl
    exact letterless letter listed
  have quote := differs '"' '"' (by decide)
  have backslash := differs '\\' '\\' (by decide)
  have backspace := differs '\x08' 'b' (by decide)
  have feed := differs '\x0c' 'f' (by decide)
  have newline := differs '\n' 'n' (by decide)
  have carriage := differs '\r' 'r' (by decide)
  have tab := differs '\t' 't' (by decide)
  refine ⟨quote, backslash, ?_⟩
  simp only [writtenChar, beq_iff_eq, quote, backslash, backspace, feed, newline, carriage, tab,
    if_false]
  split
  · rw [String.toList_append, String.toList_ofList, String.toList_ofList]
    rfl
  · exact String.toList_singleton c

/-- Every written character is read back. -/
theorem readQuoted_writtenChar (c : Char) (rest : List Char) :
    readQuoted ((writtenChar c).toList ++ rest) = (readQuoted rest).map (behind c) := by
  by_cases escaped : ∃ letter, (c, letter) ∈ letters
  · rcases escaped with ⟨letter, escaped⟩
    rcases escape_of_mem_letters escaped with ⟨writes, reads⟩
    rw [writes]
    exact readQuoted_escape reads
  · rcases writtenChar_of_letterless (not_exists.mp escaped) with ⟨quote, backslash, writes⟩
    rw [writes]
    split
    · rename_i control
      have length := (unitDigits_control c.toNat control).1
      show readQuoted ('\\' :: 'u' :: (unitDigits c.toNat ++ rest)) = _
      rw [readQuoted_escape (readEscape_unit control), List.drop_succ_cons, ← length,
        List.drop_left]
    · rename_i printable
      exact readQuoted_plain quote backslash (Nat.not_lt.mp printable)

theorem readQuoted_flatMap (text rest : List Char) :
    readQuoted (text.flatMap (fun c => (writtenChar c).toList) ++ '"' :: rest) =
      .ok (text, rest) := by
  induction text with
  | nil => exact readQuoted_quote rest
  | cons c text inductionHypothesis =>
    rw [List.flatMap_cons, List.append_assoc, readQuoted_writtenChar, inductionHypothesis]
    rfl

theorem toList_written (text : String) :
    (written text).toList =
      '"' :: (text.toList.flatMap (fun c => (writtenChar c).toList) ++ ['"']) := by
  simp only [written, String.toList_append, String.toList_join, List.flatMap_map]
  rfl

end Json
end BranchPipeline
