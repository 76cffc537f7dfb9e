import BranchPipeline.Json.Number
import BranchPipeline.Proofs.Operation

namespace BranchPipeline
namespace Json

/-!
# Written integers can be read back

An integer is written with a sign, if it is negative, and its decimal digits, of
which the first is no zero unless it is the only one.  Followed by a comma or a
closing bracket, as in an array, it is read as the integer that it is.
-/

/-- The value of a decimal digit. -/
def digitValue (c : Char) : Nat := c.toNat - '0'.toNat

/-- What follows an item of an array. -/
inductive Delimits : List Char → Prop
  | comma (rest : List Char) : Delimits (',' :: rest)
  | bracket (rest : List Char) : Delimits (']' :: rest)

variable {chars rest : List Char}

/-! ## Digits -/

theorem decimalDigit?_of_isDigit {c : Char} (digit : c.isDigit = true) :
    Text.decimalDigit? c = some (digitValue c) := by
  simp only [Char.isDigit, Bool.and_eq_true, decide_eq_true_eq] at digit
  have bounds : ('0' ≤ c && c ≤ '9') = true := by
    rw [Bool.and_eq_true, decide_eq_true_eq, decide_eq_true_eq]
    exact digit
  rw [Text.decimalDigit?, if_pos bounds]
  rfl

theorem Delimits.takeDigits (delimits : Delimits rest) : takeDigits rest = ([], rest) := by
  cases delimits <;> rfl

theorem takeDigits_append (digits : ∀ c ∈ chars, c.isDigit = true) (delimits : Delimits rest) :
    takeDigits (chars ++ rest) = (chars.map digitValue, rest) := by
  induction chars with
  | nil => exact delimits.takeDigits
  | cons c chars inductionHypothesis =>
    have others := inductionHypothesis fun other member =>
      digits other (List.mem_cons_of_mem c member)
    rw [List.cons_append, Json.takeDigits, decimalDigit?_of_isDigit (digits c List.mem_cons_self)]
    simp only [others, List.map_cons]

theorem ofDigits_digitValue (number : Nat) :
    Text.ofDigits 10 ((Nat.toDigits 10 number).map digitValue) = number := by
  have value := Nat.ofDigitChars_ten_toDigits (n := number)
  rw [Nat.ofDigitChars_eq_foldl] at value
  rw [Text.ofDigits, List.foldl_map]
  simpa only [digitValue, Nat.mul_comm] using value

/-- Only zero is written with a leading zero. -/
theorem eq_nil_of_toDigits (number : Nat) (leads : Nat.toDigits 10 number = '0' :: rest) :
    rest = [] := by
  induction number using Nat.strongRecOn generalizing rest with
  | ind number inductionHypothesis =>
    by_cases single : number < 10
    · rw [Nat.toDigits_of_lt_base single] at leads
      exact (List.cons.inj leads).2.symm
    · have large := Nat.not_lt.mp single
      rw [Nat.toDigits_of_base_le (by decide) large] at leads
      cases front : Nat.toDigits 10 (number / 10) with
      | nil => exact absurd front Nat.toDigits_ne_nil
      | cons c more =>
        rw [front, List.cons_append, List.cons.injEq] at leads
        rcases leads with ⟨rfl, -⟩
        cases inductionHypothesis (number / 10) (by omega) front
        have value := ofDigits_digitValue (number / 10)
        rw [front] at value
        have zero : 0 = number / 10 := value
        omega

theorem isDigit_of_mem_toDigits (number : Nat) :
    ∀ c ∈ Nat.toDigits 10 number, c.isDigit = true :=
  fun _ => Nat.isDigit_of_mem_toDigits (by decide) (by decide)

theorem eq_zero_of_digitValue {c : Char} (digit : c.isDigit = true) (zero : digitValue c = 0) :
    c = '0' := by
  simp only [Char.isDigit, Bool.and_eq_true, decide_eq_true_eq] at digit
  have least : '0'.toNat ≤ c.toNat := digit.1
  exact Char.toNat_inj.mp (Nat.le_antisymm (Nat.sub_eq_zero_iff_le.mp zero) least)

/-- The digits of a number are read as a whole. -/
theorem readWhole_toDigits (number : Nat) (delimits : Delimits rest) :
    readWhole (Nat.toDigits 10 number ++ rest) =
      .ok ((Nat.toDigits 10 number).map digitValue, rest) := by
  have taken := takeDigits_append (isDigit_of_mem_toDigits number) delimits
  cases written : Nat.toDigits 10 number with
  | nil => exact absurd written Nat.toDigits_ne_nil
  | cons c others =>
    have digit : c.isDigit = true :=
      isDigit_of_mem_toDigits number c (written ▸ List.mem_cons_self)
    rw [written] at taken
    have digits : readDigits (c :: others ++ rest) = .ok ((c :: others).map digitValue, rest) := by
      rw [readDigits, taken]
      rfl
    refine bind_eq_ok_iff.mpr ⟨_, digits, ?_⟩
    split
    · rename_i leads
      rw [List.map_cons, Prod.mk.injEq, List.cons.injEq] at leads
      rcases leads with ⟨⟨zero, more⟩, -⟩
      cases eq_zero_of_digitValue digit zero
      cases eq_nil_of_toDigits number written
      cases more
    · rename_i same
      rw [same]

/-! ## Whole integers -/

theorem Delimits.readFraction (delimits : Delimits rest) :
    readFraction rest = .ok (none, rest) := by
  cases delimits <;> rfl

theorem Delimits.readExponent (delimits : Delimits rest) :
    readExponent rest = .ok (none, rest) := by
  cases delimits <;> rfl

/-- The sign of an integer, as it is written. -/
def signChars (negative : Bool) : List Char := if negative then ['-'] else []

/-- What is written as an integer that fits a word is read as this integer. -/
theorem readNumber_of_integer? {negative : Bool} {number : Nat} {value : Int}
    (fits : Written.integer? { negative, whole := (Nat.toDigits 10 number).map digitValue } =
      some value)
    (delimits : Delimits rest) :
    readNumber (signChars negative ++ (Nat.toDigits 10 number ++ rest)) =
      .ok (.integer value, rest) := by
  have unsigned (others : List Char) : Nat.toDigits 10 number ++ rest ≠ '-' :: others := by
    intro same
    cases written : Nat.toDigits 10 number with
    | nil => exact Nat.toDigits_ne_nil written
    | cons c more =>
      have digit := isDigit_of_mem_toDigits number c (written ▸ List.mem_cons_self)
      rw [written] at same
      cases same
      cases digit
  unfold readNumber
  split
  rename_i sign behind signed
  have same : (negative, Nat.toDigits 10 number ++ rest) = (sign, behind) := by
    rw [← signed]
    cases negative with
    | true => rfl
    | false =>
      split
      · rename_i others leads
        exact absurd leads (unsigned others)
      · rfl
  cases same
  refine bind_eq_ok_iff.mpr ⟨_, readWhole_toDigits number delimits, ?_⟩
  refine bind_eq_ok_iff.mpr ⟨_, delimits.readFraction, ?_⟩
  refine bind_eq_ok_iff.mpr ⟨_, delimits.readExponent, ?_⟩
  simp only [Option.isNone_none, Bool.and_self, if_true, Option.getD_none, fits]
  rfl

theorem toList_toString_ofNat (number : Nat) :
    (toString (Int.ofNat number)).toList = signChars false ++ Nat.toDigits 10 number := by
  show (toString number).toList = Nat.toDigits 10 number
  rw [Nat.toString_eq_ofList_toDigits, String.toList_ofList]

theorem toList_toString_negSucc (number : Nat) :
    (toString (Int.negSucc number)).toList = signChars true ++ Nat.toDigits 10 (number + 1) := by
  show ("-" ++ toString (number + 1)).toList = _
  rw [String.toList_append, Nat.toString_eq_ofList_toDigits, String.toList_ofList,
    String.toList_ofList]
  rfl

/-- Every signed word is read as it is written. -/
theorem readNumber_toString (word : Int64) (delimits : Delimits rest) :
    readNumber ((toString word.toInt).toList ++ rest) = .ok (.integer word.toInt, rest) := by
  have least := word.le_toInt
  have most := word.toInt_lt
  cases signed : word.toInt with
  | ofNat number =>
    rw [signed, Int.ofNat_eq_natCast] at most
    rw [toList_toString_ofNat, List.append_assoc]
    refine readNumber_of_integer? ?_ delimits
    have fits : number ≤ largestWord := by unfold largestWord; omega
    simp only [Written.integer?, ofDigits_digitValue, Bool.false_eq_true, if_false, fits, if_true]
    rfl
  | negSucc number =>
    rw [signed] at least
    rw [toList_toString_negSucc, List.append_assoc]
    refine readNumber_of_integer? ?_ delimits
    have fits : (number + 1 != 0 && decide (number + 1 ≤ Text.signBound)) = true := by
      rw [Bool.and_eq_true, bne_iff_ne, decide_eq_true_eq]
      exact ⟨Nat.succ_ne_zero number, by unfold Text.signBound; omega⟩
    simp only [Written.integer?, ofDigits_digitValue, if_true, fits]
    rfl

end Json
end BranchPipeline
