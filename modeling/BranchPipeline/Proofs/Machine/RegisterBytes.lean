import Mathlib
import BranchPipeline.RegisterFile

namespace BranchPipeline

/-!
# The bytes of registers

A register is written at four widths, and what lies above a narrow write stays.
So the bytes of a register need not stem from one write: each of them is that of
the latest number that was written wide enough to reach it.  An instruction text
takes the whole register, and a number written over it finds zeros above.

Every sequence of writes to a new register file leaves just this behind.
-/

/-! ## Masks -/

namespace Width

variable (width : Width) (old new : UInt64)

/-- The touched bytes alone are the value modulo the bytes' range. -/
theorem toNat_truncate (value : UInt64) :
    (width.truncate value).toNat = value.toNat % 2 ^ (8 * width.bytes) := by
  have mask : width.mask.toNat = 2 ^ (8 * width.bytes) - 1 := by cases width <;> rfl
  rw [truncate, UInt64.toNat_and, mask, Nat.and_two_pow_sub_one_eq_mod]

/-- A write at a width replaces the bits up to there. -/
theorem testBit_overwrite (place : Nat) :
    (width.overwrite old new).toNat.testBit place =
      if place < 8 * width.bytes then new.toNat.testBit place else old.toNat.testBit place := by
  have mask : width.mask.toNat = 2 ^ (8 * width.bytes) - 1 := by cases width <;> rfl
  have above : (~~~ width.mask).toNat = 2 ^ 64 - (width.mask.toNat + 1) := by
    cases width <;> rfl
  have bits : 8 * width.bytes ≤ 64 := by cases width <;> decide
  rw [overwrite, UInt64.toNat_or, UInt64.toNat_and, UInt64.toNat_and, Nat.testBit_or,
    Nat.testBit_and, Nat.testBit_and, above, Nat.testBit_two_pow_sub_succ width.mask.toNat_lt, mask,
    Nat.testBit_two_pow_sub_one]
  by_cases low : place < 8 * width.bytes
  · simp [low]
  · by_cases inside : place < 64
    · simp [low, inside]
    · -- Beyond the word neither mask matters, since nothing is set there.
      have beyond : old.toNat.testBit place = false := by
        refine Nat.testBit_lt_two_pow (Nat.lt_of_lt_of_le old.toNat_lt ?_)
        exact Nat.pow_le_pow_right (by decide) (Nat.le_of_not_lt inside)
      simp [low, beyond]

/-- The low bytes after a write are those of the value. -/
theorem overwrite_low :
    (width.overwrite old new).toNat % 2 ^ (8 * width.bytes) =
      new.toNat % 2 ^ (8 * width.bytes) := by
  refine Nat.eq_of_testBit_eq fun place => ?_
  rw [Nat.testBit_mod_two_pow, Nat.testBit_mod_two_pow, testBit_overwrite]
  by_cases low : place < 8 * width.bytes
  · rw [if_pos low]
  · rw [decide_eq_false low, Bool.false_and, Bool.false_and]

/-- The other bytes are those from before. -/
theorem overwrite_high :
    (width.overwrite old new).toNat / 2 ^ (8 * width.bytes) =
      old.toNat / 2 ^ (8 * width.bytes) := by
  refine Nat.eq_of_testBit_eq fun place => ?_
  rw [Nat.testBit_div_two_pow, Nat.testBit_div_two_pow, testBit_overwrite, if_neg (by omega)]

end Width

/-! ## Numbers by their bytes -/

/-- A byte of a number, counted from the lowest one. -/
def byteAt (number place : Nat) : Nat := number / 256 ^ place % 256

/-- The number that so many bytes form, the lowest one first. -/
def ofBytes (count : Nat) (byte : Nat → Nat) : Nat :=
  ((List.range count).map fun place => byte place * 256 ^ place).sum

/-- The low bytes of a number form its remainder. -/
theorem ofBytes_byteAt (number count : Nat) :
    ofBytes count (byteAt number) = number % 256 ^ count := by
  induction count with
  | zero => rw [Nat.pow_zero, Nat.mod_one]; rfl
  | succ count inductionHypothesis =>
    rw [ofBytes, List.range_succ, List.map_append, List.sum_append, List.map_singleton,
      List.sum_singleton, ← ofBytes, inductionHypothesis, Nat.mod_pow_succ, byteAt, Nat.mul_comm]

theorem testBit_byteAt (number place bit : Nat) :
    (byteAt number place).testBit bit =
      (decide (bit < 8) && number.testBit (8 * place + bit)) := by
  have power : 256 ^ place = 2 ^ (8 * place) := by rw [Nat.pow_mul]
  rw [byteAt, power, show 256 = 2 ^ 8 from rfl, Nat.testBit_mod_two_pow, Nat.testBit_div_two_pow,
    Nat.add_comm]

namespace Width

/-- A write at a width replaces the bytes up to there. -/
theorem byteAt_overwrite (width : Width) (old new : UInt64) (place : Nat) :
    byteAt (width.overwrite old new).toNat place =
      if place < width.bytes then byteAt new.toNat place else byteAt old.toNat place := by
  apply Nat.eq_of_testBit_eq
  intro bit
  rw [testBit_byteAt, testBit_overwrite]
  by_cases inside : bit < 8
  · by_cases low : place < width.bytes
    · rw [if_pos low, if_pos (by omega), testBit_byteAt]
    · rw [if_neg low, if_neg (by omega), testBit_byteAt]
  · rw [decide_eq_false inside, Bool.false_and]
    split <;> rw [testBit_byteAt, decide_eq_false inside, Bool.false_and]

end Width

namespace RegisterFile

/-! ## Sequences of writes -/

/-- What can be written to a register file. -/
inductive Write where
  | number (ref : RegisterRef) (value : UInt64)
  | text (register : Register) (token : String)
  | flags (flags : Flags)
  deriving DecidableEq

namespace Write

/-- The register that is written, if any. -/
def register? : Write → Option Register
  | number ref _ => some ref.register
  | text register _ => some register
  | flags _ => none

def isText : Write → Bool
  | text _ _ => true
  | number _ _ | flags _ => false

/-- The number that is written, if it is wide enough to reach the byte. -/
def reaching? (place : Nat) : Write → Option UInt64
  | number ref value => if place < ref.width.bytes then some value else none
  | text _ _ | flags _ => none

end Write

/-- Carries out one write. -/
def perform (file : RegisterFile) : Write → RegisterFile
  | .number ref value => file.write ref value
  | .text register token => file.writeText register token
  | .flags flags => file.setFlags flags

/-- Carries out one write after the other. -/
def performAll (file : RegisterFile) (writes : List Write) : RegisterFile :=
  writes.foldl perform file

/-! ## What a history of writes leaves in a register -/

/-- The writes to a register, the latest first. -/
def latestWrites (writes : List Write) (register : Register) : List Write :=
  (writes.filter fun write => write.register? == some register).reverse

/-- The register was last given an instruction text. -/
def HoldsText (writes : List Write) (register : Register) : Prop :=
  (latestWrites writes register).head?.any Write.isText = true

instance (writes : List Write) (register : Register) : Decidable (HoldsText writes register) :=
  inferInstanceAs (Decidable (_ = true))

/-- The byte of the latest number that was written to the register wide enough to
reach it, and after any instruction text; zero if there is none. -/
def latestByte (writes : List Write) (register : Register) (place : Nat) : Nat :=
  match ((latestWrites writes register).takeWhile (!·.isText)).findSome? (·.reaching? place) with
  | some value => byteAt value.toNat place
  | none => 0

section

variable {writes : List Write} {write : Write} {register : Register} {file : RegisterFile}

theorem latestWrites_append_of_eq (concerns : write.register? = some register) :
    latestWrites (writes ++ [write]) register = write :: latestWrites writes register := by
  have kept : [write].filter (·.register? == some register) = [write] :=
    List.filter_cons_of_pos (beq_iff_eq.mpr concerns)
  rw [latestWrites, List.filter_append, kept, List.reverse_concat]
  rfl

theorem latestWrites_append_of_ne (elsewhere : write.register? ≠ some register) :
    latestWrites (writes ++ [write]) register = latestWrites writes register := by
  have dropped : [write].filter (·.register? == some register) = [] :=
    List.filter_cons_of_neg fun same => elsewhere (beq_iff_eq.mp same)
  rw [latestWrites, List.filter_append, dropped, List.append_nil]
  rfl

/-- A number replaces the bytes that it reaches. -/
theorem latestByte_append_number {ref : RegisterRef} {value : UInt64} (place : Nat) :
    latestByte (writes ++ [.number ref value]) ref.register place =
      if place < ref.width.bytes then byteAt value.toNat place
      else latestByte writes ref.register place := by
  rw [latestByte, latestWrites_append_of_eq rfl, List.takeWhile_cons_of_pos (by rfl),
    List.findSome?_cons, Write.reaching?]
  by_cases reaches : place < ref.width.bytes
  · rw [if_pos reaches, if_pos reaches]
  · rw [if_neg reaches, if_neg reaches]
    rfl

/-- An instruction text takes all bytes away. -/
theorem latestByte_append_text {token : String} (place : Nat) :
    latestByte (writes ++ [.text register token]) register place = 0 := by
  rw [latestByte, latestWrites_append_of_eq rfl, List.takeWhile_cons_of_neg Bool.false_ne_true]
  rfl

/-! ## The register file follows the history -/

/-- The register holds what this history of writes leaves there. -/
structure Traced (writes : List Write) (register : Register) (content : Content) : Prop where
  text : HoldsText writes register ↔ ∃ token, content = .text token
  bytes : ∀ place, byteAt content.bytes.toNat place = latestByte writes register place

/-- A number is no instruction text. -/
theorem not_text_of_number (value : UInt64) : ¬ ∃ token, Content.number value = .text token := by
  rintro ⟨token, same⟩
  cases same

theorem traced_new (register : Register) :
    Traced [] register (({} : RegisterFile).content register) := by
  have zeros : ({} : RegisterFile).content register = .number 0 := by simp [content]
  rw [zeros]
  refine ⟨iff_of_false Bool.false_ne_true (not_text_of_number 0), fun place => ?_⟩
  show 0 / 256 ^ place % 256 = 0
  rw [Nat.zero_div, Nat.zero_mod]

theorem content_perform_of_ne (elsewhere : write.register? ≠ some register) :
    (file.perform write).content register = file.content register := by
  cases write with
  | number ref value =>
    exact content_put_of_ne _ _ _ _ fun same => elsewhere (congrArg some same.symm)
  | text other token =>
    exact content_put_of_ne _ _ _ _ fun same => elsewhere (congrArg some same.symm)
  | flags flags => rfl

theorem Traced.perform (traced : Traced writes register (file.content register)) (write : Write) :
    Traced (writes ++ [write]) register ((file.perform write).content register) := by
  by_cases concerns : write.register? = some register
  · cases write with
    | number ref value =>
      cases concerns
      rw [RegisterFile.perform, RegisterFile.write, content_put_self]
      constructor
      · rw [HoldsText, latestWrites_append_of_eq rfl]
        exact iff_of_false Bool.false_ne_true (not_text_of_number _)
      · intro place
        rw [latestByte_append_number, Content.bytes, Width.byteAt_overwrite, traced.bytes]
    | text other token =>
      cases concerns
      rw [RegisterFile.perform, writeText, content_put_self]
      constructor
      · rw [HoldsText, latestWrites_append_of_eq rfl]
        exact ⟨fun _ => ⟨token, rfl⟩, fun _ => rfl⟩
      · intro place
        rw [latestByte_append_text, Content.bytes, byteAt, UInt64.toNat_zero, Nat.zero_div,
          Nat.zero_mod]
    | flags flags => cases concerns
  · have same : latestWrites (writes ++ [write]) register = latestWrites writes register :=
      latestWrites_append_of_ne concerns
    rw [content_perform_of_ne concerns]
    constructor
    · rw [HoldsText, same]
      exact traced.text
    · intro place
      rw [latestByte, same]
      exact traced.bytes place

theorem Traced.performAll (traced : Traced writes register (file.content register))
    (later : List Write) :
    Traced (writes ++ later) register ((file.performAll later).content register) := by
  induction later generalizing writes file with
  | nil =>
    rw [List.append_nil]
    exact traced
  | cons write later inductionHypothesis =>
    rw [List.append_cons]
    exact inductionHypothesis (traced.perform write)

theorem Traced.read_eq_error (traced : Traced writes register (file.content register))
    (holds : HoldsText writes register) (width : Width) :
    file.read ⟨register, width⟩ = .error (.notNumeric register) := by
  rcases traced.text.mp holds with ⟨token, content⟩
  simp only [read, content]

theorem Traced.read_eq_ok (traced : Traced writes register (file.content register))
    (numeric : ¬ HoldsText writes register) (width : Width) :
    ∃ value, file.read ⟨register, width⟩ = .ok value ∧
      value.toNat = ofBytes width.bytes (latestByte writes register) := by
  cases content : file.content register with
  | text token => exact absurd (traced.text.mpr ⟨token, content⟩) numeric
  | number bits =>
    refine ⟨width.truncate bits, by simp only [read, content], ?_⟩
    have bytes : byteAt bits.toNat = latestByte writes register := by
      funext place
      have same := traced.bytes place
      rwa [content] at same
    rw [← bytes, ofBytes_byteAt, Width.toNat_truncate, show 256 = 2 ^ 8 from rfl, ← Nat.pow_mul]

/-- Whatever has been written to a new register file, reading a register gives the
number that its low bytes form, each of them the byte of the latest number that was
written there wide enough to reach it and after any instruction text, or zero.  A
register that was last given an instruction text is not numeric, and no other is.
Only the writes to the register itself matter to it. -/
theorem reads_latest_bytes (writes : List Write) (ref : RegisterRef) :
    ((performAll {} writes).read ref = .error (.notNumeric ref.register) ↔
      HoldsText writes ref.register) ∧
    (¬ HoldsText writes ref.register → ∃ value, (performAll {} writes).read ref = .ok value ∧
      value.toNat = ofBytes ref.width.bytes (latestByte writes ref.register)) ∧
    (∀ others, latestWrites others ref.register = latestWrites writes ref.register →
      (performAll {} others).read ref = (performAll {} writes).read ref) := by
  have traced (history : List Write) :
      Traced history ref.register ((performAll {} history).content ref.register) :=
    (traced_new ref.register).performAll history
  refine ⟨⟨fun failed => ?_, fun holds => (traced writes).read_eq_error holds ref.width⟩,
    fun numeric => (traced writes).read_eq_ok numeric ref.width, fun others same => ?_⟩
  · apply Decidable.of_not_not
    intro numeric
    rcases (traced writes).read_eq_ok numeric ref.width with ⟨value, reads, -⟩
    cases failed.symm.trans reads
  · have alike : HoldsText others ref.register ↔ HoldsText writes ref.register := by
      rw [HoldsText, same, HoldsText]
    have bytes : latestByte others ref.register = latestByte writes ref.register := by
      funext place
      rw [latestByte, same, latestByte]
    by_cases holds : HoldsText writes ref.register
    · exact ((traced others).read_eq_error (alike.mpr holds) ref.width).trans
        ((traced writes).read_eq_error holds ref.width).symm
    · rcases (traced writes).read_eq_ok holds ref.width with ⟨value, reads, number⟩
      rcases (traced others).read_eq_ok (mt alike.mp holds) ref.width with
        ⟨other, alsoReads, result⟩
      rw [bytes, ← number] at result
      rw [alsoReads, UInt64.toNat_inj.mp result]
      exact reads.symm

/-- Writes of several widths to two registers, with an instruction text in between. -/
def overlapping : List Write := [
  .number (.full .rbx) 0x1122334455667788, .text .rbx "noop", .number ⟨.rbx, .long⟩ 0xAABBCCDD,
  .number (.full .rcx) 7, .flags (Flags.of 0), .number ⟨.rbx, .byte⟩ 0xFFEE, .text .rcx "nop"]

theorem reads_latest_bytes_overlapping :
    ¬ HoldsText overlapping .rbx ∧
    (∃ value, (performAll {} overlapping).read (.full .rbx) = .ok value ∧
      value.toNat = 0xAABBCCEE) ∧
    (performAll {} overlapping).read ⟨.rcx, .byte⟩ = .error (.notNumeric .rcx) ∧
    latestWrites (overlapping ++ [.flags {}]) .rbx = latestWrites overlapping .rbx ∧
    (performAll {} (overlapping ++ [.flags {}])).read ⟨.rbx, .word⟩ =
      (performAll {} overlapping).read ⟨.rbx, .word⟩ := by
  have numeric : ¬ HoldsText overlapping .rbx := by decide
  have same : latestWrites (overlapping ++ [.flags {}]) .rbx = latestWrites overlapping .rbx := by
    decide
  exact ⟨numeric, (reads_latest_bytes overlapping (.full .rbx)).2.1 numeric,
    (reads_latest_bytes overlapping ⟨.rcx, .byte⟩).1.mpr (by decide), same,
    (reads_latest_bytes overlapping ⟨.rbx, .word⟩).2.2 _ same⟩

end

end RegisterFile
end BranchPipeline
