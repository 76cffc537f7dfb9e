import BranchPipeline.Prediction.Gshare
import BranchPipeline.Proofs.Prediction.HistoryShift
import Mathlib.Data.Nat.Digits.Lemmas

namespace BranchPipeline
namespace History

/-!
# The index of a history

The directions of a history, the oldest one first, are the binary digits of its
index.  A history of no more directions than a machine word has bits loses none
of them in its index.  So shifting a direction in doubles the index and drops its
highest digit, and from the index the directions can be read off again.
-/

/-- The number with the directions as its binary digits, the first one most significant. -/
def binary (directions : List Bool) : Nat :=
  Nat.ofDigits 2 (directions.reverse.map Bool.toNat)

/-! ## Binary digits -/

section

variable {directions others : List Bool}

theorem binary_concat (directions : List Bool) (taken : Bool) :
    binary (directions ++ [taken]) = 2 * binary directions + taken.toNat := by
  rw [binary, List.reverse_append, List.reverse_singleton, List.singleton_append, List.map_cons,
    Nat.ofDigits_cons, Nat.add_comm]
  rfl

theorem binary_cons (oldest : Bool) (younger : List Bool) :
    binary (oldest :: younger) = 2 ^ younger.length * oldest.toNat + binary younger := by
  rw [binary, List.reverse_cons, List.map_append, Nat.ofDigits_append, List.length_map,
    List.length_reverse, List.map_singleton, Nat.ofDigits_singleton, Nat.add_comm]
  rfl

theorem digit_lt (directions : List Bool) :
    ∀ digit ∈ directions.reverse.map Bool.toNat, digit < 2 := by
  intro digit member
  rcases List.mem_map.mp member with ⟨taken, -, rfl⟩
  exact Bool.toNat_lt taken

theorem binary_lt (directions : List Bool) : binary directions < 2 ^ directions.length := by
  have less := Nat.ofDigits_lt_base_pow_length Nat.one_lt_two (digit_lt directions)
  rwa [List.length_map, List.length_reverse] at less

theorem eq_of_binary_eq (long : directions.length = others.length)
    (same : binary directions = binary others) : directions = others := by
  have digits := Nat.ofDigits_inj_of_len_eq Nat.one_lt_two
    (by rw [List.length_map, List.length_map, List.length_reverse, List.length_reverse, long])
    (digit_lt directions) (digit_lt others) same
  have injective : Function.Injective Bool.toNat := by decide
  exact List.reverse_injective (List.map_injective_iff.mpr injective digits)

/-- As long as the digits fit a machine word, none of them falls off. -/
theorem toNat_indexOf (directions : List Bool) (short : directions.length ≤ 64) :
    (indexOf directions).toNat = binary directions := by
  induction directions using List.reverseRecOn with
  | nil => rfl
  | append_singleton directions taken inductionHypothesis =>
    rw [List.length_append, List.length_singleton] at short
    have earlier := inductionHypothesis (Nat.le_of_succ_le short)
    have room : binary directions < 2 ^ 63 :=
      Nat.lt_of_lt_of_le (binary_lt directions)
        (Nat.pow_le_pow_right Nat.two_pos (Nat.le_of_succ_le_succ short))
    have shifted : (indexOf directions <<< 1).toNat = binary directions <<< 1 := by
      have amount : (1 : UInt64).toNat % 64 = 1 := rfl
      rw [UInt64.toNat_shiftLeft, earlier, amount, Nat.shiftLeft_eq]
      omega
    have digit : (if taken then 1 else 0 : UInt64).toNat = taken.toNat := by
      cases taken <;> rfl
    have appended : indexOf (directions ++ [taken]) =
        (indexOf directions <<< 1) ||| (if taken then 1 else 0) := by
      rw [indexOf, List.foldl_append]
      rfl
    rw [appended, UInt64.toNat_or, shifted, digit, binary_concat,
      ← Nat.shiftLeft_add_eq_or_of_lt (Bool.toNat_lt taken), Nat.shiftLeft_eq, Nat.mul_comm]

end

/-! ## Reached histories -/

/-- The history of this length is reached from a new one by shifting directions in and by
replacing them all. -/
inductive Reached (length : Nat) : History → Prop
  | new {history : History} (made : create length = .ok history) : Reached length history
  | push {before after : History} {taken evicted : Bool} (earlier : Reached length before)
      (shifts : before.push taken = .ok (evicted, after)) : Reached length after
  | reset {before after : History} {directions : List Bool} (earlier : Reached length before)
      (enough : length ≤ directions.length) (replaces : before.reset directions = .ok after) :
      Reached length after

/-- The history has this length and is full. -/
structure Full (length : Nat) (history : History) : Prop where
  room : history.length = length
  held : history.toList.length = length

section

variable {length : Nat} {history : History}

/-- What is pushed out is the highest digit of the index; the other digits move up. -/
theorem Full.push (full : history.Full length) (positive : 0 < length) (taken : Bool) :
    ∃ shifted, history.push taken = .ok ((binary history.toList).testBit (length - 1), shifted) ∧
      shifted.Full length ∧
      binary shifted.toList = (2 * binary history.toList + taken.toNat) % 2 ^ length := by
  have nonempty : history.toList ≠ [] := by
    intro none
    have held := full.held
    rw [none] at held
    exact Nat.ne_of_lt positive held
  rcases List.exists_cons_of_ne_nil nonempty with ⟨oldest, younger, held⟩
  have long : younger.length + 1 = length := by
    rw [← full.held, held, List.length_cons]
  rcases push_of_full taken (full.held.trans full.room.symm) held with
    ⟨shifted, shifts, contents, room⟩
  have less := binary_lt younger
  have digit : (binary history.toList).testBit (length - 1) = oldest := by
    rw [held, binary_cons, ← long, Nat.add_sub_cancel, Nat.testBit_two_pow_mul_add _ less,
      if_neg (Nat.lt_irrefl _), Nat.sub_self]
    cases oldest <;> rfl
  refine ⟨shifted, by rw [digit]; exact shifts, ⟨room.trans full.room, ?_⟩, ?_⟩
  · rw [contents, List.length_append, List.length_singleton, long]
  · have fits : 2 * binary younger + taken.toNat < 2 ^ length := by
      have most := Bool.toNat_le taken
      rw [← long, Nat.pow_succ]
      omega
    have doubled : 2 * binary history.toList + taken.toNat =
        2 ^ length * oldest.toNat + (2 * binary younger + taken.toNat) := by
      rw [held, binary_cons, ← long, Nat.pow_succ, Nat.mul_comm (2 ^ younger.length) 2]
      ring
    rw [doubled, Nat.mul_add_mod, Nat.mod_eq_of_lt fits, contents, binary_concat]

/-- Of more directions than there is room for, the first ones are taken. -/
theorem Full.reset (full : history.Full length) {directions : List Bool}
    (enough : length ≤ directions.length) :
    ∃ replaced, history.reset directions = .ok replaced ∧ replaced.Full length ∧
      replaced.toList = directions.take length := by
  have long : (directions.take length).length = length := List.length_take_of_le enough
  have roomy : (directions.take length).length = history.length :=
    long.trans full.room.symm
  rcases reset_of_length roomy with ⟨replaced, replaces, contents, room⟩
  have same : history.reset directions = history.reset (directions.take length) := by
    rw [History.reset, History.reset, full.room, List.take_take, Nat.min_self]
  refine ⟨replaced, same.trans replaces, ⟨room.trans full.room, ?_⟩, contents⟩
  rw [contents, long]

theorem Reached.positive (reached : Reached length history) : 0 < length := by
  induction reached with
  | new made => exact (of_create made).1
  | push _ _ inductionHypothesis | reset _ _ _ inductionHypothesis => exact inductionHypothesis

theorem Reached.full (reached : Reached length history) : history.Full length := by
  induction reached with
  | new made =>
    rcases of_create made with ⟨-, room, contents⟩
    exact ⟨room, by rw [contents, List.length_replicate]⟩
  | push earlier shifts inductionHypothesis =>
    rcases inductionHypothesis.push earlier.positive _ with ⟨shifted, shiftsToo, full, -⟩
    cases shifts.symm.trans shiftsToo
    exact full
  | reset earlier enough replaces inductionHypothesis =>
    rcases inductionHypothesis.reset enough with ⟨replaced, replacesToo, full, -⟩
    cases replaces.symm.trans replacesToo
    exact full

/-- The index of a history is a faithful shift register.  A history that fits a machine word
can be made, and from there on always holds as many directions as it has room for.  Shifting
one in cannot fail; it gives the highest digit of the index back and makes the index twice as
large, up to the digit that falls off.  Replacing the directions by at least as many cannot
fail either, and the index becomes that of the first ones.  Histories that hold different
directions have different indices, also when these are mixed with the address of a branch. -/
theorem index_faithful (positive : 1 ≤ length) (short : length ≤ 64) :
    (∃ start, create length = .ok start) ∧
    ∀ history, Reached length history →
      history.toList.length = length ∧
      history.index.toNat = binary history.toList ∧
      (∀ taken, ∃ shifted,
        history.push taken = .ok (history.index.toNat.testBit (length - 1), shifted) ∧
        shifted.index.toNat = (2 * history.index.toNat + taken.toNat) % 2 ^ length) ∧
      (∀ directions, length ≤ directions.length → ∃ replaced,
        history.reset directions = .ok replaced ∧
        replaced.toList = directions.take length ∧
        replaced.index.toNat = binary (directions.take length)) ∧
      ∀ other, Reached length other →
        (history.index = other.index → history.toList = other.toList) ∧
        ∀ source, history.toList ≠ other.toList →
          Gshare.directionIndex history.toList source ≠
            Gshare.directionIndex other.toList source := by
  refine ⟨exists_create positive, ?_⟩
  intro history reached
  have value {history : History} (full : history.Full length) :
      history.index.toNat = binary history.toList :=
    toNat_indexOf _ (full.held.symm ▸ short)
  have full := reached.full
  refine ⟨full.held, value full, ?_, ?_, ?_⟩
  · intro taken
    rcases full.push positive taken with ⟨shifted, shifts, filled, doubled⟩
    rw [value full]
    exact ⟨shifted, shifts, (value filled).trans doubled⟩
  · intro directions enough
    rcases full.reset enough with ⟨replaced, replaces, filled, contents⟩
    exact ⟨replaced, replaces, contents, (value filled).trans (congrArg binary contents)⟩
  · intro other reachedToo
    have fullToo := reachedToo.full
    have told (same : history.index = other.index) : history.toList = other.toList := by
      refine eq_of_binary_eq (full.held.trans fullToo.held.symm) ?_
      rw [← value full, ← value fullToo, same]
    refine ⟨told, ?_⟩
    intro source different same
    exact different (told ((UInt64.xor_left_inj source).mp same))

end

/-- Three directions, of which the first is pushed out and all are replaced later. -/
theorem index_faithful_replaced :
    ∃ start shifted history, create 3 = .ok start ∧ start.push false = .ok (true, shifted) ∧
      shifted.index = 6 ∧ shifted.reset [false, true, false, true] = .ok history ∧
      Reached 3 history ∧ history.toList.length = 3 ∧ history.index = 2 ∧
      ∃ later, history.push true = .ok (false, later) ∧ later.index = 5 := by
  rcases index_faithful (by decide : 1 ≤ 3) (by decide) with ⟨⟨start, made⟩, faithful⟩
  have reached := Reached.new made
  rcases faithful start reached with ⟨-, first, pushes, -⟩
  rcases pushes false with ⟨shifted, shifts, six⟩
  rw [first, (of_create made).2.2] at shifts six
  have reachedToo := reached.push shifts
  rcases faithful shifted reachedToo with ⟨-, -, -, resets, -⟩
  rcases resets [false, true, false, true] (by decide) with ⟨history, replaces, -, two⟩
  have reachedLast := reachedToo.reset (by decide) replaces
  rcases faithful history reachedLast with ⟨long, -, pushes, -⟩
  rcases pushes true with ⟨later, shiftsToo, five⟩
  rw [two] at shiftsToo five
  exact ⟨start, shifted, history, made, shifts, UInt64.toNat_inj.mp six, replaces, reachedLast,
    long, UInt64.toNat_inj.mp two, later, shiftsToo, UInt64.toNat_inj.mp five⟩

end History
end BranchPipeline
