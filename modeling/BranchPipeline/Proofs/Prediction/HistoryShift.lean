import BranchPipeline.Prediction.History
import BranchPipeline.Proofs.Buffer.Capacity
import BranchPipeline.Proofs.Operation

namespace BranchPipeline
namespace History

/-!
# The history as a list of directions

A history that is full stays full: shifting a direction in pushes exactly the
oldest one out, and replacing the directions by as many new ones fills it
again.  Neither can fail.
-/

/-- A fresh history holds nothing but "taken". -/
theorem toList_fill (ring : Ring Bool) (missing : Nat)
    (room : ring.toList.length + missing ≤ ring.capacity) :
    (fill ring missing).toList = ring.toList ++ List.replicate missing true ∧
      (fill ring missing).capacity = ring.capacity := by
  induction missing generalizing ring with
  | zero => exact ⟨(List.append_nil _).symm, rfl⟩
  | succ missing inductionHypothesis =>
    rcases ring.exists_add true (by omega) with ⟨added, accepted, held, slots⟩
    have later := inductionHypothesis added (by
      rw [held, slots, List.length_append, List.length_singleton]
      omega)
    have unfolded : fill ring (missing + 1) = fill added missing := by
      simp only [fill, accepted]
    rw [unfolded, later.1, later.2, held, slots, List.append_assoc]
    exact ⟨rfl, rfl⟩

theorem of_create {length : Nat} {history : History} (made : create length = .ok history) :
    0 < length ∧ history.length = length ∧ history.toList = List.replicate length true := by
  rcases bind_eq_ok_iff.mp made with ⟨ring, ringMade, made⟩
  cases made
  have positive : 0 < length := by
    apply Nat.pos_of_ne_zero
    rintro rfl
    cases ringMade
  have empty := Ring.toList_of_create ringMade
  have slots := Ring.capacity_of_create ringMade
  have room : ring.toList.length + length ≤ ring.capacity := by
    rw [empty, slots]
    exact Nat.le_of_eq (Nat.zero_add _)
  have filled := toList_fill ring length room
  rw [empty] at filled
  exact ⟨positive, filled.2.trans slots, filled.1⟩

theorem exists_create {length : Nat} (positive : 0 < length) :
    ∃ history, create length = .ok history := by
  rcases Ring.exists_create "global history" positive with ⟨ring, made⟩
  exact ⟨⟨fill ring length⟩, bind_eq_ok_iff.mpr ⟨ring, made, rfl⟩⟩

/-- Shifting into a full history pushes the oldest direction out. -/
theorem push_of_full {history : History} {oldest : Bool} {younger : List Bool} (taken : Bool)
    (full : history.toList.length = history.length)
    (held : history.toList = oldest :: younger) :
    ∃ shifted, history.push taken = .ok (oldest, shifted) ∧
      shifted.toList = younger ++ [taken] ∧ shifted.length = history.length := by
  have rest : history.bits.remove.2.toList = younger := by
    rw [Ring.toList_remove]
    exact congrArg List.tail held
  have room : history.bits.remove.2.toList.length < history.bits.remove.2.capacity := by
    rw [rest, Ring.capacity_remove]
    rw [held, List.length_cons] at full
    exact Nat.lt_of_lt_of_eq (Nat.lt_succ_self _) full
  rcases history.bits.remove.2.exists_add taken room with ⟨added, accepted, contents, slots⟩
  have evicted : history.bits.remove.1 = some oldest := by
    rw [Ring.fst_remove]
    exact congrArg List.head? held
  refine ⟨⟨added⟩, ?_, ?_, slots.trans (Ring.capacity_remove _)⟩
  · simp only [push, accepted, evicted]
    rfl
  · exact contents.trans (congrArg (· ++ [taken]) rest)

/-- Replacing the directions by as many new ones leaves exactly these. -/
theorem reset_of_length {history : History} {directions : List Bool}
    (enough : directions.length = history.length) :
    ∃ replaced, history.reset directions = .ok replaced ∧ replaced.toList = directions ∧
      replaced.length = history.length := by
  have whole : directions.take history.length = directions :=
    List.take_of_length_le (Nat.le_of_eq enough)
  rcases Ring.exists_addAll directions history.bits.flush (by
    rw [Ring.toList_flush, List.length_nil, Nat.zero_add]
    exact Nat.le_of_eq enough) with ⟨filled, accepted, contents, slots⟩
  rw [Ring.toList_flush, List.nil_append] at contents
  refine ⟨⟨filled⟩, ?_, contents, slots⟩
  simp only [reset, whole, accepted]
  rfl

end History
end BranchPipeline
