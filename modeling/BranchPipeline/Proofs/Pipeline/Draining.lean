import BranchPipeline.Proofs.Machine.FaultAgreement
import BranchPipeline.Proofs.Pipeline.Outstanding
import BranchPipeline.Proofs.Pipeline.Refinement
import BranchPipeline.Proofs.Pipeline.Stopping

namespace BranchPipeline

open Attempt

/-!
# What is in flight leads to what was fetched

Fetch is ahead of the sequential machine by what is in flight.  If nothing more
were fetched, that machine would still execute what is in flight and then stand
where fetch stands, unless the program ends or fails on the way there.  Only a
branch in flight, behind which fetch went the wrong way, can lead it elsewhere.
-/

namespace Sequential

variable {state : Sequential} {count : Nat} {entries : List ReorderEntry} {entry : ReorderEntry}
  {position : UInt64}

/-- After so many micro-operations, one of those in flight is a branch that does
not lead to the location behind it; behind the last one there is `position`. -/
def Departs (state : Sequential) (count : Nat) (entries : List ReorderEntry)
    (position : UInt64) : Prop :=
  ∃ index entry ops reached, entries[index]? = some entry ∧ entry.opcode = .jump ∧
    state.run (count + index + 1) = .ok (ops, reached) ∧
    (entries.map (·.location) ++ [position])[index + 1]? ≠ some reached.counter

/-- What happens to later ones happens one micro-operation later. -/
theorem Departs.later (departs : state.Departs (count + 1) entries position) :
    state.Departs count (entry :: entries) position := by
  rcases departs with ⟨index, found, ops, reached, present, branches, ran, elsewhere⟩
  refine ⟨index + 1, found, ops, reached, present, branches, ?_, elsewhere⟩
  rwa [show count + (index + 1) + 1 = count + 1 + index + 1 from by omega]

/-- Without a branch there is no other way. -/
theorem not_departs (plain : ∀ entry ∈ entries, entry.opcode ≠ .jump) :
    ¬ state.Departs count entries position := by
  rintro ⟨index, entry, ops, reached, present, branches, -⟩
  exact plain entry (List.mem_of_getElem? present) branches

end Sequential

/-- What waits has something to act on. -/
theorem Packet.Genuine.apt {packet : Packet} {op : MicroOp} {rest : List MicroOp}
    (genuine : packet.Genuine) (front : packet.waiting = op :: rest) : op.Apt :=
  Instruction.apt_of_mem genuine.expanded (by simp [front])

/-- The first location on the way is where execution goes on. -/
theorem getElem?_locations_zero {packets : List Packet}
    (genuine : ∀ packet ∈ packets, packet.Genuine) (next : Option Successor) (position : UInt64) :
    ((entriesBefore next packets).map (·.location) ++ [position])[0]? =
      some (headLocation position packets) := by
  cases packets with
  | nil => rfl
  | cons packet later =>
    have pending := (genuine packet List.mem_cons_self).pending
    rcases List.exists_cons_of_ne_nil pending with ⟨op, rest, front⟩
    rw [entriesBefore_advance front]
    rfl

namespace Processor

variable {before after : Processor} {stock : Stock} {source : Memory} {kind : PredictorKind}
  {room count : Nat} {origin state : Sequential} {packet : Packet} {op : MicroOp}
  {rest : List MicroOp} {later : List Packet} {fault : Fault}

/-! ## Faults -/

/-- Where a micro-operation that is not a branch fails, the sequential machine
fails alike. -/
theorem Follows.fails_act {changed : Machine} (follows : before.Follows source stock state)
    (visible : op.Visible) (apt : op.Apt) (first : state.next = .ok (op.marked false, rest))
    (plain : op.opcode ≠ .jump) (fails : (Machine.act op).Fails before.machine fault changed) :
    ∃ last, Sequential.step.Fails state fault last := by
  rcases Machine.failsAlike_act visible follows.agrees fails with ⟨other, fails⟩
  rw [← Machine.act_marked apt false] at fails
  exact ⟨_, Sequential.fails_step_of_act first plain fails⟩

/-- Where a branch fails, the sequential machine fails alike. -/
theorem Follows.fails_resolve {changed : Machine} (follows : before.Follows source stock state)
    (apt : op.Apt) (first : state.next = .ok (op.marked false, rest))
    (branches : op.opcode = .jump)
    (fails : (Machine.resolve op state.counter).Fails before.machine fault changed) :
    ∃ last, Sequential.step.Fails state fault last := by
  rcases Machine.failsAlike_resolve op _ follows.agrees fails with ⟨other, fails⟩
  rw [← Machine.resolve_marked apt branches false] at fails
  exact ⟨_, Sequential.fails_step_of_jump first branches fails⟩

/-! ## One micro-operation -/

/-- All that is known of a processor while the sequential machine, which has
executed `count` micro-operations since it was at `origin`, stands where the
processor executes next. -/
structure Led (source : Memory) (kind : PredictorKind) (room : Nat) (origin : Sequential)
    (count : Nat) (processor : Processor) (stock : Stock) (state : Sequential) : Prop
    extends Tracked source kind room processor stock, Follows source processor stock state where
  ran : ∃ ops, origin.run count = .ok (ops, state)

/-- One step further. -/
theorem Led.run_succ {moved : Sequential}
    (led : Led source kind room origin count before stock state)
    (steps : Sequential.step.Yields state op moved) :
    ∃ ops, origin.run (count + 1) = .ok (ops, moved) := by
  rcases led.ran with ⟨ops, ran⟩
  exact ⟨_, Sequential.run_succ ran led.running steps⟩

/-- One fault further. -/
theorem Led.run_succ_of_fails (led : Led source kind room origin count before stock state)
    (fails : ∃ last, Sequential.step.Fails state fault last) :
    origin.run (count + 1) = .error fault := by
  rcases led.ran with ⟨ops, ran⟩
  rcases fails with ⟨last, fails⟩
  exact Sequential.run_succ_of_fails ran led.running fails

theorem Acts.led (acts : Acts before op after)
    (led : Led source kind room origin count before stock state) (ordinary : source.Ordinary)
    (packets : stock.packets = packet :: later) (front : packet.waiting = op :: rest)
    (plain : op.opcode ≠ .jump) (spares : state.storesText = false) :
    ∃ moved, Led source kind room origin (count + 1) after
      { stock with packets := advance packet op rest later } moved := by
  rcases acts.follows led.toFollows led.toCarries led.toTraced ordinary packets front plain spares
    with ⟨moved, steps, follows⟩
  exact ⟨moved, acts.tracked led.toTracked ordinary.sparesBounds packets front plain, follows,
    led.run_succ steps⟩

theorem Confirms.led {resolution : Machine.Resolution}
    (confirms : Confirms before packet.location op resolution after)
    (led : Led source kind room origin count before stock state) (ordinary : source.Ordinary)
    (packets : stock.packets = packet :: later) (front : packet.waiting = [op])
    (branches : op.opcode = .jump)
    (right : headLocation stock.position later = resolution.next) :
    ∃ moved, Led source kind room origin (count + 1) after
      { stock with packets := later } moved := by
  rcases confirms.follows led.toFollows led.toCarries led.toTraced ordinary packets front branches
    right with ⟨moved, steps, follows⟩
  exact ⟨moved, confirms.tracked led.toTracked packets front branches, follows,
    led.run_succ steps⟩

/-- What is executed next need not be executed by the pipeline.  The sequential
machine stops there, or departs from what is in flight, or can be led on by a
processor that has gone one step further and fetched nothing more. -/
theorem Led.next (led : Led source kind room origin count before stock state)
    (ordinary : source.Ordinary) (packets : stock.packets = packet :: later)
    (front : packet.waiting = op :: rest) (spares : state.storesText = false) :
    origin.Stops (count + 1) ∨
      (op.opcode = .jump ∧ rest = [] ∧ ∃ ops moved, origin.run (count + 1) = .ok (ops, moved) ∧
        headLocation stock.position later ≠ moved.counter) ∨
      ∃ after moved, Led source kind room origin (count + 1) after
        { stock with packets := advance packet op rest later } moved := by
  have genuine := led.genuine_head packets
  have visible := led.visible ordinary packets genuine front
  have apt := genuine.apt front
  have first := led.next_eq led.toTraced ordinary packets genuine front
  by_cases branches : op.opcode = .jump
  · have ended := (genuine.alone_of_jump front branches).1
    have place := led.counter
    rw [packets] at place
    rcases resolved : (Machine.resolve op state.counter).perform before.machine with
        ⟨fault | resolution, changed⟩
    · have fails := led.fails_resolve apt first branches resolved
      exact Or.inl (Sequential.stops_of_error (led.run_succ_of_fails fails))
    · by_cases right : headLocation stock.position later = resolution.next
      · have branching := led.branching packets genuine front branches
        rcases led.trained.exists_update branching resolution.target resolution.taken with
            ⟨taught, updates, -, -⟩
        have confirms : Confirms before packet.location op resolution
            { before with
              machine := changed, predictor := taught, inFlight := before.inFlight.retire
              record := before.record.note before.cycle false } := by
          refine ⟨⟨rfl, rfl, rfl, rfl, rfl⟩, ?_, updates, rfl⟩
          rw [show packet.location = state.counter from place.symm]
          exact resolved
        rw [ended] at front
        rcases confirms.led led ordinary packets front branches right with ⟨moved, led⟩
        rw [ended, advance, if_pos rfl]
        exact Or.inr (Or.inr ⟨_, moved, led⟩)
      · rcases led.exists_resolve resolved with ⟨machine, resolves, -, -⟩
        rcases led.run_succ (Sequential.yields_step_of_jump first branches resolves) with
            ⟨ops, ran⟩
        exact Or.inr (Or.inl ⟨branches, ended, ops, _, ran, right⟩)
  · rcases acted : (Machine.act op).perform before.machine with ⟨fault | exits, changed⟩
    · have fails := led.fails_act visible apt first branches acted
      exact Or.inl (Sequential.stops_of_error (led.run_succ_of_fails fails))
    · cases exits with
      | true =>
        rcases led.exists_act visible first spares acted with ⟨machine, marked, -, -⟩
        rcases led.run_succ (Sequential.yields_step_of_act first branches marked) with ⟨ops, ran⟩
        exact Or.inl (Sequential.stops_of_stopped ran rfl)
      | false =>
        have acts : Acts before op
            { before with machine := changed, inFlight := before.inFlight.retire } :=
          ⟨⟨rfl, rfl, rfl, rfl, rfl⟩, acted, rfl, rfl⟩
        rcases acts.led led ordinary packets front branches spares with ⟨moved, led⟩
        exact Or.inr (Or.inr ⟨_, moved, led⟩)

/-! ## All that is in flight -/

/-- The sequential machine gets to where fetch stands, unless it stops or
departs before. -/
theorem Led.drains {entries : List ReorderEntry}
    (led : Led source kind room origin count before stock state) (ordinary : source.Ordinary)
    (listed : entriesBefore none stock.packets = entries)
    (keeps : origin.KeepsText (count + entries.length)) :
    origin.Stops (count + entries.length) ∨ origin.Departs count entries stock.position ∨
      ∃ after moved, Led source kind room origin (count + entries.length) after
        { stock with packets := [] } moved := by
  -- one entry at a time, which need not be one packet at a time
  induction entries generalizing before stock state count with
  | nil =>
    rcases stock with ⟨_ | ⟨packet, later⟩, latch, position⟩
    · exact Or.inr (Or.inr ⟨before, state, led⟩)
    · have pending := (led.genuine_head rfl).pending
      rcases List.exists_cons_of_ne_nil pending with ⟨op, rest, front⟩
      rw [entriesBefore_advance front] at listed
      cases listed
  | cons entry entries inductionHypothesis =>
    cases packets : stock.packets with
    | nil =>
      rw [packets] at listed
      cases listed
    | cons packet later =>
      have genuine := led.genuine_head packets
      rcases List.exists_cons_of_ne_nil genuine.pending with ⟨op, rest, front⟩
      rw [packets, entriesBefore_advance front] at listed
      injection listed with head tail
      have total : count + (entry :: entries).length = count + 1 + entries.length := by
        rw [List.length_cons]
        omega
      rw [total] at keeps ⊢
      rcases led.ran with ⟨ops, ran⟩
      have spares := keeps count (by omega) ops state ran
      rcases led.next ordinary packets front spares with
          stops | ⟨branches, ended, done, moved, ran, elsewhere⟩ | ⟨after, moved, led⟩
      · exact Or.inl (stops.of_le (by omega))
      · refine Or.inr (Or.inl ⟨0, entry, done, moved, rfl, head ▸ branches, ran, ?_⟩)
        have others : ∀ other ∈ later, other.Genuine := fun other member =>
          led.holds.genuine other (packets ▸ List.mem_cons_of_mem _ member)
        rw [ended, advance, if_pos rfl] at tail
        rw [List.map_cons, List.cons_append, List.getElem?_cons_succ, ← tail,
          getElem?_locations_zero others]
        intro same
        injection same with same
        exact elsewhere same
      · rcases inductionHypothesis led tail keeps with stops | departs | arrives
        · exact Or.inl stops
        · exact Or.inr (Or.inl departs.later)
        · exact Or.inr (Or.inr arrives)

end Processor
end BranchPipeline
