import BranchPipeline.Debugger.Command
import BranchPipeline.Proofs.Simulation.StopReasons
import Mathlib.Data.List.Induction

namespace BranchPipeline

/-!
# Histories of debugger commands

A breakpoint is in force if a command for it was given and none against it since,
and in the same way a value is watched.  Both depend on the whole history of
commands; here they are told from the history alone, and it is said what one more
command does to the lists that a debugger can keep of them.  The number of a
breakpoint is the number of breakpoints that were set before it, so no number is
given twice.
-/

namespace Breakpoints

/-- A breakpoint with a number above all others comes last. -/
theorem insert_of_forall_lt {breakpoints : Breakpoints} {added : Breakpoint}
    (smaller : ∀ breakpoint ∈ breakpoints, breakpoint.id < added.id) :
    breakpoints.insert added = breakpoints ++ [added] := by
  induction breakpoints with
  | nil => rfl
  | cons first rest inductionHypothesis =>
    have less := smaller first List.mem_cons_self
    have later := inductionHypothesis fun breakpoint member =>
      smaller breakpoint (List.mem_cons_of_mem first member)
    rw [Breakpoints.insert, if_neg (Nat.not_lt_of_gt less), if_neg (Nat.ne_of_gt less), later]
    rfl

end Breakpoints

namespace Command

/-! ## What lasts -/

/-- The first command was given after a history with the property, and the second one
not since then. -/
def Lasting (given ends : Command) (property : List Command → Prop)
    (commands : List Command) : Prop :=
  ∃ earlier later, commands = earlier ++ given :: later ∧ property earlier ∧ ends ∉ later

section

variable {given ends last : Command} {property : List Command → Prop} {commands : List Command}

theorem not_lasting_nil : ¬ Lasting given ends property [] := by
  rintro ⟨earlier, later, same, -⟩
  exact List.append_ne_nil_of_right_ne_nil earlier (List.cons_ne_nil given later) same.symm

/-- What the last command does to what lasts. -/
theorem lasting_concat :
    Lasting given ends property (commands ++ [last]) ↔
      (Lasting given ends property commands ∧ last ≠ ends) ∨
        (last = given ∧ property commands) := by
  constructor
  · rintro ⟨earlier, later, same, holds, since⟩
    cases later using List.reverseRecOn with
    | nil =>
      rcases List.append_inj' same rfl with ⟨rfl, only⟩
      cases only
      exact Or.inr ⟨rfl, holds⟩
    | append_singleton more final =>
      rw [← List.cons_append, ← List.append_assoc] at same
      rcases List.append_inj' same rfl with ⟨rfl, only⟩
      cases only
      refine Or.inl ⟨⟨earlier, more, rfl, holds, ?_⟩, ?_⟩
      · exact fun member => since (List.mem_append_left _ member)
      · rintro rfl
        exact since (List.mem_append_right more List.mem_cons_self)
  · rintro (⟨⟨earlier, later, rfl, holds, since⟩, other⟩ | ⟨rfl, holds⟩)
    · refine ⟨earlier, later ++ [last], by rw [List.append_assoc]; rfl, holds, ?_⟩
      intro member
      rcases List.mem_append.mp member with member | member
      · exact since member
      · exact other (List.mem_singleton.mp member).symm
    · exact ⟨commands, [], rfl, holds, List.not_mem_nil⟩

theorem Lasting.imp {other : List Command → Prop}
    (weaker : ∀ ⦃earlier⦄, property earlier → other earlier)
    (lasting : Lasting given ends property commands) : Lasting given ends other commands := by
  rcases lasting with ⟨earlier, later, same, holds, since⟩
  exact ⟨earlier, later, same, weaker holds, since⟩

end

/-- How many breakpoints have been set. -/
def additions (commands : List Command) : Nat :=
  commands.countP fun command =>
    match command with
    | .addBreakpoint _ => true
    | _ => false

/-- A breakpoint with this number and condition was set and has not been removed since.
Its number says how many had been set before. -/
def InForce (id : Nat) (condition : BreakCondition) (commands : List Command) : Prop :=
  Lasting (.addBreakpoint condition) (.removeBreakpoint id)
    (fun earlier => additions earlier = id) commands

/-- The value is to be watched. -/
def Watches (watched : Watched) (commands : List Command) : Prop :=
  Lasting (.watch watched) (.unwatch watched) (fun _ => True) commands

/-- The value is to be watched since the command in this place, and was not to be
watched before. -/
def WatchesSince (watched : Watched) (place : Nat) (commands : List Command) : Prop :=
  Lasting (.watch watched) (.unwatch watched)
    (fun earlier => ¬ Watches watched earlier ∧ earlier.length = place) commands

section

variable {watched : Watched} {place : Nat} {commands : List Command}

theorem watches_concat {last : Command} :
    Watches watched (commands ++ [last]) ↔
      (Watches watched commands ∧ last ≠ .unwatch watched) ∨ last = .watch watched := by
  rw [Watches, lasting_concat, and_true, Watches]

theorem watchesSince_concat {last : Command} :
    WatchesSince watched place (commands ++ [last]) ↔
      (WatchesSince watched place commands ∧ last ≠ .unwatch watched) ∨
        (last = .watch watched ∧ ¬ Watches watched commands ∧ commands.length = place) :=
  lasting_concat

theorem WatchesSince.watches (since : WatchesSince watched place commands) :
    Watches watched commands :=
  since.imp fun _ _ => trivial

theorem WatchesSince.place_lt (since : WatchesSince watched place commands) :
    place < commands.length := by
  rcases since with ⟨earlier, later, rfl, ⟨-, rfl⟩, -⟩
  rw [List.length_append, List.length_cons]
  omega

/-- What is to be watched is so since some first command for it. -/
theorem exists_watchesSince (commands : List Command) (watches : Watches watched commands) :
    ∃ place, WatchesSince watched place commands := by
  induction commands using List.reverseRecOn with
  | nil => exact absurd watches not_lasting_nil
  | append_singleton commands last inductionHypothesis =>
    rcases watches_concat.mp watches with ⟨before, other⟩ | rfl
    · rcases inductionHypothesis before with ⟨place, since⟩
      exact ⟨place, watchesSince_concat.mpr (.inl ⟨since, other⟩)⟩
    · by_cases before : Watches watched commands
      · rcases inductionHypothesis before with ⟨place, since⟩
        exact ⟨place, watchesSince_concat.mpr (.inl ⟨since, nofun⟩)⟩
      · exact ⟨_, watchesSince_concat.mpr (.inr ⟨rfl, before, rfl⟩)⟩

end

/-- The command does not run the program, and does not end the session. -/
def isStatic : Command → Bool
  | .trace _ | .addBreakpoint _ | .removeBreakpoint _ | .watch _ | .unwatch _ | .display _ => true
  | .exit | .again | .mode _ => false

/-! ## Lists of what is watched -/

/-- Wherever the two values are to be watched since, the first one is in front. -/
def Precedes (commands : List Command) (first second : Watched) : Prop :=
  ∀ ⦃earlier later⦄, WatchesSince first earlier commands → WatchesSince second later commands →
    earlier < later

/-- The list holds what is to be watched, in the order of the first commands for it. -/
structure Lists {α : Type} (wrap : α → Watched) (commands : List Command) (items : List α) :
    Prop where
  mem_iff (item : α) : item ∈ items ↔ Watches (wrap item) commands
  ordered : items.Pairwise fun first second => Precedes commands (wrap first) (wrap second)

namespace Lists

variable {α : Type} {wrap : α → Watched} {commands : List Command} {items : List α}

theorem nil (wrap : α → Watched) : Lists wrap [] [] where
  mem_iff _ := ⟨nofun, fun watches => absurd watches not_lasting_nil⟩
  ordered := .nil

/-- No value is listed twice. -/
theorem nodup (lists : Lists wrap commands items) : items.Nodup := by
  refine lists.ordered.imp_of_mem ?_
  intro first second member _ before same
  subst same
  rcases exists_watchesSince commands ((lists.mem_iff first).mp member) with ⟨place, since⟩
  exact Nat.lt_irrefl place (before since since)

/-- Commands about other values do not matter. -/
theorem skip (lists : Lists wrap commands items) {last : Command}
    (begins : ∀ item, last ≠ .watch (wrap item)) (ends : ∀ item, last ≠ .unwatch (wrap item)) :
    Lists wrap (commands ++ [last]) items where
  mem_iff item := by
    rw [lists.mem_iff, watches_concat]
    exact ⟨fun watches => .inl ⟨watches, ends item⟩,
      Or.rec And.left fun same => absurd same (begins item)⟩
  ordered := by
    have back {item : α} {place : Nat}
        (since : WatchesSince (wrap item) place (commands ++ [last])) :
        WatchesSince (wrap item) place commands := by
      rcases watchesSince_concat.mp since with ⟨since, -⟩ | ⟨same, -⟩
      · exact since
      · exact absurd same (begins item)
    refine lists.ordered.imp ?_
    intro first second before earlier later one two
    exact before (back one) (back two)

section

variable [DecidableEq α] (lists : Lists wrap commands items) (injective : Function.Injective wrap)
  (item : α)

include lists injective

/-- A value that is listed already keeps its place, any other one comes last. -/
theorem watch : Lists wrap (commands ++ [.watch (wrap item)])
    (if item ∈ items then items else items ++ [item]) := by
  have watches {other : α} : Watches (wrap other) (commands ++ [.watch (wrap item)]) ↔
      other ∈ items ∨ other = item := by
    rw [watches_concat, lists.mem_iff]
    refine or_congr (and_iff_left nofun) ⟨fun same => ?_, fun same => by rw [same]⟩
    exact (injective (Command.watch.inj same)).symm
  have kept {other : α} {place : Nat} (listed : other ∈ items)
      (since : WatchesSince (wrap other) place (commands ++ [.watch (wrap item)])) :
      WatchesSince (wrap other) place commands := by
    rcases watchesSince_concat.mp since with ⟨since, -⟩ | ⟨-, fresh, -⟩
    · exact since
    · exact absurd ((lists.mem_iff other).mp listed) fresh
  have ordered : items.Pairwise fun first second =>
      Precedes (commands ++ [.watch (wrap item)]) (wrap first) (wrap second) := by
    refine lists.ordered.imp_of_mem ?_
    intro first second member memberToo before earlier later one two
    exact before (kept member one) (kept memberToo two)
  by_cases listed : item ∈ items
  · rw [if_pos listed]
    refine ⟨fun other => ?_, ordered⟩
    rw [watches]
    exact ⟨Or.inl, Or.rec id fun same => same ▸ listed⟩
  · rw [if_neg listed]
    refine ⟨fun other => ?_, ?_⟩
    · rw [List.mem_append, List.mem_singleton, watches]
    · refine List.pairwise_append.mpr ⟨ordered, List.pairwise_singleton _ _, ?_⟩
      intro first member second same earlier later one two
      rw [List.mem_singleton] at same
      subst same
      rcases watchesSince_concat.mp two with ⟨two, -⟩ | ⟨-, -, rfl⟩
      · exact absurd ((lists.mem_iff second).mpr two.watches) listed
      · exact (kept member one).place_lt

/-- The other values keep their order. -/
theorem unwatch : Lists wrap (commands ++ [.unwatch (wrap item)])
    (items.filter fun other => other != item) := by
  have different {other : α} : Command.unwatch (wrap item) ≠ .unwatch (wrap other) ↔
      other ≠ item := by
    refine not_congr ⟨fun same => ?_, fun same => by rw [same]⟩
    exact (injective (Command.unwatch.inj same)).symm
  refine ⟨fun other => ?_, ?_⟩
  · rw [List.mem_filter, lists.mem_iff, watches_concat, different, bne_iff_ne,
      or_iff_left nofun]
  · refine (lists.ordered.filter _).imp ?_
    intro first second before earlier later one two
    rcases watchesSince_concat.mp one with ⟨one, -⟩ | ⟨same, -⟩
    · rcases watchesSince_concat.mp two with ⟨two, -⟩ | ⟨same, -⟩
      · exact before one two
      · cases same
    · cases same

end

end Lists

/-! ## Breakpoints in force -/

/-- The breakpoints are those in force, in the order of their numbers, and the next one
gets a number that none of them has had. -/
structure Numbers (commands : List Command) (breakpoints : Breakpoints) (next : Nat) : Prop where
  next_eq : next = additions commands
  mem_iff (id : Nat) (condition : BreakCondition) :
    ⟨id, condition⟩ ∈ breakpoints ↔ InForce id condition commands
  ordered : breakpoints.Ordered

theorem additions_concat (commands : List Command) (last : Command) :
    additions (commands ++ [last]) = additions commands + additions [last] :=
  List.countP_append

theorem inForce_concat {commands : List Command} {id : Nat} {condition : BreakCondition}
    {last : Command} :
    InForce id condition (commands ++ [last]) ↔
      (InForce id condition commands ∧ last ≠ .removeBreakpoint id) ∨
        (last = .addBreakpoint condition ∧ additions commands = id) :=
  lasting_concat

namespace Numbers

variable {commands : List Command} {breakpoints : Breakpoints} {next : Nat}

theorem nil : Numbers [] [] 0 where
  next_eq := rfl
  mem_iff _ _ := ⟨nofun, fun inForce => absurd inForce not_lasting_nil⟩
  ordered := .nil

/-- A number that has been given is smaller than the next one. -/
theorem id_lt (numbers : Numbers commands breakpoints next) {breakpoint : Breakpoint}
    (member : breakpoint ∈ breakpoints) : breakpoint.id < next := by
  rcases (numbers.mem_iff _ _).mp member with ⟨earlier, later, rfl, given, -⟩
  rw [numbers.next_eq, ← given, additions, additions, List.countP_append,
    List.countP_cons_of_pos rfl]
  omega

theorem skip (numbers : Numbers commands breakpoints next) {last : Command}
    (none : additions [last] = 0) (removes : ∀ id, last ≠ .removeBreakpoint id) :
    Numbers (commands ++ [last]) breakpoints next where
  next_eq := by rw [additions_concat, none, numbers.next_eq, Nat.add_zero]
  mem_iff id condition := by
    rw [numbers.mem_iff, inForce_concat]
    refine ⟨fun inForce => .inl ⟨inForce, removes id⟩, ?_⟩
    rintro (⟨inForce, -⟩ | ⟨rfl, -⟩)
    · exact inForce
    · cases none
  ordered := numbers.ordered

theorem add (numbers : Numbers commands breakpoints next) (condition : BreakCondition) :
    Numbers (commands ++ [.addBreakpoint condition])
      (breakpoints.insert ⟨next, condition⟩) (next + 1) where
  next_eq := by
    rw [additions_concat, numbers.next_eq]
    rfl
  mem_iff id other := by
    rw [Breakpoints.insert_of_forall_lt fun _ member => numbers.id_lt member, List.mem_append,
      List.mem_singleton, numbers.mem_iff, inForce_concat, and_iff_left nofun]
    refine or_congr_right ?_
    rw [Breakpoint.mk.injEq, Command.addBreakpoint.injEq, ← numbers.next_eq]
    exact ⟨fun same => ⟨same.2.symm, same.1.symm⟩, fun same => ⟨same.2.symm, same.1.symm⟩⟩
  ordered := numbers.ordered.insert _

theorem remove (numbers : Numbers commands breakpoints next) (id : Nat) :
    Numbers (commands ++ [.removeBreakpoint id]) (breakpoints.erase id) next where
  next_eq := by
    rw [additions_concat, numbers.next_eq]
    rfl
  mem_iff other condition := by
    rw [Breakpoints.erase, List.mem_filter, numbers.mem_iff, inForce_concat, or_iff_left nofun,
      bne_iff_ne]
    refine and_congr_right fun _ => not_congr ⟨fun same => ?_, fun same => ?_⟩
    · exact congrArg Command.removeBreakpoint same.symm
    · exact (Command.removeBreakpoint.inj same).symm
  ordered := numbers.ordered.erase id

end Numbers

end Command

end BranchPipeline
