import BranchPipeline.CommandLine.Program
import BranchPipeline.Proofs.Format.ConfigurationFile

namespace BranchPipeline

/-!
# Where a configuration comes from

Every value of the final configuration has three possible sources, in this
order: the command line, the configuration file, and the default.  `merged`
chooses among them field by field and knows nothing of the order in which
values are put in.

The sizes have to work together twice.  The file is judged by itself, with
defaults for what it leaves out, before the command line is looked at; the
merged configuration is judged afterwards.  The command line can therefore
break what a file says but not repair it.
-/

/-! ## The fields of a configuration -/

namespace Configuration

/-- The configuration with the given sizes and the given bound on the cycles. -/
def ofFields (size : Dimension → Nat) (limit : Option Nat) : Configuration where
  reorderCapacity := size .reorder
  pipelineCapacity := size .pipeline
  memorySize := size .memory
  targetCapacity := size .target
  directionCapacity := size .direction
  historyLength := size .history
  outstandingCapacity := size .outstanding
  cycleLimit := limit

theorem ofFields_get (configuration : Configuration) :
    ofFields configuration.get configuration.cycleLimit = configuration := rfl

theorem get_set (configuration : Configuration) (changed dimension : Dimension) (size : Nat) :
    (configuration.set changed size).get dimension =
      if dimension = changed then size else configuration.get dimension := by
  cases changed <;> cases dimension <;> rfl

theorem cycleLimit_set (configuration : Configuration) (dimension : Dimension) (size : Nat) :
    (configuration.set dimension size).cycleLimit = configuration.cycleLimit := by
  cases dimension <;> rfl

end Configuration

/-! ## What a file says -/

namespace ConfigurationEntry

/-- The size that an entry gives for a dimension, if it is about this one. -/
def sizeFor (dimension : Dimension) : ConfigurationEntry → Option Nat
  | size other count => if dimension = other then some count.toNat else none
  | cycleLimit _ => none

/-- The bound on the cycles that an entry gives, which may be that there is none. -/
def bound : ConfigurationEntry → Option (Option Nat)
  | size _ _ => none
  | cycleLimit limit => some (limit.map UInt64.toNat)

/-- The size that entries give; the last one counts. -/
def size? (entries : List ConfigurationEntry) (dimension : Dimension) : Option Nat :=
  entries.reverse.findSome? (sizeFor dimension)

def limit? (entries : List ConfigurationEntry) : Option (Option Nat) :=
  entries.reverse.findSome? bound

theorem get_put (configuration : Configuration) (entry : ConfigurationEntry)
    (dimension : Dimension) :
    (put configuration entry).get dimension =
      (entry.sizeFor dimension).getD (configuration.get dimension) := by
  rcases entry with ⟨other, count⟩ | limit
  · rw [put, Configuration.get_set, sizeFor]
    split <;> rfl
  · cases dimension <;> rfl

theorem cycleLimit_put (configuration : Configuration) (entry : ConfigurationEntry) :
    (put configuration entry).cycleLimit = entry.bound.getD configuration.cycleLimit := by
  rcases entry with ⟨dimension, count⟩ | limit
  · exact Configuration.cycleLimit_set configuration dimension count.toNat
  · rfl

theorem get_foldl_put (entries : List ConfigurationEntry) (dimension : Dimension)
    (configuration : Configuration) :
    (entries.foldl put configuration).get dimension =
      (size? entries dimension).getD (configuration.get dimension) := by
  induction entries using List.reverseRecOn with
  | nil => rfl
  | append_singleton entries entry inductionHypothesis =>
    rw [List.foldl_append, List.foldl_cons, List.foldl_nil, get_put, inductionHypothesis, size?,
      size?, List.reverse_concat, List.findSome?_cons]
    cases entry.sizeFor dimension <;> rfl

theorem cycleLimit_foldl_put (entries : List ConfigurationEntry) (configuration : Configuration) :
    (entries.foldl put configuration).cycleLimit =
      (limit? entries).getD configuration.cycleLimit := by
  induction entries using List.reverseRecOn with
  | nil => rfl
  | append_singleton entries entry inductionHypothesis =>
    rw [List.foldl_append, List.foldl_cons, List.foldl_nil, cycleLimit_put, inductionHypothesis,
      limit?, limit?, List.reverse_concat, List.findSome?_cons]
    cases entry.bound <;> rfl

/-- What is said about the file: there is none and it has no entries, or its
text is an object of these entries. -/
inductive Given : Option String → List ConfigurationEntry → Prop
  | absent : Given none []
  | object {text : String} {entries : List ConfigurationEntry} (writes : Writes text entries) :
      Given (some text) entries

end ConfigurationEntry

/-! ## What the command line says -/

namespace Overrides

open ConfigurationEntry (Given limit? put get_foldl_put cycleLimit_foldl_put)

/-- The size that the command line gives; the last one counts. -/
def size? (overrides : Overrides) (dimension : Dimension) : Option Nat :=
  (overrides.sizes.reverse.lookup dimension).map UInt64.toNat

theorem get_foldl_set (sizes : List (Dimension × UInt64)) (configuration : Configuration)
    (dimension : Dimension) :
    (sizes.foldl (fun configuration (other, size) => configuration.set other size.toNat)
        configuration).get dimension =
      ((sizes.reverse.lookup dimension).map UInt64.toNat).getD (configuration.get dimension) := by
  induction sizes using List.reverseRecOn with
  | nil => rfl
  | append_singleton sizes given inductionHypothesis =>
    rcases given with ⟨other, size⟩
    rw [List.foldl_append, List.foldl_cons, List.foldl_nil, Configuration.get_set,
      inductionHypothesis, List.reverse_concat, List.lookup_cons]
    by_cases same : dimension = other
    · rw [if_pos same, beq_iff_eq.mpr same]
      rfl
    · rw [if_neg same, beq_eq_false_iff_ne.mpr same]

theorem cycleLimit_foldl_set (sizes : List (Dimension × UInt64)) (configuration : Configuration) :
    (sizes.foldl (fun configuration (other, size) => configuration.set other size.toNat)
      configuration).cycleLimit = configuration.cycleLimit := by
  induction sizes generalizing configuration with
  | nil => rfl
  | cons given sizes inductionHypothesis =>
    exact (inductionHypothesis _).trans (Configuration.cycleLimit_set configuration given.1 _)

theorem get_apply (overrides : Overrides) (configuration : Configuration) (dimension : Dimension) :
    (overrides.apply configuration).get dimension =
      (overrides.size? dimension).getD (configuration.get dimension) := by
  have sized := get_foldl_set overrides.sizes configuration dimension
  rcases overrides with ⟨sizes, _ | limit⟩
  · exact sized
  · cases dimension <;> exact sized

theorem cycleLimit_apply (overrides : Overrides) (configuration : Configuration) :
    (overrides.apply configuration).cycleLimit =
      (overrides.maxCycles.map UInt64.toNat).or configuration.cycleLimit := by
  rcases overrides with ⟨sizes, _ | limit⟩
  · exact cycleLimit_foldl_set sizes configuration
  · rfl

/-! ## What they say together -/

/-- The configuration whose values come from the command line if it gives them,
else from the entries of the file if there are such, and else from the default
configuration. -/
def merged (overrides : Overrides) (entries : List ConfigurationEntry) : Configuration :=
  .ofFields
    (fun dimension => (overrides.size? dimension).getD
      ((ConfigurationEntry.size? entries dimension).getD (({} : Configuration).get dimension)))
    ((overrides.maxCycles.map UInt64.toNat).or
      ((limit? entries).getD ({} : Configuration).cycleLimit))

/-- The values of a file are put into the default configuration one by one, and
those of the command line into the result. -/
theorem apply_foldl_put (overrides : Overrides) (entries : List ConfigurationEntry) :
    overrides.apply (entries.foldl put {}) = overrides.merged entries := by
  rw [← Configuration.ofFields_get (overrides.apply _), merged, cycleLimit_apply,
    cycleLimit_foldl_put]
  congr 1
  funext dimension
  rw [get_apply, get_foldl_put]

theorem foldl_put (entries : List ConfigurationEntry) :
    entries.foldl put {} = ({} : Overrides).merged entries :=
  apply_foldl_put {} entries

/-- The file is judged by itself, then the merged configuration is. -/
theorem resolve_of_given {file : Option String} {entries : List ConfigurationEntry}
    (overrides : Overrides) (given : Given file entries) :
    overrides.resolve file = (({} : Overrides).merged entries).accepted >>= fun _ =>
      (overrides.merged entries).accepted := by
  cases given with
  | absent =>
    show (overrides.apply (List.foldl put {} [])).accepted = _
    rw [apply_foldl_put]
    rfl
  | object writes =>
    rw [resolve, Configuration.read_of_writes writes, foldl_put]
    cases judged : (({} : Overrides).merged entries).accepted with
    | error fault => rfl
    | ok base =>
      rw [(Configuration.accepted_eq_ok_iff.mp judged).1, ← foldl_put]
      show (overrides.apply _).accepted = (overrides.merged entries).accepted
      rw [apply_foldl_put]

/-- A configuration results exactly if the file's own sizes work together and
the merged ones do, and it is the merged one.  What is refused is refused for
the first rule that the file's own sizes break, or else for the first one that
the merged sizes break. -/
theorem resolve_judges_twice {file : Option String} {entries : List ConfigurationEntry}
    (overrides : Overrides) (given : Given file entries) :
    (∀ configuration, overrides.resolve file = .ok configuration ↔
      configuration = overrides.merged entries ∧
        (({} : Overrides).merged entries).check = .ok () ∧
        (overrides.merged entries).check = .ok ()) ∧
    ∀ fault, overrides.resolve file = .error fault ↔
      ∃ why, fault = .refused why ∧
        ((({} : Overrides).merged entries).check = .error why ∨
          (({} : Overrides).merged entries).check = .ok () ∧
          (overrides.merged entries).check = .error why) := by
  rw [resolve_of_given overrides given]
  constructor
  · intro configuration
    rw [bind_eq_ok_iff]
    constructor
    · rintro ⟨base, own, both⟩
      rcases Configuration.accepted_eq_ok_iff.mp both with ⟨same, fits⟩
      exact ⟨same, (Configuration.accepted_eq_ok_iff.mp own).2, fits⟩
    · rintro ⟨same, own, fits⟩
      exact ⟨_, Configuration.accepted_eq_ok_iff.mpr ⟨rfl, own⟩,
        Configuration.accepted_eq_ok_iff.mpr ⟨same, fits⟩⟩
  · intro fault
    cases own : (({} : Overrides).merged entries).check with
    | error first =>
      have refused := Configuration.accepted_eq_error_iff.mpr ⟨first, rfl, own⟩
      rw [refused]
      constructor
      · intro same
        cases same
        exact ⟨first, rfl, Or.inl rfl⟩
      · rintro ⟨why, rfl, same | ⟨same, -⟩⟩
        · cases same
          rfl
        · cases same
    | ok =>
      rw [Configuration.accepted_eq_ok_iff.mpr ⟨rfl, own⟩]
      refine Configuration.accepted_eq_error_iff.trans (exists_congr fun why => ?_)
      simp only [reduceCtorEq, true_and, false_or]

/-- A file whose sizes work together, a command line that breaks them, and one
that goes along with them.  Where both buffers are as large as a machine word
can say, the room that they ask for wraps, and nothing is said against them. -/
theorem resolve_judges_twice_outstanding :
    Given (some "\x7b\"obq_capacity\": 9, \"cycle_limit\": null\x7d")
        [.size .outstanding 9, .cycleLimit none] ∧
      ({ sizes := [(.reorder, 40), (.pipeline, 20)] } : Overrides).resolve
          (some "\x7b\"obq_capacity\": 9, \"cycle_limit\": null\x7d") =
        .error (.refused (.tooSmall .outstanding 11)) ∧
      ({ sizes := [(.reorder, 40), (.outstanding, 11)], maxCycles := some 7 } : Overrides).resolve
          (some "\x7b\"obq_capacity\": 9, \"cycle_limit\": null\x7d") =
        .ok { reorderCapacity := 40, outstandingCapacity := 11, cycleLimit := some 7 } ∧
      ({ sizes := [(.reorder, 0xFFFFFFFFFFFFFFFF), (.pipeline, 0xFFFFFFFFFFFFFFFF)] } :
          Overrides).resolve none =
        .ok { reorderCapacity := 0xFFFFFFFFFFFFFFFF, pipelineCapacity := 0xFFFFFFFFFFFFFFFF } := by
  have given : Given (some "\x7b\"obq_capacity\": 9, \"cycle_limit\": null\x7d")
      [.size .outstanding 9, .cycleLimit none] :=
    .object ⟨⟨[], by with_unfolding_all rfl, rfl⟩, by decide⟩
  refine ⟨given, ?_, ?_, ?_⟩
  · exact ((resolve_judges_twice _ given).2 _).mpr ⟨_, rfl, Or.inr ⟨by decide, by decide⟩⟩
  · exact ((resolve_judges_twice _ given).1 _).mpr ⟨by decide, by decide, by decide⟩
  · exact ((resolve_judges_twice _ .absent).1 _).mpr ⟨by decide, by decide, by decide⟩

/-- A reorder buffer that is too small in the file is refused although the
command line gives one that is large enough. -/
theorem resolve_refuses_repaired_file :
    Given (some "\x7b\"rob_capacity\": 2\x7d") [.size .reorder 2] ∧
      (({ sizes := [(.reorder, 8)] } : Overrides).merged [.size .reorder 2]).check = .ok () ∧
      ({ sizes := [(.reorder, 8)] } : Overrides).resolve (some "\x7b\"rob_capacity\": 2\x7d") =
        .error (.refused (.tooSmall .reorder 4)) := by
  have given : Given (some "\x7b\"rob_capacity\": 2\x7d") [.size .reorder 2] :=
    .object ⟨⟨[], by with_unfolding_all rfl, rfl⟩, by decide⟩
  refine ⟨given, by decide, ?_⟩
  rw [resolve_of_given _ given]
  rfl

end Overrides
end BranchPipeline
