import BranchPipeline.Proofs.Pipeline.Origin

namespace BranchPipeline

/-!
# Programs

The conditions under which a theorem about a run holds are conditions on the
executable: on the instructions that decode can see of the texts in its text
section.  Here they are carried over to the memory of a new processor, where
the only other instruction is the one that does nothing.
-/

namespace Executable

/-- The text at a location of the text section.  The bounds are compared as
machine words. -/
def tokenAt? (executable : Executable) (location : UInt64) : Option String :=
  if executable.textSection.start.toUInt64 ≤ location &&
      location < executable.textSection.stop.toUInt64 then
    match executable.cells[location.toNat]? with
    | some (.token text) => some text
    | _ => none
  else none

/-- The group of an instruction in the text section. -/
def Decodes (executable : Executable) (group : List MicroOp) : Prop :=
  ∃ location text speculative, executable.tokenAt? location = some text ∧
    Instruction.expand (Processor.instruction text) speculative = .ok group

/-- No `mov`, `inc` or `dec` has `cs` or `ds` for its destination, at any width. -/
def SparesBounds (executable : Executable) : Prop :=
  ∀ group, executable.Decodes group → ∀ op ∈ group, op.opcode = .store →
    ∀ ref, op.operand = some (.register ref) → ref.register ≠ .cs ∧ ref.register ≠ .ds

/-- The texts in the cells. -/
def texts (executable : Executable) : List String :=
  executable.cells.filterMap fun
    | .token text => some text
    | .word _ => none

theorem mem_texts {executable : Executable} {location : UInt64} {text : String}
    (found : executable.tokenAt? location = some text) : text ∈ executable.texts := by
  unfold tokenAt? at found
  split at found
  · split at found
    · rename_i held present
      cases found
      exact List.mem_filterMap.mpr ⟨.token text, List.mem_of_getElem? present, rfl⟩
    · cases found
  · cases found

/-- The groups of all instructions in the cells. -/
def groups (executable : Executable) : List (List MicroOp) :=
  executable.texts.flatMap fun text => [false, true].filterMap fun speculative =>
    (Instruction.expand (Processor.instruction text) speculative).toOption

theorem Decodes.mem_groups {executable : Executable} {group : List MicroOp}
    (decodes : executable.Decodes group) : group ∈ executable.groups := by
  rcases decodes with ⟨location, text, speculative, found, expanded⟩
  refine List.mem_flatMap.mpr ⟨text, mem_texts found, ?_⟩
  refine List.mem_filterMap.mpr ⟨speculative, by cases speculative <;> simp, ?_⟩
  rw [expanded]
  rfl

/-- Whether the micro-operation stores to one of the registers that hold the
bounds. -/
def writesBounds (op : MicroOp) : Bool :=
  match op.opcode, op.operand with
  | .store, some (.register ref) => ref.register == .cs || ref.register == .ds
  | _, _ => false

/-- It can be computed that an executable spares the bounds. -/
theorem sparesBounds_of_groups {executable : Executable}
    (checked : executable.groups.any (·.any writesBounds) = false) : executable.SparesBounds := by
  intro group decodes op member stores ref named
  have spared := List.any_eq_false.mp checked group decodes.mem_groups
  rw [Bool.not_eq_true, List.any_eq_false] at spared
  have spared := spared op member
  simp only [writesBounds, stores, named, Bool.or_eq_true, beq_iff_eq, not_or] at spared
  exact spared

end Executable

namespace Memory

/-- What is loaded over a blank memory has no tokens but those of the image. -/
theorem token_of_load {size : Nat} {image : List Cell} {textSection : Section} {memory : Memory}
    (loads : (blank size).load image textSection = .ok memory) :
    memory.textSection = textSection ∧
      ∀ (index : Nat) (token : String), memory.cells[index]? = some (Cell.token token) →
        image[index]? = some (Cell.token token) := by
  unfold load at loads
  split at loads
  · cases loads
  · cases loads
    refine ⟨rfl, ?_⟩
    intro index token present
    by_cases inside : index < image.length
    · rw [Array.getElem?_append_left (by simpa using inside)] at present
      simpa using present
    · rw [Array.getElem?_append_right (by simpa using inside)] at present
      simp [blank, Array.getElem?_replicate] at present

theorem size_of_load {size : Nat} {image : List Cell} {textSection : Section} {memory : Memory}
    (loads : (blank size).load image textSection = .ok memory) : memory.size = size := by
  have blanks : (blank size).size = size := Array.size_replicate
  unfold load at loads
  split at loads
  · cases loads
  · rename_i fits
    cases loads
    rw [blanks, Nat.not_lt] at fits
    show (image.toArray ++ (blank size).cells.extract image.length).size = size
    rw [Array.size_append, List.size_toArray, Array.size_extract]
    change image.length + (min (blank size).size (blank size).size - image.length) = size
    rw [Nat.min_self, blanks, Nat.add_sub_cancel' fits]

end Memory

namespace Processor

variable {configuration : Configuration} {kind : PredictorKind} {executable : Executable}
  {output : Output} {start : Processor}

theorem Loaded.textSection_eq (loaded : Loaded configuration kind executable output start) :
    start.machine.memory.textSection = executable.textSection := by
  rcases loaded.machine with ⟨memory, loads, machine⟩
  rw [machine]
  exact (Memory.token_of_load loads).1

theorem Loaded.size_eq (loaded : Loaded configuration kind executable output start) :
    start.machine.memory.size = configuration.memorySize := by
  rcases loaded.machine with ⟨memory, loads, machine⟩
  rw [machine]
  exact Memory.size_of_load loads

/-- A new processor fetches what the executable has at a location. -/
theorem Loaded.tokenAt (loaded : Loaded configuration kind executable output start)
    {location : UInt64} {token : String}
    (fetched : start.machine.memory.tokenAt location = .ok token) :
    token = idleToken ∨ executable.tokenAt? location = some token := by
  rcases loaded.machine with ⟨memory, loads, machine⟩
  rcases Memory.token_of_load loads with ⟨textSection, tokens⟩
  rw [machine] at fetched
  replace fetched : memory.tokenAt location = .ok token := fetched
  rcases Memory.tokenAt_eq_ok_iff.mp fetched with ⟨inside, address, positive, present⟩ | ⟨-, idle⟩
  · right
    have held := tokens address.index token present
    rw [Address.index_of_ofInt64 positive] at held
    rw [Memory.inText, textSection] at inside
    rw [Executable.tokenAt?, if_pos inside, held]
  · exact Or.inl idle

/-- A group that a new processor can fetch is one of the executable's, or it
does nothing. -/
theorem Loaded.decodes (loaded : Loaded configuration kind executable output start)
    {group : List MicroOp} (expands : start.machine.memory.Expands group) :
    executable.Decodes group ∨
      ∃ width speculative, group = [⟨.idle, none, width, speculative⟩] := by
  rcases expands with ⟨location, token, speculative, origin, expanded⟩
  rw [Memory.instructionAt] at origin
  cases fetched : start.machine.memory.tokenAt location with
  | error fault =>
    rw [fetched] at origin
    cases origin
  | ok text =>
    rw [fetched] at origin
    cases origin
    rcases loaded.tokenAt fetched with rfl | found
    · right
      have idle : (Instruction.expand (instruction idleToken) speculative).toOption =
          some [⟨.idle, none, .quad, speculative⟩] := by
        cases speculative <;> decide +kernel
      rw [expanded] at idle
      cases idle
      exact ⟨_, _, rfl⟩
    · exact Or.inl ⟨location, text, speculative, found, expanded⟩

theorem Loaded.sparesBounds (loaded : Loaded configuration kind executable output start)
    (spares : executable.SparesBounds) : start.machine.memory.SparesBounds := by
  intro group expands op member stores
  rcases loaded.decodes expands with decodes | ⟨width, speculative, rfl⟩
  · exact spares group decodes op member stores
  · rw [List.mem_singleton.mp member] at stores
    cases stores

/-- Nothing is in flight in a new processor, and nothing has been taught. -/
theorem Loaded.traced (loaded : Loaded configuration kind executable output start) :
    Traced start.machine.memory kind configuration.outstandingCapacity start
      ⟨[], none, executable.textSection.start.toUInt64⟩ := by
  have textSection := loaded.textSection_eq
  rcases loaded.machine with ⟨memory, loads, machine⟩
  refine traced_of_empty ⟨?_, ?_, .refl _⟩
    (Predictor.trained_of_create loaded.predictor _).2.1
  · rw [textSection, machine]
    simp [startRegisters, Machine.writeRegister, RegisterFile.write, RegisterRef.full,
      RegisterFile.content_put_of_ne]
  · rw [textSection, machine]
    simp [startRegisters, Machine.writeRegister, RegisterFile.write, RegisterRef.full,
      RegisterFile.content_put_of_ne]

end Processor
end BranchPipeline
