namespace BranchPipeline

/-!
# Registers, widths and register operands

Twenty-two registers exist.  The last four belong to the pipeline itself
(instruction pointer, memory address, memory buffer and current instruction)
and cannot be the destination of an instruction.  An operand names a register
together with the number of low bytes that the access touches; the name alone
means all eight, and one more letter means fewer.
-/

/-- The registers, in the order in which reports list them. -/
inductive Register where
  | rax | rbx | rcx | rdx | rsi | rdi | rbp | rsp
  | r8 | r9 | r10 | r11 | r12 | r13 | r14 | r15
  | cs | ds | rip | mar | mbr | cir
  deriving DecidableEq, Repr

namespace Register

/-- How many registers there are. -/
abbrev count : Nat := 22

/-- All registers in report order. -/
def all : List Register :=
  [rax, rbx, rcx, rdx, rsi, rdi, rbp, rsp,
    r8, r9, r10, r11, r12, r13, r14, r15, cs, ds, rip, mar, mbr, cir]

/-- The place of a register in report order. -/
def index : Register → Fin count
  | rax => 0 | rbx => 1 | rcx => 2 | rdx => 3 | rsi => 4 | rdi => 5 | rbp => 6 | rsp => 7
  | r8 => 8 | r9 => 9 | r10 => 10 | r11 => 11 | r12 => 12 | r13 => 13 | r14 => 14 | r15 => 15
  | cs => 16 | ds => 17 | rip => 18 | mar => 19 | mbr => 20 | cir => 21

/-- Different registers have different places. -/
theorem index_injective {first second : Register} (same : first.index = second.index) :
    first = second := by
  have listed (register : Register) : all[register.index.val]? = some register := by
    cases register <;> rfl
  have agree := listed first
  rw [same, listed second] at agree
  exact (Option.some.inj agree).symm

def name : Register → String
  | rax => "rax" | rbx => "rbx" | rcx => "rcx" | rdx => "rdx"
  | rsi => "rsi" | rdi => "rdi" | rbp => "rbp" | rsp => "rsp"
  | r8 => "r8" | r9 => "r9" | r10 => "r10" | r11 => "r11"
  | r12 => "r12" | r13 => "r13" | r14 => "r14" | r15 => "r15"
  | cs => "cs" | ds => "ds" | rip => "rip" | mar => "mar" | mbr => "mbr" | cir => "cir"

def named? (name : String) : Option Register :=
  all.find? fun register => register.name == name

/-- Pipeline registers, which no instruction may write. -/
def isInternal : Register → Bool
  | rip | mar | mbr | cir => true
  | _ => false

end Register

/-- The number of low bytes that an access touches. -/
inductive Width where
  | byte | word | long | quad
  deriving DecidableEq, Repr

namespace Width

def bytes : Width → Nat
  | byte => 1 | word => 2 | long => 4 | quad => 8

/-- The letter that a register name carries for this width. -/
def suffix : Width → Char
  | byte => 'b' | word => 'w' | long => 'l' | quad => 'q'

/-- The width that a letter stands for. -/
def ofSuffix? : Char → Option Width
  | 'b' => some byte
  | 'w' => some word
  | 'l' => some long
  | 'q' => some quad
  | _ => none

def narrower (first second : Width) : Width :=
  if first.bytes ≤ second.bytes then first else second

/-- The word whose set bits are those of the touched bytes. -/
def mask : Width → UInt64
  | byte => 0xFF
  | word => 0xFFFF
  | long => 0xFFFFFFFF
  | quad => 0xFFFFFFFFFFFFFFFF

/-- The touched bytes alone, with zeros above them. -/
def truncate (width : Width) (value : UInt64) : UInt64 :=
  value &&& width.mask

/-- The touched bytes of `new` below the untouched bytes of `old`. -/
def overwrite (width : Width) (old new : UInt64) : UInt64 :=
  (old &&& ~~~width.mask) ||| (new &&& width.mask)

end Width

/-- Why a register could not be named or read. -/
inductive RegisterFault where
  | unknown (name : String)
  | notNumeric (register : Register)
  deriving DecidableEq, Repr

def RegisterFault.message : RegisterFault → String
  | .unknown name => s!"unknown register `{name}`"
  | .notNumeric register =>
    s!"register {register.name} holds an instruction token, not a number"

/-- A register as an operand names it. -/
structure RegisterRef where
  register : Register
  width : Width
  deriving DecidableEq, Repr

namespace RegisterRef

def full (register : Register) : RegisterRef := ⟨register, .quad⟩

/-- Reads a name: a register name, or one with a width letter behind it.  No
register's name is another one's with a letter behind it, so a text has at
most one reading. -/
def read? (name : String) : Option RegisterRef :=
  match Register.named? name with
  | some register => some (full register)
  | none => do
    let last ← name.toList.getLast?
    let width ← Width.ofSuffix? last
    let register ← Register.named? (String.ofList name.toList.dropLast)
    some ⟨register, width⟩

/-- Reads a name, or reports it as unknown. -/
def read (name : String) : Except RegisterFault RegisterRef :=
  match read? name with
  | some ref => .ok ref
  | none => .error (.unknown name)

/-- The written form: no letter at full width. -/
def text (ref : RegisterRef) : String :=
  match ref.width with
  | .quad => ref.register.name
  | width => ref.register.name.push width.suffix

end RegisterRef
end BranchPipeline
