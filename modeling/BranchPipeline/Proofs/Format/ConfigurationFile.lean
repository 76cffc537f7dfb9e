import Mathlib.Data.List.DropRight
import BranchPipeline.Format.ConfigurationFile
import BranchPipeline.Proofs.Format.ExecutableFile

namespace BranchPipeline

/-!
# Configuration files and their objects

The reader of a configuration file puts every value where it belongs as soon as
it has read it.  The reader of arbitrary JSON knows nothing of configurations
and gives the members of an object as a list.  If that list names fields of a
configuration, none of them twice, and gives each a value of its kind, both
readers agree: the file stands for the default configuration with these values
put in, and only the check of the sizes can refuse it.
-/

variable {input rest : List Char} {depth : Nat}

/-! ## Values as arbitrary JSON -/

namespace Json

/-- Reads one more member of an object. -/
def readPair (depth : Nat) (members : List (String × Json)) (input : List Char) :
    Except Fault (List (String × Json) × List Char) := do
  let (key, left) ← readKey input
  let left ← readColon left
  let (value, left) ← readValue depth left
  return ((key, value) :: members, left)

/-- How the text of a value looks, for the values of a configuration file. -/
def Shown (input rest : List Char) : Json → Prop
  | .null => ∃ more, skipBlanks input = 'n' :: more ∧ readWord ['u', 'l', 'l'] more = .ok rest
  | .number value => ∃ lead more, skipBlanks input = lead :: more ∧ startsNumber lead = true ∧
      readNumber (lead :: more) = .ok (value, rest)
  | .object members => ∃ inner more, skipBlanks input = '\x7b' :: more ∧
      readItems '\x7d' (readPair inner) [] more = .ok (members.reverse, rest)
  | _ => True

theorem shown_of_readValue {value : Json} (reads : readValue depth input = .ok (value, rest)) :
    Shown input rest value := by
  rw [readValue] at reads
  split at reads
  · cases reads
  · rcases bind_eq_ok_iff.mp reads with ⟨left, word, same⟩
    cases same
    exact ⟨_, ‹_›, word⟩
  · rcases bind_eq_ok_iff.mp reads with ⟨left, -, same⟩
    cases same
    trivial
  · rcases bind_eq_ok_iff.mp reads with ⟨left, -, same⟩
    cases same
    trivial
  · rcases bind_eq_ok_iff.mp reads with ⟨left, -, same⟩
    cases same
    trivial
  · split at reads
    · cases reads
    · rcases bind_eq_ok_iff.mp reads with ⟨left, -, same⟩
      cases same
      trivial
  · split at reads
    · cases reads
    · rename_i more skipped _ inner
      rcases bind_eq_ok_iff.mp reads with ⟨⟨members, left⟩, items, same⟩
      cases same
      refine ⟨inner, more, skipped, ?_⟩
      rw [List.reverse_reverse]
      exact items
  · split at reads
    · rename_i starts
      rcases bind_eq_ok_iff.mp reads with ⟨⟨number, left⟩, digits, same⟩
      cases same
      exact ⟨_, _, ‹_›, starts, digits⟩
    · cases reads

theorem readCount_of_readValue {count : UInt64}
    (reads : readValue depth input = .ok (.number (.integer count.toNat), rest)) :
    readCount input = .ok (count, rest) := by
  rcases shown_of_readValue reads with ⟨lead, more, skipped, starts, digits⟩
  have nonnegative : ¬(count.toNat : Int) < 0 := Int.not_lt.mpr (Int.natCast_nonneg _)
  have word : (count.toNat : Int).toNat.toUInt64 = count := by
    rw [Int.toNat_natCast]
    exact UInt64.ofNat_toNat
  rw [readCount, skipped]
  refine (if_pos starts).trans (bind_eq_ok_iff.mpr ⟨_, digits, ?_⟩)
  refine (if_neg nonnegative).trans ?_
  rw [word]
  rfl

theorem skipBlanks_skipBlanks (input : List Char) :
    skipBlanks (skipBlanks input) = skipBlanks input :=
  List.dropWhile_idempotent _ input

theorem readCount_skipBlanks (input : List Char) :
    readCount (skipBlanks input) = readCount input := by
  rw [readCount, readCount, skipBlanks_skipBlanks]

theorem readOptionalCount_of_readValue_number {count : UInt64}
    (reads : readValue depth input = .ok (.number (.integer count.toNat), rest)) :
    readOptionalCount input = .ok (some count, rest) := by
  rcases shown_of_readValue reads with ⟨lead, more, skipped, starts, -⟩
  have counted := readCount_of_readValue reads
  rw [← readCount_skipBlanks] at counted
  rw [readOptionalCount]
  split
  · rename_i same
    rw [skipped] at same
    cases same
    cases starts
  · rw [counted]
    rfl

theorem readOptionalCount_of_readValue_null
    (reads : readValue depth input = .ok (.null, rest)) :
    readOptionalCount input = .ok (none, rest) := by
  rcases shown_of_readValue reads with ⟨more, skipped, word⟩
  rw [readOptionalCount, skipped]
  show (readWord _ _ >>= _) = _
  rw [word]
  rfl

end Json

/-! ## Entries -/

/-- A field of a configuration file with its value, which is a machine word. -/
inductive ConfigurationEntry where
  | size (dimension : Dimension) (count : UInt64)
  | cycleLimit (limit : Option UInt64)
  deriving DecidableEq, Repr

namespace ConfigurationEntry

variable {entry : ConfigurationEntry} {entries : List ConfigurationEntry}

def field : ConfigurationEntry → ConfigurationField
  | size dimension _ => .size dimension
  | cycleLimit _ => .cycleLimit

/-- The value of an entry.  No limit at all is written as `null`. -/
def value : ConfigurationEntry → Json
  | size _ count => .number (.integer count.toNat)
  | cycleLimit (some limit) => .number (.integer limit.toNat)
  | cycleLimit none => .null

/-- The member of an object that an entry stands for. -/
def member (entry : ConfigurationEntry) : String × Json :=
  (entry.field.key, entry.value)

/-- A configuration with the value of an entry put in. -/
def put (configuration : Configuration) : ConfigurationEntry → Configuration
  | size dimension count => configuration.set dimension count.toNat
  | cycleLimit limit => { configuration with cycleLimit := limit.map UInt64.toNat }

/-- A text that is a JSON object whose members are the given entries, in order,
with no field named twice. -/
structure Writes (text : String) (entries : List ConfigurationEntry) : Prop where
  object : ∃ rest, Json.readValue Json.deepest text.toList =
    .ok (.object (entries.map member), rest) ∧ Json.readEnd rest = .ok ()
  distinct : (entries.map field).Nodup

theorem named_key (field : ConfigurationField) :
    ConfigurationField.named field.key = .ok field := by
  rcases field with dimension | _
  · cases dimension <;> rfl
  · rfl

theorem readInto_of_readValue (configuration : Configuration)
    (reads : Json.readValue depth input = .ok (entry.value, rest)) :
    entry.field.readInto configuration input = .ok (put configuration entry, rest) := by
  rcases entry with ⟨dimension, count⟩ | ⟨_ | limit⟩
  · show (Json.readCount input >>= _) = _
    rw [Json.readCount_of_readValue reads]
    rfl
  · show (Json.readOptionalCount input >>= _) = _
    rw [Json.readOptionalCount_of_readValue_null reads]
    rfl
  · show (Json.readOptionalCount input >>= _) = _
    rw [Json.readOptionalCount_of_readValue_number reads]
    rfl

theorem readMember_of_readPair {members : List (String × Json)} {fields : List ConfigurationField}
    (configuration : Configuration) (fresh : entry.field ∉ fields)
    (reads : Json.readPair depth members input = .ok (entry.member :: members, rest)) :
    Configuration.readMember (fields, configuration) input =
      .ok ((entry.field :: fields, put configuration entry), rest) := by
  rcases bind_eq_ok_iff.mp reads with ⟨⟨key, afterKey⟩, readsKey, reads⟩
  rcases bind_eq_ok_iff.mp reads with ⟨afterColon, readsColon, reads⟩
  rcases bind_eq_ok_iff.mp reads with ⟨⟨found, left⟩, readsValue, same⟩
  cases same
  refine bind_eq_ok_iff.mpr ⟨_, readsKey, bind_eq_ok_iff.mpr ⟨_, named_key entry.field, ?_⟩⟩
  rw [if_neg fresh]
  exact bind_eq_ok_iff.mpr ⟨_, readsColon,
    bind_eq_ok_iff.mpr ⟨_, readInto_of_readValue configuration readsValue, rfl⟩⟩

/-- Members are read in front of those read before.  If they are entries, the
reader of configuration files takes the same steps on its own state. -/
theorem exists_members_of_readItemsFrom {bound : Nat} {first : Bool}
    {members final : List (String × Json)}
    (reads : Json.readItemsFrom '\x7d' (Json.readPair depth) bound members first input =
      .ok (final, rest)) :
    ∃ more : List (String × Json), final = more.reverse ++ members ∧
      ∀ (entries : List ConfigurationEntry) fields configuration,
        more = entries.map member → (entries.map field).Nodup →
        (∀ entry ∈ entries, entry.field ∉ fields) →
        ∃ named, Json.readItemsFrom '\x7d' Configuration.readMember bound (fields, configuration)
          first input = .ok ((named, entries.foldl put configuration), rest) := by
  -- The entries come last: which members are still to come is only known once
  -- the reader of arbitrary JSON has reached the end.
  induction bound generalizing members first input with
  | zero => cases reads
  | succ bound inductionHypothesis =>
    simp only [Json.readItemsFrom] at reads ⊢
    split at reads
    · cases reads
    split at reads
    · rename_i closes
      cases reads
      refine ⟨[], rfl, fun entries fields configuration same _ _ => ⟨fields, ?_⟩⟩
      rw [List.map_eq_nil_iff.mp same.symm, if_pos closes]
      rfl
    rename_i opens
    split at reads
    · rename_i continues
      rcases bind_eq_ok_iff.mp reads with ⟨⟨longer, afterItem⟩, readsItem, reads⟩
      rcases bind_eq_ok_iff.mp readsItem with ⟨⟨key, afterKey⟩, readsKey, readsRest⟩
      rcases bind_eq_ok_iff.mp readsRest with ⟨afterColon, readsColon, readsRest⟩
      rcases bind_eq_ok_iff.mp readsRest with ⟨⟨found, afterValue⟩, readsFound, same⟩
      cases same
      rcases inductionHypothesis reads with ⟨more, rfl, simulates⟩
      refine ⟨(key, found) :: more, by rw [List.reverse_cons, List.append_assoc]; rfl, ?_⟩
      intro entries fields configuration same distinct fresh
      rcases entries with _ | ⟨entry, entries⟩
      · cases same
      rcases List.cons.inj same with ⟨pair, same⟩
      rcases List.nodup_cons.mp distinct with ⟨unlike, distinct⟩
      rw [pair] at readsItem
      have stepped :=
        readMember_of_readPair configuration (fresh entry List.mem_cons_self) readsItem
      rcases simulates entries (entry.field :: fields) (put configuration entry) same distinct
        (fun other within => by
          rw [List.mem_cons, not_or]
          refine ⟨fun alike => unlike (alike ▸ List.mem_map_of_mem within), ?_⟩
          exact fresh other (List.mem_cons_of_mem _ within)) with ⟨named, simulated⟩
      refine ⟨named, ?_⟩
      rw [if_neg opens, if_pos continues]
      exact bind_eq_ok_iff.mpr ⟨_, stepped, simulated⟩
    · cases reads

end ConfigurationEntry

/-! ## Files -/

namespace Configuration

open ConfigurationEntry

/-- A configuration, if its sizes work together. -/
def accepted (configuration : Configuration) : Except ConfigurationFileFault Configuration := do
  configuration.check.mapError ConfigurationFileFault.refused
  return configuration

theorem accepted_eq_ok_iff {configuration result : Configuration} :
    configuration.accepted = .ok result ↔
      result = configuration ∧ configuration.check = .ok () := by
  rw [accepted]
  cases configuration.check with
  | error fault => exact ⟨nofun, nofun⟩
  | ok =>
    constructor
    · intro same
      cases same
      exact ⟨rfl, rfl⟩
    · rintro ⟨rfl, -⟩
      rfl

theorem accepted_eq_error_iff {configuration : Configuration} {fault : ConfigurationFileFault} :
    configuration.accepted = .error fault ↔
      ∃ why, fault = .refused why ∧ configuration.check = .error why := by
  rw [accepted]
  cases configuration.check with
  | ok => exact ⟨nofun, nofun⟩
  | error why =>
    constructor
    · intro same
      cases same
      exact ⟨why, rfl, rfl⟩
    · rintro ⟨other, rfl, same⟩
      cases same
      rfl

/-- A file that holds an object of entries is accepted or refused for its sizes
alone. -/
theorem read_of_writes {text : String} {entries : List ConfigurationEntry}
    (writes : Writes text entries) :
    read text = (entries.foldl put ({} : Configuration)).accepted := by
  rcases writes.object with ⟨rest, reads, ends⟩
  rcases Json.shown_of_readValue reads with ⟨inner, more, skipped, items⟩
  rcases exists_members_of_readItemsFrom items with ⟨members, same, simulates⟩
  rw [List.append_nil] at same
  rcases simulates entries [] {} (List.reverse_inj.mp same).symm writes.distinct
    (fun _ _ => List.not_mem_nil) with ⟨named, simulated⟩
  have fields : readFields text.toList =
      .ok (entries.foldl put ({} : Configuration), rest) := by
    rw [readFields, skipped]
    exact bind_eq_ok_iff.mpr ⟨_, simulated, rfl⟩
  rw [read, fields]
  show ((Json.readEnd rest).mapError _ >>= _) = _
  rw [ends]
  rfl

end Configuration
end BranchPipeline
