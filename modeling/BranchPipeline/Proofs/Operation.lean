import BranchPipeline.Attempt

namespace BranchPipeline

/-!
# Laws of operations that may fail half-way

An operation is run by `perform`, which gives its result together with the
state it has reached.  The laws here say what `perform` does to each way of
building an operation, so that the operations of the library can be followed
step by step without opening the monad.

Most statements about a run only speak of what happens if nothing fails.  For
these, `Yields` says that an operation ends with a value; its laws turn a
sequence of operations into the sequence of states between them.  `Fails` does
the same for the other end, and `FailsOnly` says which faults an operation can
have.  `Ends` speaks of both ends and of the state that each of them leaves
behind, and `Keeps` of an invariant that both of them respect.
-/

/-- A sequence of two results succeeds exactly if both do. -/
theorem bind_eq_ok_iff {ε α β : Type} {first : Except ε α} {rest : α → Except ε β} {value : β} :
    first >>= rest = .ok value ↔ ∃ result, first = .ok result ∧ rest result = .ok value := by
  cases first with
  | error fault =>
    constructor
    · intro failed
      cases failed
    · rintro ⟨result, failed, -⟩
      cases failed
  | ok result =>
    constructor
    · intro succeeded
      exact ⟨result, rfl, succeeded⟩
    · rintro ⟨other, same, succeeded⟩
      cases same
      exact succeeded

section

variable {ε φ α : Type}

@[simp]
theorem mapError_ok (wrap : ε → φ) (value : α) :
    (Except.ok value : Except ε α).mapError wrap = .ok value := rfl

@[simp]
theorem mapError_error (wrap : ε → φ) (fault : ε) :
    (Except.error fault : Except ε α).mapError wrap = .error (wrap fault) := rfl

theorem mapError_eq_ok {wrap : ε → φ} {result : Except ε α} {value : α} :
    result.mapError wrap = .ok value ↔ result = .ok value := by
  cases result <;> simp

end

namespace Attempt

variable {σ τ ε φ α β : Type}

theorem perform_bind (first : Attempt σ ε α) (rest : α → Attempt σ ε β) (before : σ) :
    (first >>= rest).perform before =
      match first.perform before with
      | (.ok value, middle) => (rest value).perform middle
      | (.error fault, after) => (.error fault, after) := by
  show ExceptT.run (first >>= rest) before = _
  simp only [perform, ExceptT.run, bind, ExceptT.bind, ExceptT.mk, StateT.bind,
    ExceptT.bindCont, StateT.run]
  cases first before with
  | mk result after => cases result <;> rfl

theorem perform_map (change : α → β) (attempt : Attempt σ ε α) (before : σ) :
    (change <$> attempt).perform before =
      ((attempt.perform before).1.map change, (attempt.perform before).2) := by
  rw [map_eq_pure_bind, perform_bind]
  cases attempt.perform before with
  | mk result after => cases result <;> rfl

theorem perform_pure (value : α) (before : σ) :
    (pure value : Attempt σ ε α).perform before = (.ok value, before) := rfl

theorem perform_throw (fault : ε) (before : σ) :
    (throw fault : Attempt σ ε α).perform before = (.error fault, before) := rfl

theorem perform_get (before : σ) :
    (get : Attempt σ ε σ).perform before = (.ok before, before) := rfl

theorem perform_set (after before : σ) :
    (set after : Attempt σ ε PUnit).perform before = (.ok ⟨⟩, after) := rfl

theorem perform_modify (change : σ → σ) (before : σ) :
    (modify change : Attempt σ ε PUnit).perform before = (.ok ⟨⟩, change before) := rfl

theorem perform_ofExcept (wrap : ε → φ) (result : Except ε α) (before : σ) :
    (ofExcept wrap result : Attempt σ φ α).perform before = (result.mapError wrap, before) := by
  cases result <;> rfl

theorem perform_onPart (part : σ → τ) (replace : τ → σ → σ) (wrap : ε → φ)
    (attempt : Attempt τ ε α) (before : σ) :
    (onPart part replace wrap attempt).perform before =
      ((attempt.perform (part before)).1.mapError wrap,
        replace (attempt.perform (part before)).2 before) := by
  unfold onPart
  simp only [perform_bind, perform_get, perform_modify, perform_ofExcept]

/-! ## Operations that end with a value -/

/-- The operation does not fail: it ends with this value and in this state. -/
def Yields (attempt : Attempt σ ε α) (before : σ) (value : α) (after : σ) : Prop :=
  attempt.perform before = (.ok value, after)

/-- An operation has at most one end. -/
theorem Yields.unique {attempt : Attempt σ ε α} {before first second : σ} {value other : α}
    (one : attempt.Yields before value first) (two : attempt.Yields before other second) :
    value = other ∧ first = second := by
  have same := one.symm.trans two
  injection same with values states
  injection values with equal
  exact ⟨equal, states⟩

@[simp]
theorem yields_bind {first : Attempt σ ε α} {rest : α → Attempt σ ε β} {before after : σ}
    {value : β} :
    (first >>= rest).Yields before value after ↔
      ∃ result middle, first.Yields before result middle ∧
        (rest result).Yields middle value after := by
  unfold Yields
  rw [perform_bind]
  constructor
  · intro ends
    cases reached : first.perform before with
    | mk result middle =>
      rw [reached] at ends
      cases result with
      | ok result => exact ⟨result, middle, rfl, ends⟩
      | error fault => cases ends
  · rintro ⟨result, middle, one, two⟩
    rw [one]
    exact two

@[simp]
theorem yields_map {change : α → β} {attempt : Attempt σ ε α} {before after : σ} {value : β} :
    (change <$> attempt).Yields before value after ↔
      ∃ result, attempt.Yields before result after ∧ change result = value := by
  unfold Yields
  rw [perform_map]
  cases attempt.perform before with
  | mk result middle => cases result <;> simp [Except.map, and_assoc, and_comm]

@[simp]
theorem yields_pure {result value : α} {before after : σ} :
    (pure result : Attempt σ ε α).Yields before value after ↔ value = result ∧ after = before := by
  unfold Yields
  rw [perform_pure]
  simp [eq_comm]

@[simp]
theorem yields_throw {fault : ε} {value : α} {before after : σ} :
    ¬ (throw fault : Attempt σ ε α).Yields before value after := by
  intro ends
  cases ends

@[simp]
theorem yields_get {value before after : σ} :
    (get : Attempt σ ε σ).Yields before value after ↔ value = before ∧ after = before := by
  unfold Yields
  rw [perform_get]
  simp [eq_comm]

@[simp]
theorem yields_set {state before after : σ} {value : PUnit} :
    (set state : Attempt σ ε PUnit).Yields before value after ↔ after = state := by
  unfold Yields
  rw [perform_set]
  simp [eq_comm]

@[simp]
theorem yields_modify {change : σ → σ} {before after : σ} {value : PUnit} :
    (modify change : Attempt σ ε PUnit).Yields before value after ↔ after = change before := by
  unfold Yields
  rw [perform_modify]
  simp [eq_comm]

@[simp]
theorem yields_ofExcept {wrap : ε → φ} {result : Except ε α} {value : α} {before after : σ} :
    (ofExcept wrap result : Attempt σ φ α).Yields before value after ↔
      result = .ok value ∧ after = before := by
  unfold Yields
  rw [perform_ofExcept]
  cases result <;> simp [eq_comm]

/-- A check behind an operation changes nothing. -/
theorem yields_bind_ofExcept {wrap : ε → φ} {attempt : Attempt σ φ α} {check : α → Except ε β}
    {value : β} {before after : σ} :
    (attempt >>= fun result => ofExcept wrap (check result)).Yields before value after ↔
      ∃ result, attempt.Yields before result after ∧ check result = .ok value := by
  simp only [yields_bind, yields_ofExcept]
  constructor
  · rintro ⟨result, middle, ends, holds, rfl⟩
    exact ⟨result, ends, holds⟩
  · rintro ⟨result, ends, holds⟩
    exact ⟨result, after, ends, holds, rfl⟩

@[simp]
theorem yields_onPart {part : σ → τ} {replace : τ → σ → σ} {wrap : ε → φ}
    {attempt : Attempt τ ε α} {value : α} {before after : σ} :
    (onPart part replace wrap attempt).Yields before value after ↔
      ∃ changed, attempt.Yields (part before) value changed ∧
        after = replace changed before := by
  unfold Yields
  rw [perform_onPart]
  cases attempt.perform (part before) with
  | mk result changed => cases result <;> simp [and_assoc, eq_comm]

/-! ## Operations that end with a fault -/

/-- The operation fails: it ends with this fault and in this state. -/
def Fails (attempt : Attempt σ ε α) (before : σ) (fault : ε) (after : σ) : Prop :=
  attempt.perform before = (.error fault, after)

/-- An operation that ends with a value does not fail. -/
theorem Yields.not_fails {attempt : Attempt σ ε α} {before after reached : σ} {value : α}
    {fault : ε} (ends : attempt.Yields before value after) :
    ¬ attempt.Fails before fault reached := by
  intro fails
  cases ends.symm.trans fails

/-- A sequence fails where its first operation fails or, if that ends with a
value, where the rest of it fails. -/
@[simp]
theorem fails_bind {first : Attempt σ ε α} {rest : α → Attempt σ ε β} {before after : σ}
    {fault : ε} :
    (first >>= rest).Fails before fault after ↔
      first.Fails before fault after ∨
        ∃ value middle, first.Yields before value middle ∧
          (rest value).Fails middle fault after := by
  unfold Fails Yields
  rw [perform_bind]
  cases first.perform before with
  | mk result middle => cases result <;> simp [and_assoc]

@[simp]
theorem fails_map {change : α → β} {attempt : Attempt σ ε α} {before after : σ} {fault : ε} :
    (change <$> attempt).Fails before fault after ↔ attempt.Fails before fault after := by
  unfold Fails
  rw [perform_map]
  cases attempt.perform before with
  | mk result middle => cases result <;> simp [Except.map]

@[simp]
theorem fails_pure {value : α} {before after : σ} {fault : ε} :
    ¬ (pure value : Attempt σ ε α).Fails before fault after :=
  Yields.not_fails (yields_pure.mpr ⟨rfl, rfl⟩)

@[simp]
theorem fails_throw {thrown fault : ε} {before after : σ} :
    (throw thrown : Attempt σ ε α).Fails before fault after ↔
      fault = thrown ∧ after = before := by
  unfold Fails
  rw [perform_throw]
  simp [eq_comm]

@[simp]
theorem fails_get {before after : σ} {fault : ε} :
    ¬ (get : Attempt σ ε σ).Fails before fault after :=
  Yields.not_fails (yields_get.mpr ⟨rfl, rfl⟩)

@[simp]
theorem fails_set {state before after : σ} {fault : ε} :
    ¬ (set state : Attempt σ ε PUnit).Fails before fault after :=
  Yields.not_fails (yields_set.mpr rfl : Yields _ _ ⟨⟩ _)

@[simp]
theorem fails_modify {change : σ → σ} {before after : σ} {fault : ε} :
    ¬ (modify change : Attempt σ ε PUnit).Fails before fault after :=
  Yields.not_fails (yields_modify.mpr rfl : Yields _ _ ⟨⟩ _)

@[simp]
theorem fails_ofExcept {wrap : ε → φ} {result : Except ε α} {before after : σ} {fault : φ} :
    (ofExcept wrap result : Attempt σ φ α).Fails before fault after ↔
      ∃ cause, result = .error cause ∧ fault = wrap cause ∧ after = before := by
  unfold Fails
  rw [perform_ofExcept]
  cases result <;> simp [eq_comm]

@[simp]
theorem fails_onPart {part : σ → τ} {replace : τ → σ → σ} {wrap : ε → φ}
    {attempt : Attempt τ ε α} {before after : σ} {fault : φ} :
    (onPart part replace wrap attempt).Fails before fault after ↔
      ∃ cause changed, attempt.Fails (part before) cause changed ∧ fault = wrap cause ∧
        after = replace changed before := by
  unfold Fails
  rw [perform_onPart]
  cases attempt.perform (part before) with
  | mk result changed => cases result <;> simp [and_assoc, eq_comm]

/-! ## How operations fail -/

/-- If the operation fails, then with one of the allowed faults. -/
def FailsOnly (attempt : Attempt σ ε α) (before : σ) (allowed : ε → Prop) : Prop :=
  ∀ fault after, attempt.perform before = (.error fault, after) → allowed fault

section

variable {allowed : φ → Prop} {before after : σ}

/-- An operation that ends with a value does not fail. -/
theorem Yields.failsOnly {attempt : Attempt σ φ α} {value : α}
    (ends : attempt.Yields before value after) : attempt.FailsOnly before allowed := by
  intro fault reached fails
  have same := ends.symm.trans fails
  cases same

@[simp]
theorem failsOnly_bind {first : Attempt σ φ α} {rest : α → Attempt σ φ β} :
    (first >>= rest).FailsOnly before allowed ↔
      first.FailsOnly before allowed ∧
        ∀ value middle, first.Yields before value middle →
          (rest value).FailsOnly middle allowed := by
  unfold FailsOnly Yields
  rw [perform_bind]
  cases first.perform before with
  | mk result middle =>
    cases result with
    | ok value =>
      constructor
      · intro fails
        refine ⟨fun _ _ impossible => (nomatch impossible), ?_⟩
        intro other reached same
        cases same
        exact fails
      · rintro ⟨-, fails⟩
        exact fails value middle rfl
    | error fault =>
      constructor
      · intro fails
        refine ⟨?_, fun _ _ impossible => (nomatch impossible)⟩
        intro other reached same
        cases same
        exact fails fault middle rfl
      · rintro ⟨fails, -⟩ other reached same
        cases same
        exact fails fault middle rfl

@[simp]
theorem failsOnly_map {change : α → β} {attempt : Attempt σ φ α} :
    (change <$> attempt).FailsOnly before allowed ↔ attempt.FailsOnly before allowed := by
  unfold FailsOnly
  rw [perform_map]
  cases attempt.perform before with
  | mk result middle => cases result <;> simp [Except.map]

@[simp]
theorem failsOnly_pure {value : α} : (pure value : Attempt σ φ α).FailsOnly before allowed :=
  Yields.failsOnly (yields_pure.mpr ⟨rfl, rfl⟩)

@[simp]
theorem failsOnly_throw {fault : φ} :
    (throw fault : Attempt σ φ α).FailsOnly before allowed ↔ allowed fault := by
  unfold FailsOnly
  rw [perform_throw]
  simp

@[simp]
theorem failsOnly_get : (get : Attempt σ φ σ).FailsOnly before allowed :=
  Yields.failsOnly (yields_get.mpr ⟨rfl, rfl⟩)

@[simp]
theorem failsOnly_set : (set after : Attempt σ φ PUnit).FailsOnly before allowed :=
  Yields.failsOnly (yields_set.mpr rfl : Yields _ _ ⟨⟩ _)

@[simp]
theorem failsOnly_modify {change : σ → σ} :
    (modify change : Attempt σ φ PUnit).FailsOnly before allowed :=
  Yields.failsOnly (yields_modify.mpr rfl : Yields _ _ ⟨⟩ _)

@[simp]
theorem failsOnly_ofExcept {wrap : ε → φ} {result : Except ε α} :
    (ofExcept wrap result : Attempt σ φ α).FailsOnly before allowed ↔
      ∀ fault, result = .error fault → allowed (wrap fault) := by
  unfold FailsOnly
  rw [perform_ofExcept]
  cases result <;> simp

@[simp]
theorem failsOnly_onPart {part : σ → τ} {replace : τ → σ → σ} {wrap : ε → φ}
    {attempt : Attempt τ ε α} :
    (onPart part replace wrap attempt).FailsOnly before allowed ↔
      attempt.FailsOnly (part before) fun fault => allowed (wrap fault) := by
  unfold FailsOnly
  rw [perform_onPart]
  cases attempt.perform (part before) with
  | mk result changed => cases result <;> simp

end

/-! ## However an operation ends -/

/-- The two ends of an operation: a value satisfies `good` together with the
state that is reached, and a fault satisfies `bad`. -/
def Ends (attempt : Attempt σ ε α) (before : σ) (good : α → σ → Prop) (bad : ε → σ → Prop) :
    Prop :=
  (∀ value after, attempt.Yields before value after → good value after) ∧
    ∀ fault after, attempt.perform before = (.error fault, after) → bad fault after

section

variable {before : σ} {good : β → σ → Prop} {bad : φ → σ → Prop}

/-- Conditions may be weakened. -/
theorem Ends.mono {attempt : Attempt σ φ β} {better : β → σ → Prop} {milder : φ → σ → Prop}
    (ends : attempt.Ends before better milder)
    (values : ∀ value after, better value after → good value after)
    (faults : ∀ fault after, milder fault after → bad fault after) :
    attempt.Ends before good bad :=
  ⟨fun value after reached => values value after (ends.1 value after reached),
    fun fault after reached => faults fault after (ends.2 fault after reached)⟩

theorem Yields.ends {attempt : Attempt σ φ β} {value : β} {after : σ}
    (yields : attempt.Yields before value after) (holds : good value after) :
    attempt.Ends before good bad := by
  constructor
  · intro other reached same
    rcases yields.unique same with ⟨rfl, rfl⟩
    exact holds
  · intro fault reached fails
    cases yields.symm.trans fails

/-- Of an operation that only fails in allowed ways, nothing else need be known. -/
theorem FailsOnly.ends {attempt : Attempt σ φ β} {allowed : φ → Prop}
    (fails : attempt.FailsOnly before allowed) :
    attempt.Ends before (fun _ _ => True) fun fault _ => allowed fault :=
  ⟨fun _ _ _ => trivial, fails⟩

@[simp]
theorem ends_bind {first : Attempt σ φ α} {rest : α → Attempt σ φ β} :
    (first >>= rest).Ends before good bad ↔
      first.Ends before (fun value middle => (rest value).Ends middle good bad) bad := by
  unfold Ends Yields
  rw [perform_bind]
  cases first.perform before with
  | mk result middle => cases result <;> simp

@[simp]
theorem ends_map {change : α → β} {attempt : Attempt σ φ α} :
    (change <$> attempt).Ends before good bad ↔
      attempt.Ends before (fun value after => good (change value) after) bad := by
  unfold Ends Yields
  rw [perform_map]
  cases attempt.perform before with
  | mk result after => cases result <;> simp [Except.map]

@[simp]
theorem ends_pure {value : β} :
    (pure value : Attempt σ φ β).Ends before good bad ↔ good value before := by
  simp [Ends, perform_pure]

@[simp]
theorem ends_throw {fault : φ} :
    (throw fault : Attempt σ φ β).Ends before good bad ↔ bad fault before := by
  simp [Ends, perform_throw]

@[simp]
theorem ends_get {good : σ → σ → Prop} :
    (get : Attempt σ φ σ).Ends before good bad ↔ good before before := by
  simp [Ends, perform_get]

@[simp]
theorem ends_set {after : σ} {good : PUnit → σ → Prop} :
    (set after : Attempt σ φ PUnit).Ends before good bad ↔ good ⟨⟩ after := by
  simp only [Ends, yields_set, perform_set]
  constructor
  · rintro ⟨holds, -⟩
    exact holds ⟨⟩ after rfl
  · intro holds
    exact ⟨fun _ _ same => same ▸ holds, fun _ _ fails => nomatch fails⟩

@[simp]
theorem ends_modify {change : σ → σ} {good : PUnit → σ → Prop} :
    (modify change : Attempt σ φ PUnit).Ends before good bad ↔ good ⟨⟩ (change before) := by
  simp only [Ends, yields_modify, perform_modify]
  constructor
  · rintro ⟨holds, -⟩
    exact holds ⟨⟩ _ rfl
  · intro holds
    exact ⟨fun _ _ same => same ▸ holds, fun _ _ fails => nomatch fails⟩

@[simp]
theorem ends_ofExcept {wrap : ε → φ} {result : Except ε β} :
    (ofExcept wrap result : Attempt σ φ β).Ends before good bad ↔
      (∀ value, result = .ok value → good value before) ∧
        ∀ fault, result = .error fault → bad (wrap fault) before := by
  unfold Ends Yields
  rw [perform_ofExcept]
  cases result <;> simp

@[simp]
theorem ends_onPart {part : σ → τ} {replace : τ → σ → σ} {wrap : ε → φ}
    {attempt : Attempt τ ε β} :
    (onPart part replace wrap attempt).Ends before good bad ↔
      attempt.Ends (part before) (fun value changed => good value (replace changed before))
        fun fault changed => bad (wrap fault) (replace changed before) := by
  unfold Ends Yields
  rw [perform_onPart]
  cases attempt.perform (part before) with
  | mk result changed => cases result <;> simp

end

/-- However the operation ends, the invariant still holds, and its faults are
allowed ones. -/
def Keeps (attempt : Attempt σ ε α) (invariant : σ → Prop) (allowed : ε → Prop) : Prop :=
  ∀ before, invariant before → attempt.Ends before (fun _ after => invariant after)
    fun fault after => allowed fault ∧ invariant after

section

variable {invariant : σ → Prop} {allowed : φ → Prop}

theorem Keeps.bind {first : Attempt σ φ α} {rest : α → Attempt σ φ β}
    (one : first.Keeps invariant allowed) (two : ∀ value, (rest value).Keeps invariant allowed) :
    (first >>= rest).Keeps invariant allowed := by
  intro before holds
  rw [ends_bind]
  exact (one before holds).mono (fun value middle kept => two value middle kept) fun _ _ => id

/-- What follows may make use of the state that has been looked at. -/
theorem keeps_get_bind {rest : σ → Attempt σ φ β}
    (follows : ∀ before, invariant before → (rest before).Ends before
      (fun _ after => invariant after) fun fault after => allowed fault ∧ invariant after) :
    (get >>= rest).Keeps invariant allowed := by
  intro before holds
  rw [ends_bind, ends_get]
  exact follows before holds

theorem keeps_pure {value : β} : (pure value : Attempt σ φ β).Keeps invariant allowed :=
  fun _ holds => ends_pure.mpr holds

theorem keeps_throw {fault : φ} (fails : allowed fault) :
    (throw fault : Attempt σ φ β).Keeps invariant allowed :=
  fun _ holds => ends_throw.mpr ⟨fails, holds⟩

theorem keeps_ofExcept {wrap : ε → φ} {result : Except ε β}
    (fails : ∀ fault, result = .error fault → allowed (wrap fault)) :
    (ofExcept wrap result : Attempt σ φ β).Keeps invariant allowed := by
  intro before holds
  rw [ends_ofExcept]
  exact ⟨fun _ _ => holds, fun fault failed => ⟨fails fault failed, holds⟩⟩

theorem keeps_modify {change : σ → σ}
    (kept : ∀ before, invariant before → invariant (change before)) :
    (modify change : Attempt σ φ PUnit).Keeps invariant allowed :=
  fun before holds => ends_modify.mpr (kept before holds)

/-- A list of operations keeps what each of them keeps. -/
theorem keeps_forM {items : List α} {operation : α → Attempt σ φ PUnit}
    (each : ∀ item ∈ items, (operation item).Keeps invariant allowed) :
    (items.forM operation).Keeps invariant allowed := by
  induction items with
  | nil => exact keeps_pure
  | cons item items inductionHypothesis =>
    change (operation item >>= fun _ => items.forM operation).Keeps invariant allowed
    exact (each item List.mem_cons_self).bind fun _ =>
      inductionHypothesis fun other member => each other (List.mem_cons_of_mem _ member)

end

/-! ## Two runs side by side -/

/-- Two ends that only differ in what the relation leaves open. -/
structure Alike (related : σ → σ → Prop) (first second : Except ε α × σ) : Prop where
  result : first.1 = second.1
  state : related first.2 second.2

/-- From related states the operation comes to the same end, in related states
again. -/
def Respects (attempt : Attempt σ ε α) (related : σ → σ → Prop) : Prop :=
  ∀ ⦃first second⦄, related first second →
    Alike related (attempt.perform first) (attempt.perform second)

section

variable {related : σ → σ → Prop}

theorem Respects.bind {attempt : Attempt σ φ α} {rest : α → Attempt σ φ β}
    (respects : attempt.Respects related) (others : ∀ value, (rest value).Respects related) :
    (attempt >>= rest).Respects related := by
  intro first second same
  have alike := respects same
  rw [perform_bind, perform_bind]
  cases one : attempt.perform first with
  | mk result middle =>
    cases two : attempt.perform second with
    | mk other between =>
      rw [one, two] at alike
      rcases alike with ⟨rfl, same⟩
      cases result with
      | ok value => exact others value same
      | error fault => exact ⟨rfl, same⟩

theorem respects_pure (value : α) : (pure value : Attempt σ φ α).Respects related :=
  fun _ _ same => ⟨rfl, same⟩

theorem respects_throw (fault : φ) : (throw fault : Attempt σ φ α).Respects related :=
  fun _ _ same => ⟨rfl, same⟩

theorem respects_ofExcept (wrap : ε → φ) (result : Except ε α) :
    (ofExcept wrap result).Respects related := by
  cases result with
  | ok value => exact respects_pure value
  | error fault => exact respects_throw (wrap fault)

theorem respects_modify {change : σ → σ}
    (keeps : ∀ ⦃first second⦄, related first second → related (change first) (change second)) :
    (modify change : Attempt σ φ PUnit).Respects related :=
  fun _ _ same => ⟨rfl, keeps same⟩

/-- What follows a look at the state may do different things in related states,
as long as they come to the same end. -/
theorem respects_get_bind {rest : σ → Attempt σ φ α}
    (follows : ∀ ⦃first second⦄, related first second →
      Alike related ((rest first).perform first) ((rest second).perform second)) :
    (get >>= rest).Respects related :=
  fun _ _ same => follows same

theorem respects_map {attempt : Attempt σ φ α} {change : α → β}
    (respects : attempt.Respects related) : (change <$> attempt).Respects related := by
  intro first second same
  rw [perform_map, perform_map]
  exact ⟨congrArg (Except.map change) (respects same).result, (respects same).state⟩

/-- An operation on a part of the state respects what holds of the part and
stays when the part is replaced. -/
theorem respects_onPart {part : σ → τ} {replace : τ → σ → σ} {wrap : ε → φ}
    {attempt : Attempt τ ε α} {inside : τ → τ → Prop} (respects : attempt.Respects inside)
    (enters : ∀ ⦃first second⦄, related first second → inside (part first) (part second))
    (leaves : ∀ ⦃first second one two⦄, related first second → inside one two →
      related (replace one first) (replace two second)) :
    (onPart part replace wrap attempt).Respects related := by
  intro first second same
  have alike := respects (enters same)
  rw [perform_onPart, perform_onPart]
  exact ⟨congrArg (Except.mapError wrap) alike.result, leaves same alike.state⟩

end

end Attempt
end BranchPipeline
