import Tenure.Word

/-!
# Answers without a trap

A checked operation that answers has passed each of its steps. These laws lead from
an answer back to the answers of the steps, and for loops from the steps to an answer.
-/

set_option autoImplicit false

namespace Tenure.Checked

variable {First Second : Type}

theorem bind_eq_ok_iff {source : Checked First} {next : First → Checked Second}
    {result : Second} :
    source >>= next = .ok result ↔ ∃ value, source = .ok value ∧ next value = .ok result := by
  cases source with
  | error trap => simp [bind, Except.bind]
  | ok value => simp [bind, Except.bind]

/-- The answer of the first step is known already. -/
theorem bind_of_eq_ok {source : Checked First} {next : First → Checked Second}
    {value : First} {result : Checked Second} (first : source = .ok value)
    (later : next value = result) : source >>= next = result := by
  subst first
  exact later

/-- Steps after the first one may be exchanged for ones that agree on its answer. -/
theorem bind_congr {source : Checked First} {next other : First → Checked Second}
    (same : ∀ value, source = .ok value → next value = other value) :
    source >>= next = source >>= other := by
  cases source with
  | error trap => rfl
  | ok value => exact same value rfl

theorem pure_eq_ok_iff {value result : First} :
    (pure value : Checked First) = .ok result ↔ value = result := by
  simp [pure, Except.pure]

theorem map_eq_ok_iff {source : Checked First} {change : First → Second} {result : Second} :
    source.map change = .ok result ↔ ∃ value, source = .ok value ∧ change value = result := by
  cases source with
  | error trap => simp [Except.map]
  | ok value => simp [Except.map]

theorem throw_ne_ok {trap : Trap} {result : First} :
    (throw trap : Checked First) ≠ .ok result := by
  simp [throw, throwThe, MonadExceptOf.throw]

theorem isOk_iff {source : Checked First} :
    source.isOk = true ↔ ∃ value, source = .ok value := by
  cases source with
  | error trap => simp [Except.isOk, Except.toBool]
  | ok value => simp [Except.isOk, Except.toBool]

theorem eq_ok_of_any {source : Checked First} {test : First → Bool}
    (passes : source.toOption.any test = true) :
    ∃ value, source = .ok value ∧ test value = true := by
  cases source with
  | error trap => simp [Except.toOption] at passes
  | ok value => exact ⟨value, rfl, by simpa [Except.toOption] using passes⟩

/-! ## Operations that may be refused -/

section Refused

variable {Refusal : Type}

theorem run_bind_eq_ok {source : ExceptT Refusal Checked First}
    {next : First → ExceptT Refusal Checked Second} {result : Second}
    (ran : (source >>= next).run = .ok (.ok result)) :
    ∃ value, source.run = .ok (.ok value) ∧ (next value).run = .ok (.ok result) := by
  rw [ExceptT.run_bind, bind_eq_ok_iff] at ran
  obtain ⟨answer, source_eq, ran⟩ := ran
  cases answer with
  | error refusal => simp [pure_eq_ok_iff] at ran
  | ok value => exact ⟨value, source_eq, ran⟩

/-- The first step was refused, or the second one after the first. -/
theorem run_bind_eq_error {source : ExceptT Refusal Checked First}
    {next : First → ExceptT Refusal Checked Second} {refusal : Refusal}
    (ran : (source >>= next).run = .ok (.error refusal)) :
    source.run = .ok (.error refusal) ∨
      ∃ value, source.run = .ok (.ok value) ∧ (next value).run = .ok (.error refusal) := by
  rw [ExceptT.run_bind, bind_eq_ok_iff] at ran
  obtain ⟨answer, source_eq, ran⟩ := ran
  cases answer with
  | error earlier =>
      cases ran
      exact .inl source_eq
  | ok value => exact .inr ⟨value, source_eq, ran⟩

theorem run_lift_eq_ok {source : Checked First} {value : First}
    (ran : (liftM source : ExceptT Refusal Checked First).run = .ok (.ok value)) :
    source = .ok value := by
  cases source with
  | error trap => cases ran
  | ok other =>
      cases ran
      rfl

theorem run_pure_eq_ok {value result : First}
    (ran : (pure value : ExceptT Refusal Checked First).run = .ok (.ok result)) :
    value = result := by
  cases ran
  rfl

end Refused

/-! ## Operations that answer -/

/-- The operation does not stop at a trap. -/
def Answers (operation : Checked First) : Prop := ∃ value, operation = .ok value

theorem answers_pure (value : First) : Answers (pure value : Checked First) := ⟨value, rfl⟩

/-- The second step may rely on what the first one answered. -/
theorem Answers.bind {source : Checked First} {next : First → Checked Second}
    (first : Answers source) (later : ∀ value, source = .ok value → Answers (next value)) :
    Answers (source >>= next) := by
  obtain ⟨value, rfl⟩ := first
  exact later value rfl

theorem answers_bind_of_eq_ok {source : Checked First} {next : First → Checked Second}
    {value : First} (first : source = .ok value) (later : Answers (next value)) :
    Answers (source >>= next) := by
  subst first
  exact later

/-- The operation answers, or it stops at one trap, and there is a reason for it. -/
def StopsOnlyIf (reason : Prop) (trap : Trap) (operation : Checked First) : Prop :=
  Answers operation ∨ (reason ∧ operation = .error trap)

section StopsOnlyIf

variable {reason : Prop} {trap : Trap} {operation source : Checked First}
  {next : First → Checked Second}

theorem Answers.stopsOnlyIf (answers : Answers operation) : StopsOnlyIf reason trap operation :=
  .inl answers

theorem StopsOnlyIf.answers (stops : StopsOnlyIf reason trap operation) (none : ¬ reason) :
    Answers operation :=
  stops.resolve_right fun stopped => none stopped.1

theorem StopsOnlyIf.bind (first : StopsOnlyIf reason trap source)
    (later : ∀ value, source = .ok value → StopsOnlyIf reason trap (next value)) :
    StopsOnlyIf reason trap (source >>= next) := by
  rcases first with ⟨value, rfl⟩ | ⟨holds, rfl⟩
  · exact later value rfl
  · exact .inr ⟨holds, rfl⟩

theorem stopsOnlyIf_bind_of_eq_ok {value : First} (first : source = .ok value)
    (later : StopsOnlyIf reason trap (next value)) :
    StopsOnlyIf reason trap (source >>= next) := by
  subst first
  exact later

end StopsOnlyIf

/-! ## Outcomes -/

section Outcomes

variable {Refusal : Type} {source : ExceptT Refusal Checked First}
  {next : First → ExceptT Refusal Checked Second}

/-- What holds of the result if the operation ends with one, and of the refusal if it ends
with that. -/
structure Ends (source : ExceptT Refusal Checked First) (returns : First → Prop)
    (refuses : Refusal → Prop) : Prop where
  ok : ∀ value, source.run = .ok (.ok value) → returns value
  error : ∀ refusal, source.run = .ok (.error refusal) → refuses refusal

variable {returns : First → Prop} {later : Second → Prop} {refuses : Refusal → Prop}

theorem ends_pure {value : First} (holds : returns value) :
    Ends (pure value : ExceptT Refusal Checked First) returns refuses where
  ok := fun _ ran => run_pure_eq_ok ran ▸ holds
  error := fun _ ran => by cases ran

theorem Ends.bind (first : Ends source returns refuses)
    (rest : ∀ value, returns value → Ends (next value) later refuses) :
    Ends (source >>= next) later refuses where
  ok := fun result ran => by
    obtain ⟨value, earlier, ran⟩ := run_bind_eq_ok ran
    exact (rest value (first.ok value earlier)).ok result ran
  error := fun refusal ran => by
    rcases run_bind_eq_error ran with refused | ⟨value, earlier, ran⟩
    · exact first.error refusal refused
    · exact (rest value (first.ok value earlier)).error refusal ran

theorem ends_lift {operation : Checked First} (holds : ∀ value, operation = .ok value → returns value) :
    Ends (liftM operation : ExceptT Refusal Checked First) returns refuses where
  ok := fun value ran => holds value (run_lift_eq_ok ran)
  error := fun refusal ran => by
    cases operation with
    | error trap => cases ran
    | ok value => cases ran

/-- The operation ends, and if that is with a result, it satisfies a condition. -/
structure Achieves (source : ExceptT Refusal Checked First) (returns : First → Prop) : Prop where
  answers : Answers source.run
  ok : ∀ value, source.run = .ok (.ok value) → returns value

theorem achieves_pure {value : First} (holds : returns value) :
    Achieves (pure value : ExceptT Refusal Checked First) returns where
  answers := ⟨.ok value, rfl⟩
  ok := fun _ ran => run_pure_eq_ok ran ▸ holds

theorem Achieves.bind (first : Achieves source returns)
    (rest : ∀ value, returns value → Achieves (next value) later) :
    Achieves (source >>= next) later where
  answers := by
    rw [ExceptT.run_bind]
    refine first.answers.bind fun answer earlier => ?_
    cases answer with
    | error refusal => exact answers_pure _
    | ok value => exact (rest value (first.ok value earlier)).answers
  ok := fun result ran => by
    obtain ⟨value, earlier, ran⟩ := run_bind_eq_ok ran
    exact (rest value (first.ok value earlier)).ok result ran

theorem achieves_lift {operation : Checked First} (answers : Answers operation)
    (holds : ∀ value, operation = .ok value → returns value) :
    Achieves (liftM operation : ExceptT Refusal Checked First) returns where
  answers := by
    obtain ⟨value, rfl⟩ := answers
    exact ⟨.ok value, rfl⟩
  ok := fun value ran => holds value (run_lift_eq_ok ran)

end Outcomes

/-! ## Loops -/

/-- One more item is the item in question, or it comes after it. -/
theorem split_concat_iff {Item : Type} {items seen rest : List Item} {last item : Item} :
    items ++ [last] = seen ++ item :: rest ↔
      (rest = [] ∧ items = seen ∧ last = item) ∨
        ∃ between, rest = between ++ [last] ∧ items = seen ++ item :: between := by
  constructor
  · intro split
    rcases rest.eq_nil_or_concat with rfl | ⟨between, final, rfl⟩
    · obtain ⟨same, ends⟩ := List.append_inj' split rfl
      exact .inl ⟨rfl, same, List.singleton_inj.mp ends⟩
    · rw [List.concat_eq_append, ← List.cons_append, ← List.append_assoc] at split
      obtain ⟨same, ends⟩ := List.append_inj' split rfl
      obtain rfl := List.singleton_inj.mp ends
      exact .inr ⟨between, List.concat_eq_append, same⟩
  · rintro (⟨rfl, rfl, rfl⟩ | ⟨between, rfl, rfl⟩)
    · rfl
    · simp

/-- What holds of the first state and is kept by every step holds of the last state. -/
theorem foldlM_induction {Item State : Type} {step : State → Item → Checked State}
    (invariant : List Item → State → Prop) {items : List Item} {initial final : State}
    (ran : items.foldlM step initial = .ok final) (start : invariant [] initial)
    (next : ∀ seen item rest state after, items = seen ++ item :: rest →
      invariant seen state → step state item = .ok after → invariant (seen ++ [item]) after) :
    invariant items final := by
  have loop : ∀ rest seen state, items = seen ++ rest → invariant seen state →
      rest.foldlM step state = .ok final → invariant items final := by
    intro rest
    induction rest with
    | nil =>
        intro seen state split holds finished
        rw [List.foldlM_nil, pure_eq_ok_iff] at finished
        subst finished
        simpa [split] using holds
    | cons item rest ih =>
        intro seen state split holds finished
        rw [List.foldlM_cons, bind_eq_ok_iff] at finished
        obtain ⟨after, stepped, finished⟩ := finished
        exact ih (seen ++ [item]) after (by simp [split])
          (next seen item rest state after split holds stepped) finished
  exact loop items [] initial rfl start ran

/-- A loop answers if every step does from a state that the steps before it can lead to. -/
theorem foldlM_total {Item State : Type} {step : State → Item → Checked State}
    (invariant : List Item → State → Prop) {items : List Item} {initial : State}
    (start : invariant [] initial)
    (next : ∀ seen item rest state, items = seen ++ item :: rest → invariant seen state →
      ∃ after, step state item = .ok after ∧ invariant (seen ++ [item]) after) :
    ∃ final, items.foldlM step initial = .ok final ∧ invariant items final := by
  have loop : ∀ rest seen state, items = seen ++ rest → invariant seen state →
      ∃ final, rest.foldlM step state = .ok final ∧ invariant items final := by
    intro rest
    induction rest with
    | nil =>
        intro seen state split holds
        exact ⟨state, rfl, by simpa [split] using holds⟩
    | cons item rest ih =>
        intro seen state split holds
        obtain ⟨after, stepped, holds⟩ := next seen item rest state split holds
        obtain ⟨final, finished, holds⟩ := ih (seen ++ [item]) after (by simp [split]) holds
        refine ⟨final, ?_, holds⟩
        rw [List.foldlM_cons, bind_eq_ok_iff]
        exact ⟨after, stepped, finished⟩
  exact loop items [] initial rfl start

theorem answers_foldlM {Item State : Type} {step : State → Item → Checked State}
    (invariant : List Item → State → Prop) {items : List Item} {initial : State}
    (start : invariant [] initial)
    (answers : ∀ seen item rest state, items = seen ++ item :: rest → invariant seen state →
      Answers (step state item))
    (next : ∀ seen item rest state after, items = seen ++ item :: rest →
      invariant seen state → step state item = .ok after → invariant (seen ++ [item]) after) :
    Answers (items.foldlM step initial) := by
  have folded := foldlM_total invariant start fun seen item rest state split holds => by
    obtain ⟨after, stepped⟩ := answers seen item rest state split holds
    exact ⟨after, stepped, next seen item rest state after split holds stepped⟩
  obtain ⟨final, ran, _⟩ := folded
  exact ⟨final, ran⟩

/-! ## Operations that correspond -/

section Corresponding

variable {First' Second' : Type}

/-- If the steps of two operations correspond, so do the operations. -/
theorem bind_eq_map {source : Checked First} {source' : Checked First'}
    {next : First → Checked Second} {next' : First' → Checked Second'} {left : First → First'}
    {right : Second → Second'} (first : source' = left <$> source)
    (later : ∀ value, next' (left value) = right <$> next value) :
    source' >>= next' = right <$> (source >>= next) := by
  subst first
  cases source with
  | error trap => rfl
  | ok value => exact later value

theorem bind_eq_map_of_same {source : Checked First} {next : First → Checked Second}
    {next' : First → Checked Second'} {right : Second → Second'}
    (later : ∀ value, next' value = right <$> next value) :
    source >>= next' = right <$> (source >>= next) :=
  bind_eq_map (id_map source).symm later

theorem foldlM_eq_map {Item State State' : Type} {step : State → Item → Checked State}
    {step' : State' → Item → Checked State'} (image : State → State')
    (steps : ∀ state item, step' (image state) item = image <$> step state item)
    (items : List Item) (initial : State) :
    items.foldlM step' (image initial) = image <$> items.foldlM step initial := by
  induction items generalizing initial with
  | nil => rfl
  | cons item rest ih =>
      rw [List.foldlM_cons, List.foldlM_cons]
      exact bind_eq_map (steps initial item) ih

end Corresponding

end Tenure.Checked
