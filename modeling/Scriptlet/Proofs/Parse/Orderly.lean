import Scriptlet.Proofs.Parse.Outcome

namespace Scriptlet

/-!
# Every step goes on and answers for its failures

Whatever it ends with, a step leaves the cursor where it was or further on, and
it closes the levels it opened.  A step without a result has recorded a
diagnostic.  The last point rests on the levels that bound the recursion: a step
that has used them all up has also met the nesting limit.

Both facts hold of a sequence of steps when they hold of its parts, so they are
classes, and the routines of the grammar inherit them from what they are made of.
-/

namespace Parse

/--
The step goes on from where it starts and reports its failures, as long as its
levels and those already open make up the limit.
-/
class Onward
    (levels : Nat)
    (step : Parse α) :
    Prop where
  ahead :
    ∀ start, nestingLimit ≤ levels + start.depth →
      (step start).cursor.stream.ahead <:+ start.stream.ahead
  last :
    ∀ start, nestingLimit ≤ levels + start.depth →
      (step start).cursor.stream.last = start.stream.last
  reports :
    ∀ start, nestingLimit ≤ levels + start.depth →
      (step start).result? = none →
        Event.diagnostics (step start).events ≠ []

/-- The step also leaves as many levels open as it found. -/
class Orderly
    (levels : Nat)
    (step : Parse α) :
    Prop
    extends Onward levels step where
  depth :
    ∀ start, nestingLimit ≤ levels + start.depth →
      (step start).cursor.depth = start.depth

section Sequences

variable {levels : Nat}

instance orderly_pure
    {value : α} :
    Orderly levels (pure value : Parse α) where
  ahead := fun _ _ => List.suffix_rfl
  last := fun _ _ => rfl
  reports := fun _ _ failed => by simp at failed
  depth := fun _ _ => rfl

/-- What follows a step that keeps the levels can count on the same levels. -/
theorem Orderly.fits_after
    {step : Parse α}
    [first : Orderly levels step]
    {start middle : Cursor}
    {result? : Option α}
    {events : List Event}
    (fits : nestingLimit ≤ levels + start.depth)
    (ran : step start = ⟨result?, middle, events⟩) :
    nestingLimit ≤ levels + middle.depth := by
  have kept := first.depth start fits
  rw [ran] at kept
  exact kept.symm ▸ fits

instance onward_bind
    {step : Parse α}
    {next : α → Parse β}
    [first : Orderly levels step]
    [second : ∀ value, Onward levels (next value)] :
    Onward levels (step >>= next) where
  ahead := by
    intro start fits
    have front := first.ahead start fits
    rcases ran : step start with ⟨_ | value, middle, events⟩
    · simpa [bind_apply_of_none ran, ran] using front
    · rw [ran] at front
      rw [bind_apply_of_some ran]
      exact ((second value).ahead middle (first.fits_after fits ran)).trans front
  last := by
    intro start fits
    have same := first.last start fits
    rcases ran : step start with ⟨_ | value, middle, events⟩
    · simpa [bind_apply_of_none ran, ran] using same
    · rw [ran] at same
      rw [bind_apply_of_some ran]
      exact ((second value).last middle (first.fits_after fits ran)).trans same
  reports := by
    intro start fits failed
    have reported := first.reports start fits
    rcases ran : step start with ⟨_ | value, middle, events⟩
    · simpa [bind_apply_of_none ran, ran] using reported
    · rw [bind_apply_of_some ran] at failed ⊢
      have later :=
        (second value).reports middle (first.fits_after fits ran) failed
      simp [later]

instance orderly_bind
    {step : Parse α}
    {next : α → Parse β}
    [first : Orderly levels step]
    [second : ∀ value, Orderly levels (next value)] :
    Orderly levels (step >>= next) where
  depth := by
    intro start fits
    have kept := first.depth start fits
    rcases ran : step start with ⟨_ | value, middle, events⟩
    · simpa [bind_apply_of_none ran, ran] using kept
    · rw [ran] at kept
      rw [bind_apply_of_some ran]
      exact ((second value).depth middle (first.fits_after fits ran)).trans kept

instance orderly_map
    {change : α → β}
    {step : Parse α}
    [inner : Orderly levels step] :
    Orderly levels (change <$> step) where
  ahead := inner.ahead
  last := inner.last
  reports := fun start fits failed =>
    inner.reports start fits (Option.map_eq_none_iff.mp failed)
  depth := inner.depth

instance onward_ite
    {condition : Prop}
    [Decidable condition]
    {first second : Parse α}
    [positive : Onward levels first]
    [negative : Onward levels second] :
    Onward levels (if condition then first else second) := by
  split
  · exact positive
  · exact negative

instance orderly_ite
    {condition : Prop}
    [Decidable condition]
    {first second : Parse α}
    [positive : Orderly levels first]
    [negative : Orderly levels second] :
    Orderly levels (if condition then first else second) := by
  split
  · exact positive
  · exact negative

instance orderly_cursor : Orderly levels cursor where
  ahead := fun _ _ => List.suffix_rfl
  last := fun _ _ => rfl
  reports := fun _ _ failed => by simp [cursor] at failed
  depth := fun _ _ => rfl

instance orderly_emit
    {event : Event} :
    Orderly levels (emit event) where
  ahead := fun _ _ => List.suffix_rfl
  last := fun _ _ => rfl
  reports := fun _ _ failed => by simp [emit] at failed
  depth := fun _ _ => rfl

instance orderly_advance : Orderly levels advance where
  ahead := fun start _ => by simpa [advance] using List.tail_suffix _
  last := fun start _ => by simp [advance]
  reports := fun _ _ failed => by simp [advance] at failed
  depth := fun start _ => by simp [advance]

instance orderly_reject
    {fault : Fault}
    {position : Position} :
    Orderly levels (reject fault position : Parse α) where
  ahead := fun _ _ => List.suffix_rfl
  last := fun _ _ => rfl
  reports := fun _ _ _ => by
    simp [reject, record, emit, fail, bind, andThen, Event.diagnostics,
      Event.diagnostic?]
  depth := fun _ _ => rfl

instance orderly_closing
    {step : Parse α}
    [inner : Orderly levels step] :
    Orderly levels (closing step) where
  ahead := inner.ahead
  last := inner.last
  reports := fun start fits failed => by
    simp [closing, inner.reports start fits failed]
  depth := inner.depth

/-- A failure that is not passed on needs no report of its own. -/
instance orderly_attempt
    {step : Parse α}
    [inner : Orderly levels step] :
    Orderly levels (attempt step) where
  ahead := inner.ahead
  last := inner.last
  reports := fun _ _ failed => by simp [attempt] at failed
  depth := inner.depth

instance orderly_nested
    {step : Parse α}
    [inner : Onward levels step] :
    Orderly levels (nested step) where
  ahead := inner.ahead
  last := inner.last
  reports := inner.reports
  depth := fun _ _ => rfl

end Sequences

section Levels

variable {level : Level} {next : Unit → Parse β}

/-- Without levels the limit is met, whatever would follow. -/
theorem onward_descend_zero : Onward 0 (descend level >>= next) where
  ahead := by
    intro start full
    rw [bind_apply_of_none (descend_of_le (by omega))]
    exact List.suffix_rfl
  last := by
    intro start full
    rw [bind_apply_of_none (descend_of_le (by omega))]
    rfl
  reports := by
    intro start full _
    rw [bind_apply_of_none (descend_of_le (by omega))]
    simp [Event.diagnostics, Event.diagnostic?]

/-- A level that is entered is one that what follows cannot use. -/
theorem onward_descend_succ
    {levels : Nat}
    [inner : Onward levels (next ())] :
    Onward (levels + 1) (descend level >>= next) where
  ahead := by
    intro start fits
    by_cases within : start.depth < nestingLimit
    · rw [bind_apply_of_some (descend_of_lt within)]
      exact inner.ahead _ (fits_inside fits)
    · rw [bind_apply_of_none (descend_of_le (Nat.le_of_not_lt within))]
      exact List.suffix_rfl
  last := by
    intro start fits
    by_cases within : start.depth < nestingLimit
    · rw [bind_apply_of_some (descend_of_lt within)]
      exact inner.last _ (fits_inside fits)
    · rw [bind_apply_of_none (descend_of_le (Nat.le_of_not_lt within))]
      rfl
  reports := by
    intro start fits failed
    by_cases within : start.depth < nestingLimit
    · rw [bind_apply_of_some (descend_of_lt within)] at failed ⊢
      have later := inner.reports _ (fits_inside fits) failed
      rw [Event.diagnostics_append]
      exact List.append_ne_nil_of_right_ne_nil _ later
    · rw [bind_apply_of_none (descend_of_le (Nat.le_of_not_lt within))]
      simp [Event.diagnostics, Event.diagnostic?]

end Levels

section Routines

variable {levels : Nat} {routines : Routines Cursor}

/-- The routines for what is nested are orderly within some levels. -/
class OrderlyRoutines
    (levels : Nat)
    (routines : Routines Cursor) :
    Prop where
  expression : ∀ bound, Orderly levels (routines.expression bound)
  block : Orderly levels routines.block

attribute [instance] OrderlyRoutines.expression OrderlyRoutines.block

instance orderly_current : Orderly levels current := by
  unfold current
  infer_instance

instance orderly_currentKind : Orderly levels currentKind := by
  unfold currentKind
  infer_instance

instance orderly_peekKind : Orderly levels peekKind := by
  unfold peekKind
  infer_instance

instance orderly_rounds : Orderly levels rounds := by
  unfold rounds
  infer_instance

instance orderly_expect
    {kind : TokenKind} :
    Orderly levels (expect kind) := by
  unfold expect
  infer_instance

instance orderly_skipSemicolon : Orderly levels skipSemicolon := by
  unfold skipSemicolon
  infer_instance

instance orderly_andSoOn
    {rounds : Nat}
    {step : Parse α}
    [inner : Orderly levels step] :
    Orderly levels (andSoOn rounds step) := by
  rw [andSoOn_eq]
  exact inner

instance orderly_integer : Orderly levels integer := by
  have read
      (token : Token) :
      Orderly levels
        (match Text.readInteger? token.value with
        | some value => pure (Expression.integer token value)
        | none => reject (.integerLiteral token.value) token.start) := by
    split
    · infer_instance
    · infer_instance
  unfold integer
  infer_instance

instance orderly_moreParameters
    {count : Nat} :
    Orderly levels (moreParameters count) := by
  induction count with
  | zero =>
      unfold moreParameters
      infer_instance
  | succ count inductionHypothesis =>
      unfold moreParameters
      infer_instance

instance orderly_parameters : Orderly levels parameters := by
  unfold parameters
  infer_instance

variable [OrderlyRoutines levels routines]

instance orderly_alternative : Orderly levels (alternative routines) := by
  unfold alternative
  infer_instance

instance orderly_moreArguments
    {count : Nat} :
    Orderly levels (moreArguments routines count) := by
  induction count with
  | zero =>
      unfold moreArguments
      infer_instance
  | succ count inductionHypothesis =>
      unfold moreArguments
      infer_instance

instance orderly_arguments : Orderly levels (arguments routines) := by
  unfold arguments
  infer_instance

-- The longest sequence of all needs a little more room for the search.
set_option synthInstance.maxSize 1024 in
instance orderly_conditional : Orderly levels (conditional routines) := by
  unfold conditional
  infer_instance

instance orderly_operandOf
    {form : OperandForm} :
    Orderly levels (operandOf routines form) := by
  cases form with
  | identifier =>
      unfold operandOf identifier
      infer_instance
  | integer =>
      unfold operandOf
      infer_instance
  | string =>
      unfold operandOf string
      infer_instance
  | boolean =>
      unfold operandOf boolean
      infer_instance
  | prefixed =>
      unfold operandOf prefixed
      infer_instance
  | grouping =>
      unfold operandOf grouping
      infer_instance
  | conditional =>
      unfold operandOf
      infer_instance
  | function =>
      unfold operandOf function
      infer_instance

instance orderly_operand : Orderly levels (operand routines) := by
  have read
      (token : Token) :
      Orderly levels
        (match token.kind.operandForm? with
        | some form => operandOf routines form
        | none => reject (.noExpression token.kind) token.start) := by
    split
    · infer_instance
    · infer_instance
  unfold operand
  infer_instance

instance orderly_operatorOf
    {left : Expression}
    {precedence : Precedence}
    {form : OperatorForm} :
    Orderly levels (operatorOf routines left precedence form) := by
  cases form with
  | binary =>
      unfold operatorOf binary
      infer_instance
  | call =>
      unfold operatorOf call
      infer_instance

instance orderly_statementOf
    {form? : Option StatementForm} :
    Orderly levels (statementOf routines form?) := by
  rcases form? with _ | _ | _
  · unfold statementOf expressionStatement
    infer_instance
  · unfold statementOf binding
    infer_instance
  · unfold statementOf returning
    infer_instance

instance orderly_statement : Orderly levels (statement routines) := by
  unfold statement
  infer_instance

instance orderly_statements
    {count : Nat} :
    Orderly levels (statements routines count) := by
  induction count with
  | zero =>
      unfold statements
      infer_instance
  | succ count inductionHypothesis =>
      unfold statements
      infer_instance

instance orderly_blockBody
    {strictBlocks : Bool} :
    Orderly levels (blockBody strictBlocks routines) := by
  unfold blockBody
  infer_instance

end Routines

section Nesting

variable {strictBlocks : Bool} {levels : Nat}

theorem onward_operatorOr
    {bound : Precedence}
    {left : Expression}
    {apply : OperatorForm → Precedence → Parse Expression}
    (applied :
      ∀ form precedence,
        Onward levels (descend .operator >>= fun _ => apply form precedence)) :
    Onward levels (operatorOr bound left apply) := by
  unfold operatorOr
  refine @onward_bind _ _ _ _ _ inferInstance fun next => ?_
  cases next.operatorForm? with
  | none =>
      infer_instance
  | some form =>
      exact @onward_ite _ _ _ _ _ _ (applied _ _) inferInstance

/-- Within their levels, all routines go on and answer for their failures. -/
theorem orderly_within :
    OrderlyRoutines levels (routinesWithin strictBlocks levels) ∧
      ∀ bound left,
        Onward levels (operatorsWithin strictBlocks levels bound left) := by
  induction levels with
  | zero =>
      have stops
          {α : Type}
          (level : Level) :
          Orderly 0 (nested (descend level >>= fun _ => (fail : Parse α))) :=
        @orderly_nested _ _ _ onward_descend_zero
      refine ⟨⟨fun bound => ?_, ?_⟩, fun bound left => ?_⟩
      · simpa only [routinesWithin, expressionWithin] using stops .operand
      · simpa only [routinesWithin, blockWithin] using stops .block
      · unfold operatorsWithin
        exact onward_operatorOr fun _ _ => onward_descend_zero
  | succ levels inductionHypothesis =>
      obtain ⟨routines, operators⟩ := inductionHypothesis
      have enters
          {α : Type}
          (level : Level)
          {step : Parse α}
          (inner : Onward levels step) :
          Orderly (levels + 1) (nested (descend level >>= fun _ => step)) :=
        @orderly_nested _ _ _ onward_descend_succ
      refine ⟨⟨fun bound => ?_, ?_⟩, fun bound left => ?_⟩
      · have first :
            Orderly levels (operand (routinesWithin strictBlocks levels)) :=
          inferInstance
        simp only [routinesWithin, expressionWithin]
        exact enters .operand (@onward_bind _ _ _ _ _ first (operators bound))
      · have body :
            Orderly levels
              (blockBody strictBlocks (routinesWithin strictBlocks levels)) :=
          inferInstance
        simp only [routinesWithin, blockWithin]
        exact enters .block body.toOnward
      · have applied
            (precedence : Precedence)
            (form : OperatorForm) :
            Orderly levels
              (operatorOf (routinesWithin strictBlocks levels)
                left precedence form) :=
          inferInstance
        unfold operatorsWithin
        apply onward_operatorOr
        intro form precedence
        refine @onward_descend_succ _ _ _ _ ?_
        refine @onward_bind _ _ _ _ _ orderly_advance fun _ => ?_
        exact @onward_bind _ _ _ _ _ (applied precedence form) (operators bound)

end Nesting

end Parse

end Scriptlet
