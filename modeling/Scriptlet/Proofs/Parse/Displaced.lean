import Scriptlet.Proofs.Parse.Outcome
import Scriptlet.Proofs.Token.Scanning
import Scriptlet.Syntax.Shape

namespace Scriptlet

/-!
# Parsing tokens that stand elsewhere

Two runs of the parser read tokens with the same kinds and texts but with other
spans.  No step looks at a span to decide anything, so the two runs do the same:
they end with trees of the same shape, at cursors that are displaced in the same
way, and record the same faults in the same order.  What is recorded about a
fault besides, its position, may differ.
-/

/-- The second token has the kind and the text of the first one. -/
def Token.Displaced (left right : Token) : Prop :=
  right.reading = left.reading

theorem Token.Displaced.kind
    {left right : Token}
    (displaced : left.Displaced right) :
    right.kind = left.kind :=
  congrArg Prod.fst displaced

theorem Token.Displaced.value
    {left right : Token}
    (displaced : left.Displaced right) :
    right.value = left.value :=
  congrArg Prod.snd displaced

/-- The second stream has the tokens of the first one, standing elsewhere. -/
structure TokenStream.Displaced
    (left right : TokenStream) :
    Prop where
  ahead : right.ahead.map Token.reading = left.ahead.map Token.reading
  last : left.last.Displaced right.last

namespace TokenStream.Displaced

variable {left right : TokenStream}

theorem length_ahead
    (displaced : left.Displaced right) :
    right.ahead.length = left.ahead.length := by
  simpa using congrArg List.length displaced.ahead

theorem current
    (displaced : left.Displaced right) :
    left.current.Displaced right.current := by
  have head (stream : TokenStream) :
      stream.current.reading =
        (stream.ahead.map Token.reading).headD stream.last.reading := by
    unfold TokenStream.current
    cases stream.ahead with
    | nil =>
        rfl
    | cons token rest =>
        rfl
  rw [Token.Displaced, head, head, displaced.ahead, displaced.last]

theorem advance
    (displaced : left.Displaced right) :
    left.advance.Displaced right.advance where
  ahead := by
    simp only [TokenStream.advance, List.map_tail, displaced.ahead]
  last := displaced.last

end TokenStream.Displaced

/-- The second cursor stands where the first one does, in a displaced stream. -/
structure Cursor.Displaced
    (left right : Cursor) :
    Prop where
  stream : left.stream.Displaced right.stream
  depth : right.depth = left.depth

namespace Cursor.Displaced

variable {left right : Cursor}

theorem current
    (displaced : left.Displaced right) :
    left.stream.current.Displaced right.stream.current :=
  displaced.stream.current

theorem advance
    (displaced : left.Displaced right) :
    left.advance.Displaced right.advance where
  stream := by
    constructor
    · simp only [Cursor.ahead_advance, List.map_tail, displaced.stream.ahead]
    · simpa only [Cursor.last_advance] using displaced.stream.last
  depth := by
    rw [Cursor.depth_advance, Cursor.depth_advance, displaced.depth]

theorem atDepth
    (displaced : left.Displaced right)
    (depth : Nat) :
    (left.atDepth depth).Displaced (right.atDepth depth) :=
  ⟨displaced.stream, rfl⟩

theorem peek
    (displaced : left.Displaced right) :
    left.stream.peek.Displaced right.stream.peek :=
  displaced.stream.advance.current

end Cursor.Displaced

/-- The faults that a trace records, in order. -/
def Event.faults (trace : List Event) : List Fault :=
  (diagnostics trace).map Diagnostic.fault

@[simp]
theorem Event.faults_append
    (first second : List Event) :
    faults (first ++ second) = faults first ++ faults second := by
  simp [faults]

namespace Parse

/--
The outcomes of two runs are alike: both are without a result or their results
are related, the cursors are displaced, and the same faults are recorded.
-/
structure Outcome.Alike
    (related : α → α → Prop)
    (left right : Outcome Cursor α) :
    Prop where
  result : Option.Rel related left.result? right.result?
  cursor : left.cursor.Displaced right.cursor
  faults : Event.faults right.events = Event.faults left.events

/-- From displaced cursors on, the two steps have outcomes that are alike. -/
def Alike (related : α → α → Prop) (step other : Parse α) : Prop :=
  ∀ ⦃left right : Cursor⦄,
    left.Displaced right → (step left).Alike related (other right)

section Steps

variable {related : α → α → Prop} {step other : Parse α}

theorem alike_pure
    {value otherValue : α}
    (holds : related value otherValue) :
    Alike related (pure value) (pure otherValue) :=
  fun _ _ displaced => ⟨.some holds, displaced, rfl⟩

theorem alike_fail : Alike related (fail : Parse α) fail :=
  fun _ _ displaced => ⟨.none, displaced, rfl⟩

/-- Where a fault is recorded makes no difference. -/
theorem alike_reject
    {fault : Fault}
    {position otherPosition : Position} :
    Alike related (reject fault position) (reject fault otherPosition) :=
  fun _ _ displaced => ⟨.none, displaced, rfl⟩

/-- Sequences are alike when their parts are. -/
theorem alike_bind
    {goal : β → β → Prop}
    {next otherNext : α → Parse β}
    (first : Alike related step other)
    (second :
      ∀ value otherValue,
        related value otherValue →
          Alike goal (next value) (otherNext otherValue)) :
    Alike goal (step >>= next) (other >>= otherNext) := by
  intro left right displaced
  have alike := first displaced
  rcases ran : step left with ⟨result?, after, events⟩
  rcases otherRan : other right with ⟨otherResult?, otherAfter, otherEvents⟩
  rw [ran, otherRan] at alike
  obtain ⟨result, displacedAfter, faults⟩ := alike
  cases result with
  | none =>
      rw [bind_apply_of_none ran, bind_apply_of_none otherRan]
      exact ⟨.none, displacedAfter, faults⟩
  | some holds =>
      have alikeAfter := second _ _ holds displacedAfter
      rw [bind_apply_of_some ran, bind_apply_of_some otherRan]
      refine ⟨alikeAfter.result, alikeAfter.cursor, ?_⟩
      rw [Event.faults_append, Event.faults_append, faults, alikeAfter.faults]

theorem alike_map
    {goal : β → β → Prop}
    {change otherChange : α → β}
    (alike : Alike related step other)
    (changed :
      ∀ value otherValue,
        related value otherValue →
          goal (change value) (otherChange otherValue)) :
    Alike goal (change <$> step) (otherChange <$> other) := by
  have mapped (change : α → β) (step : Parse α) :
      change <$> step = step >>= pure ∘ change :=
    mapResult_eq_andThen change step
  rw [mapped, mapped]
  exact alike_bind alike fun _ _ holds => alike_pure (changed _ _ holds)

theorem alike_ite
    {condition : Prop}
    [Decidable condition]
    {step' other' : Parse α}
    (holds : Alike related step other)
    (fails : Alike related step' other') :
    Alike related
      (if condition then step else step')
      (if condition then other else other') := by
  split
  · exact holds
  · exact fails

theorem alike_cursor : Alike Cursor.Displaced cursor cursor :=
  fun _ _ displaced => ⟨.some displaced, displaced, rfl⟩

theorem alike_current :
    Alike Token.Displaced current current :=
  alike_bind alike_cursor fun _ _ displaced => alike_pure displaced.current

theorem alike_currentKind : Alike Eq currentKind currentKind :=
  alike_bind alike_current fun _ _ same =>
    alike_pure same.kind.symm

theorem alike_peekKind : Alike Eq peekKind peekKind :=
  alike_bind alike_cursor fun _ _ displaced =>
    alike_pure displaced.peek.kind.symm

theorem alike_rounds : Alike Eq rounds rounds :=
  alike_bind alike_cursor fun _ _ displaced =>
    alike_pure displaced.stream.length_ahead.symm

theorem alike_advance :
    Alike Token.Displaced advance advance :=
  fun _ _ displaced => ⟨.some displaced.current, displaced.advance, rfl⟩

theorem alike_emit
    {event otherEvent : Event}
    (same : Event.faults [otherEvent] = Event.faults [event]) :
    Alike Eq (emit event) (emit otherEvent) :=
  fun _ _ displaced => ⟨.some rfl, displaced, same⟩

theorem alike_setDepth (depth : Nat) :
    Alike Eq (setDepth depth) (setDepth depth) :=
  fun _ _ displaced => ⟨.some rfl, displaced.atDepth depth, rfl⟩

theorem alike_expect (kind : TokenKind) :
    Alike Token.Displaced (expect kind) (expect kind) := by
  refine alike_bind alike_cursor ?_
  intro start otherStart displaced
  simp only [Cursor.place_peek, displaced.peek.kind]
  refine alike_ite ?_ alike_reject
  exact alike_bind alike_advance fun _ _ _ => alike_current

theorem alike_skipSemicolon : Alike Eq skipSemicolon skipSemicolon := by
  refine alike_bind alike_peekKind ?_
  rintro kind _ rfl
  refine alike_ite ?_ (alike_pure rfl)
  exact alike_bind alike_advance fun _ _ _ => alike_pure rfl

/-- A failure that is not passed on is the missing of a result. -/
theorem alike_attempt
    (alike : Alike related step other) :
    Alike (Option.Rel related) (attempt step) (attempt other) := by
  intro left right displaced
  have ends := alike displaced
  exact ⟨.some ends.result, ends.cursor, ends.faults⟩

theorem alike_nested
    (alike : Alike related step other) :
    Alike related (nested step) (nested other) := by
  intro left right displaced
  have ends := alike displaced
  exact ⟨ends.result, ⟨ends.cursor.stream, displaced.depth⟩, ends.faults⟩

theorem alike_closing
    (alike : Alike related step other) :
    Alike related (closing step) (closing other) := by
  intro left right displaced
  have ends := alike displaced
  refine ⟨ends.result, ends.cursor, ?_⟩
  simp only [closing, Event.faults_append, ends.faults]
  rfl

/-- Both runs enter a level or both meet the limit. -/
theorem alike_descend (level : Level) :
    Alike Eq (descend level) (descend level) := by
  refine alike_bind alike_cursor ?_
  intro start otherStart displaced
  simp only [Cursor.place_depth, displaced.depth]
  refine alike_bind (alike_setDepth _) ?_
  intro _ _ _
  refine alike_bind (alike_emit rfl) ?_
  intro _ _ _
  exact alike_ite alike_reject (alike_pure rfl)

end Steps

/-- The expressions have the same shape. -/
abbrev SameExpression (left right : Expression) : Prop :=
  left.sameShape right = true

/-- The statements have the same shape. -/
abbrev SameStatement (left right : Statement) : Prop :=
  left.sameShape right = true

/-- The blocks have the same shape. -/
abbrev SameBlock (left right : Block) : Prop :=
  left.sameShape right = true

/-- The routines for what is nested do alike in the two runs. -/
structure AlikeRoutines (routines others : Routines Cursor) : Prop where
  expression :
    ∀ bound,
      Alike SameExpression (routines.expression bound) (others.expression bound)
  block : Alike SameBlock routines.block others.block

section Routines

theorem sameShapes_cons
    {token otherToken : Token}
    {names otherNames : List Name}
    (displaced : token.Displaced otherToken)
    (same : Name.sameShapes names otherNames = true) :
    Name.sameShapes
      (Name.ofToken token :: names) (Name.ofToken otherToken :: otherNames) =
        true := by
  simp only [Name.sameShapes, beq_iff_eq] at same
  simp [Name.sameShapes, Name.ofToken, displaced.value, same]

theorem sameShapes_prepend
    {statement? otherStatement? : Option Statement}
    {rest otherRest : List Statement}
    (same : Option.Rel SameStatement statement? otherStatement?)
    (sameRest : Statement.sameShapes rest otherRest = true) :
    Statement.sameShapes
      (statement?.toList ++ rest) (otherStatement?.toList ++ otherRest) =
        true := by
  cases same with
  | none =>
      exact sameRest
  | some sameFirst =>
      simp [Statement.sameShapes, sameFirst, sameRest]

theorem alike_integer : Alike SameExpression integer integer := by
  refine alike_bind alike_current ?_
  intro token otherToken displaced
  rw [displaced.value]
  cases Text.readInteger? token.value with
  | none =>
      exact alike_reject
  | some value =>
      exact alike_pure (by simp [SameExpression, Expression.sameShape])

theorem alike_moreParameters (count : Nat) :
    Alike (fun left right => Name.sameShapes left right = true)
      (moreParameters count) (moreParameters count) := by
  induction count with
  | zero =>
      exact alike_pure rfl
  | succ count inductionHypothesis =>
      refine alike_bind alike_peekKind ?_
      rintro kind _ rfl
      refine alike_ite ?_ (alike_pure rfl)
      refine alike_bind alike_advance ?_
      intro _ _ _
      refine alike_bind (alike_expect _) ?_
      intro token otherToken displaced
      rw [andSoOn_eq]
      refine alike_map inductionHypothesis ?_
      intro names otherNames same
      exact sameShapes_cons displaced same

theorem alike_parameters :
    Alike (fun left right => Name.sameShapes left right = true)
      parameters parameters := by
  refine alike_bind alike_peekKind ?_
  rintro kind _ rfl
  refine alike_ite ?_ ?_
  · exact alike_bind alike_advance fun _ _ _ => alike_pure rfl
  · refine alike_bind (alike_expect _) ?_
    intro token otherToken displaced
    refine alike_bind alike_rounds ?_
    rintro count _ rfl
    refine alike_bind (alike_moreParameters count) ?_
    intro names otherNames same
    refine alike_bind (alike_expect _) ?_
    intro _ _ _
    exact alike_pure (sameShapes_cons displaced same)

variable
  {routines others : Routines Cursor}
  (alikeRoutines : AlikeRoutines routines others)

include alikeRoutines

theorem alike_prefixed :
    Alike SameExpression (prefixed routines) (prefixed others) := by
  refine alike_bind alike_advance ?_
  intro operator otherOperator displaced
  refine alike_bind (alikeRoutines.expression _) ?_
  intro right otherRight same
  exact alike_pure (by
    simp [SameExpression, Expression.sameShape, displaced.value, same])

theorem alike_grouping :
    Alike SameExpression (grouping routines) (grouping others) := by
  refine alike_bind alike_advance ?_
  intro _ _ _
  refine alike_bind (alikeRoutines.expression _) ?_
  intro inner otherInner same
  refine alike_bind (alike_expect _) ?_
  intro _ _ _
  exact alike_pure same

theorem alike_alternative :
    Alike (fun left right => Block.sameShape? left right = true)
      (alternative routines) (alternative others) := by
  refine alike_bind alike_peekKind ?_
  rintro kind _ rfl
  refine alike_ite ?_ (alike_pure (by simp [Block.sameShape?]))
  refine alike_bind alike_advance ?_
  intro _ _ _
  refine alike_bind (alike_expect _) ?_
  intro _ _ _
  refine alike_bind alikeRoutines.block ?_
  intro block otherBlock same
  exact alike_pure (by simpa [Block.sameShape?] using same)

theorem alike_conditional :
    Alike SameExpression (conditional routines) (conditional others) := by
  refine alike_bind alike_current ?_
  intro token otherToken _
  refine alike_bind (alike_expect _) ?_
  intro _ _ _
  refine alike_bind alike_advance ?_
  intro _ _ _
  refine alike_bind (alikeRoutines.expression _) ?_
  intro condition otherCondition sameCondition
  refine alike_bind (alike_expect _) ?_
  intro _ _ _
  refine alike_bind (alike_expect _) ?_
  intro _ _ _
  refine alike_bind alikeRoutines.block ?_
  intro consequence otherConsequence sameConsequence
  refine alike_bind (alike_alternative alikeRoutines) ?_
  intro alternative? otherAlternative? sameAlternative
  exact alike_pure (by
    simp [SameExpression, Expression.sameShape, sameCondition, sameConsequence,
      sameAlternative])

theorem alike_function :
    Alike SameExpression (function routines) (function others) := by
  refine alike_bind alike_current ?_
  intro token otherToken _
  refine alike_bind (alike_expect _) ?_
  intro _ _ _
  refine alike_bind alike_parameters ?_
  intro names otherNames sameNames
  refine alike_bind (alike_expect _) ?_
  intro _ _ _
  refine alike_bind alikeRoutines.block ?_
  intro body otherBody sameBody
  exact alike_pure (by
    simp [SameExpression, Expression.sameShape, sameNames, sameBody])

theorem alike_operandOf (form : OperandForm) :
    Alike SameExpression (operandOf routines form) (operandOf others form) := by
  have leaf
      {tree : Token → Expression}
      (same :
        ∀ token otherToken,
          token.Displaced otherToken →
            SameExpression (tree token) (tree otherToken)) :
      Alike SameExpression
        (current >>= fun token => pure (tree token))
        (current >>= fun token => pure (tree token)) :=
    alike_bind alike_current fun token otherToken displaced =>
      alike_pure (same token otherToken displaced)
  cases form with
  | identifier =>
      refine leaf fun token otherToken displaced => ?_
      simp [SameExpression, Expression.sameShape, Name.sameShape, Name.ofToken,
        displaced.value]
  | integer =>
      exact alike_integer
  | string =>
      refine leaf fun token otherToken displaced => ?_
      simp [SameExpression, Expression.sameShape, displaced.value]
  | boolean =>
      refine leaf fun token otherToken displaced => ?_
      simp [SameExpression, Expression.sameShape, displaced.kind]
  | prefixed =>
      exact alike_prefixed alikeRoutines
  | grouping =>
      exact alike_grouping alikeRoutines
  | conditional =>
      exact alike_conditional alikeRoutines
  | function =>
      exact alike_function alikeRoutines

theorem alike_operand :
    Alike SameExpression (operand routines) (operand others) := by
  refine alike_bind alike_current ?_
  intro token otherToken displaced
  rw [displaced.kind]
  cases token.kind.operandForm? with
  | none =>
      exact alike_reject
  | some form =>
      exact alike_operandOf alikeRoutines form

theorem alike_moreArguments (count : Nat) :
    Alike (fun left right => Expression.sameShapes left right = true)
      (moreArguments routines count) (moreArguments others count) := by
  induction count with
  | zero =>
      exact alike_pure (by simp [Expression.sameShapes])
  | succ count inductionHypothesis =>
      refine alike_bind alike_peekKind ?_
      rintro kind _ rfl
      refine alike_ite ?_ (alike_pure (by simp [Expression.sameShapes]))
      refine alike_bind alike_advance ?_
      intro _ _ _
      refine alike_bind alike_advance ?_
      intro _ _ _
      refine alike_bind (alikeRoutines.expression _) ?_
      intro argument otherArgument same
      rw [andSoOn_eq, andSoOn_eq]
      refine alike_map inductionHypothesis ?_
      intro rest otherRest sameRest
      simp [Expression.sameShapes, same, sameRest]

theorem alike_arguments :
    Alike (fun left right => Expression.sameShapes left right = true)
      (arguments routines) (arguments others) := by
  refine alike_bind alike_peekKind ?_
  rintro kind _ rfl
  refine alike_ite ?_ ?_
  · exact alike_bind alike_advance fun _ _ _ =>
      alike_pure (by simp [Expression.sameShapes])
  · refine alike_bind alike_advance ?_
    intro _ _ _
    refine alike_bind (alikeRoutines.expression _) ?_
    intro argument otherArgument same
    refine alike_bind alike_rounds ?_
    rintro count _ rfl
    refine alike_bind (alike_moreArguments alikeRoutines count) ?_
    intro rest otherRest sameRest
    refine alike_bind (alike_expect _) ?_
    intro _ _ _
    exact alike_pure (by simp [Expression.sameShapes, same, sameRest])

theorem alike_operatorOf
    {tree otherTree : Expression}
    {precedence : Precedence}
    (sameTree : SameExpression tree otherTree)
    (form : OperatorForm) :
    Alike SameExpression
      (operatorOf routines tree precedence form)
      (operatorOf others otherTree precedence form) := by
  cases form with
  | binary =>
      refine alike_bind alike_advance ?_
      intro operator otherOperator displaced
      refine alike_bind (alikeRoutines.expression _) ?_
      intro right otherRight same
      exact alike_pure (by
        simp [SameExpression, Expression.sameShape, sameTree, displaced.value,
          same])
  | call =>
      refine alike_bind alike_current ?_
      intro token otherToken _
      refine alike_bind (alike_arguments alikeRoutines) ?_
      intro values otherValues same
      exact alike_pure (by
        simp [SameExpression, Expression.sameShape, sameTree, same])

theorem alike_statementOf (form? : Option StatementForm) :
    Alike SameStatement
      (statementOf routines form?) (statementOf others form?) := by
  -- What every form of statement ends with.
  have ends
      {make otherMake : Expression → Statement}
      (made :
        ∀ value otherValue,
          SameExpression value otherValue →
            SameStatement (make value) (otherMake otherValue)) :
      Alike SameStatement
        (routines.expression .lowest >>= fun value =>
          skipSemicolon >>= fun _ => pure (make value))
        (others.expression .lowest >>= fun value =>
          skipSemicolon >>= fun _ => pure (otherMake value)) := by
    refine alike_bind (alikeRoutines.expression _) ?_
    intro value otherValue same
    refine alike_bind alike_skipSemicolon ?_
    intro _ _ _
    exact alike_pure (made _ _ same)
  rcases form? with _ | _ | _
  · refine alike_bind alike_current ?_
    intro token otherToken _
    refine ends fun value otherValue same => ?_
    simpa [SameStatement, Statement.sameShape] using same
  · refine alike_bind alike_current ?_
    intro token otherToken _
    refine alike_bind (alike_expect _) ?_
    intro name otherName displaced
    refine alike_bind (alike_expect _) ?_
    intro _ _ _
    refine alike_bind alike_advance ?_
    intro _ _ _
    refine ends fun value otherValue same => ?_
    simp [SameStatement, Statement.sameShape, Name.sameShape, Name.ofToken,
      displaced.value, same]
  · refine alike_bind alike_advance ?_
    intro token otherToken _
    refine ends fun value otherValue same => ?_
    simpa [SameStatement, Statement.sameShape] using same

theorem alike_statement :
    Alike SameStatement (statement routines) (statement others) := by
  apply alike_closing
  refine alike_bind alike_currentKind ?_
  rintro kind _ rfl
  have stated := alike_statementOf alikeRoutines kind.statementForm?
  refine alike_ite ?_ stated
  exact alike_bind (alike_emit rfl) fun _ _ _ => stated

theorem alike_statements (count : Nat) :
    Alike (fun left right => Statement.sameShapes left right = true)
      (statements routines count) (statements others count) := by
  induction count with
  | zero =>
      exact alike_pure (by simp [Statement.sameShapes])
  | succ count inductionHypothesis =>
      refine alike_bind alike_currentKind ?_
      rintro kind _ rfl
      refine alike_ite (alike_pure (by simp [Statement.sameShapes])) ?_
      refine alike_bind (alike_attempt (alike_statement alikeRoutines)) ?_
      intro statement? otherStatement? same
      refine alike_bind alike_advance ?_
      intro _ _ _
      rw [andSoOn_eq, andSoOn_eq]
      refine alike_map inductionHypothesis ?_
      intro rest otherRest sameRest
      exact sameShapes_prepend same sameRest

theorem alike_blockBody (strictBlocks : Bool) :
    Alike SameBlock
      (blockBody strictBlocks routines) (blockBody strictBlocks others) := by
  refine alike_bind alike_advance ?_
  intro token otherToken _
  refine alike_bind alike_rounds ?_
  rintro count _ rfl
  refine alike_bind (alike_statements alikeRoutines count) ?_
  intro inner otherInner same
  refine alike_bind alike_current ?_
  intro final otherFinal displaced
  rw [displaced.kind]
  refine alike_ite alike_reject (alike_pure ?_)
  simpa [SameBlock, Block.sameShape] using same

end Routines

theorem alike_operatorOr
    {bound : Precedence}
    {tree otherTree : Expression}
    {apply otherApply : OperatorForm → Precedence → Parse Expression}
    (same : SameExpression tree otherTree)
    (applied :
      ∀ form precedence,
        Alike SameExpression
          (apply form precedence) (otherApply form precedence)) :
    Alike SameExpression
      (operatorOr bound tree apply) (operatorOr bound otherTree otherApply) := by
  refine alike_bind alike_peekKind ?_
  rintro kind _ rfl
  cases kind.operatorForm? with
  | none =>
      exact alike_pure same
  | some form =>
      refine alike_ite ?_ (alike_pure same)
      exact alike_bind (alike_descend _) fun _ _ _ => applied form _

/-- Within any number of levels, all routines do alike. -/
theorem alike_within (strictBlocks : Bool) (levels : Nat) :
    AlikeRoutines
        (routinesWithin strictBlocks levels)
        (routinesWithin strictBlocks levels) ∧
      ∀ {bound tree otherTree},
        SameExpression tree otherTree →
          Alike SameExpression
            (operatorsWithin strictBlocks levels bound tree)
            (operatorsWithin strictBlocks levels bound otherTree) := by
  induction levels with
  | zero =>
      refine ⟨⟨fun bound => ?_, ?_⟩, fun same => ?_⟩
      · simp only [routinesWithin, expressionWithin]
        exact alike_nested
          (alike_bind (alike_descend _) fun _ _ _ => alike_fail)
      · simp only [routinesWithin, blockWithin]
        exact alike_nested
          (alike_bind (alike_descend _) fun _ _ _ => alike_fail)
      · unfold operatorsWithin
        exact alike_operatorOr same fun _ _ => alike_fail
  | succ levels inductionHypothesis =>
      obtain ⟨alikeRoutines, operators⟩ := inductionHypothesis
      refine ⟨⟨fun bound => ?_, ?_⟩, fun same => ?_⟩
      · simp only [routinesWithin, expressionWithin]
        refine alike_nested (alike_bind (alike_descend _) fun _ _ _ => ?_)
        refine alike_bind (alike_operand alikeRoutines) ?_
        intro tree otherTree same
        exact operators same
      · simp only [routinesWithin, blockWithin]
        refine alike_nested (alike_bind (alike_descend _) fun _ _ _ => ?_)
        exact alike_blockBody alikeRoutines strictBlocks
      · unfold operatorsWithin
        refine alike_operatorOr same ?_
        intro form precedence
        refine alike_bind alike_advance fun _ _ _ => ?_
        refine alike_bind (alike_operatorOf alikeRoutines same form) ?_
        intro applied otherApplied sameApplied
        exact operators sameApplied

/-- Displaced cursors have the same levels open, so the same ones to go. -/
theorem alike_withRoutines
    {related : α → α → Prop}
    {strictBlocks : Bool}
    {routine : Routines Cursor → Parse α}
    (alike :
      ∀ {routines others},
        AlikeRoutines routines others →
          Alike related (routine routines) (routine others)) :
    Alike related
      (withRoutines strictBlocks routine) (withRoutines strictBlocks routine) := by
  intro left right displaced
  simp only [withRoutines, Cursor.place_depth, displaced.depth]
  exact alike (alike_within strictBlocks _).1 displaced

theorem alike_programStatements (strictBlocks : Bool) (count : Nat) :
    Alike (fun left right => Statement.sameShapes left right = true)
      (programStatements strictBlocks count)
      (programStatements strictBlocks count) := by
  induction count with
  | zero =>
      exact alike_pure (by simp [Statement.sameShapes])
  | succ count inductionHypothesis =>
      refine alike_bind alike_current ?_
      intro token otherToken displaced
      rw [displaced.kind]
      refine alike_ite (alike_pure (by simp [Statement.sameShapes])) ?_
      refine alike_bind (alike_emit rfl) fun _ _ _ => ?_
      refine alike_bind (alike_setDepth 0) fun _ _ _ => ?_
      refine alike_bind (alike_attempt (alike_withRoutines alike_statement)) ?_
      intro statement? otherStatement? same
      refine alike_bind alike_advance fun _ _ _ => ?_
      rw [andSoOn_eq]
      refine alike_map inductionHypothesis ?_
      intro rest otherRest sameRest
      exact sameShapes_prepend same sameRest

theorem alike_finishing
    {step other : Parse (List Statement)}
    (alike :
      Alike (fun left right => Statement.sameShapes left right = true)
        step other) :
    Alike (fun left right => left.sameShape right = true)
      (finishing step) (finishing other) := by
  intro left right displaced
  obtain ⟨result, cursor, faults⟩ := alike displaced
  refine ⟨?_, cursor, ?_⟩
  · simp only [finishing]
    generalize (step left).result? = statements? at result
    generalize (other right).result? = otherStatements? at result
    cases result with
    | none =>
        exact .none
    | some same =>
        exact .some same
  · simp only [finishing, Event.faults_append, faults]
    rfl

theorem alike_program (strictBlocks : Bool) :
    Alike (fun left right => left.sameShape right = true)
      (program strictBlocks) (program strictBlocks) := by
  apply alike_finishing
  refine alike_bind alike_rounds ?_
  rintro count _ rfl
  exact alike_programStatements strictBlocks count

end Parse

namespace Parsed

theorem messages_eq (parsed : Parsed) :
    parsed.messages = (Event.faults parsed.trace).map Fault.message := by
  simp [messages, diagnostics, Event.faults, Diagnostic.message]

/-- Where its tokens stand makes no difference to what a program is read as. -/
theorem alike_ofStream
    {left right : TokenStream}
    (strictBlocks : Bool)
    (displaced : left.Displaced right) :
    (ofStream strictBlocks left).program.sameShape
          (ofStream strictBlocks right).program =
        true ∧
      (ofStream strictBlocks right).messages =
        (ofStream strictBlocks left).messages := by
  have starts :
      (Cursor.ofStream left).Displaced (Cursor.ofStream right) :=
    ⟨displaced, rfl⟩
  obtain ⟨result, -, faults⟩ := Parse.alike_program strictBlocks starts
  constructor
  · simp only [ofStream, ofPlace]
    generalize
      (Parse.program strictBlocks (Cursor.ofStream left)).result? = program?
      at result
    generalize
      (Parse.program strictBlocks (Cursor.ofStream right)).result? =
        otherProgram?
      at result
    cases result with
    | none =>
        simp [Program.sameShape, Statement.sameShapes]
    | some same =>
        exact same
  · rw [messages_eq, messages_eq]
    exact congrArg (List.map Fault.message) faults

end Parsed

end Scriptlet
