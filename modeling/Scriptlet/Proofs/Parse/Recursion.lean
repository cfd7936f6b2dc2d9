import Scriptlet.Proofs.Parse.Pointing

namespace Scriptlet

/-!
# Routines and what they call

Expressions, operators and blocks call each other through the forms of the
grammar, and four loops call themselves.  Here each routine has what it calls as a
parameter, so that one round of the recursion can be told from the next.

Between its calls, a routine of the grammar does no more than look around, move on
and record.  `Composed` says so, with one rule for each way of putting steps
together, and what holds of all calls is carried over to the routine by these
rules.
-/

namespace Cursor

/-- Move on by so many tokens. -/
def advanceBy : Nat → Cursor → Cursor
  | 0, cursor =>
      cursor
  | moves + 1, cursor =>
      cursor.advance.advanceBy moves

theorem advance_of_ended
    {cursor : Cursor}
    (ended : cursor.stream.ahead = []) :
    cursor.advance = cursor := by
  simp [advance, ended]

theorem advance_atDepth (cursor : Cursor) (depth : Nat) :
    (cursor.atDepth depth).advance = cursor.advance.atDepth depth := by
  by_cases ended : cursor.stream.ahead = []
  · simp [advance, atDepth, ended]
  · simp [advance, atDepth, ended]

@[simp]
theorem atDepth_self (cursor : Cursor) : cursor.atDepth cursor.depth = cursor :=
  rfl

@[simp]
theorem atDepth_atDepth (cursor : Cursor) (depth other : Nat) :
    (cursor.atDepth depth).atDepth other = cursor.atDepth other :=
  rfl

@[simp]
theorem passed_atDepth (cursor : Cursor) (depth : Nat) :
    (cursor.atDepth depth).passed = cursor.passed :=
  rfl

theorem advanceBy_atDepth (cursor : Cursor) (depth moves : Nat) :
    (cursor.atDepth depth).advanceBy moves =
      (cursor.advanceBy moves).atDepth depth := by
  induction moves generalizing cursor with
  | zero =>
      rfl
  | succ moves inductionHypothesis =>
      rw [advanceBy, advanceBy, advance_atDepth, inductionHypothesis]

theorem advanceBy_add (cursor : Cursor) (moves more : Nat) :
    cursor.advanceBy (moves + more) = (cursor.advanceBy moves).advanceBy more := by
  induction moves generalizing cursor with
  | zero =>
      rw [Nat.zero_add, advanceBy]
  | succ moves inductionHypothesis =>
      rw [Nat.succ_add, advanceBy, advanceBy, inductionHypothesis]

@[simp]
theorem depth_advanceBy (cursor : Cursor) (moves : Nat) :
    (cursor.advanceBy moves).depth = cursor.depth := by
  induction moves generalizing cursor with
  | zero =>
      rfl
  | succ moves inductionHypothesis =>
      rw [advanceBy, inductionHypothesis, depth_advance]

/-- Where moving on holds to a condition, moving on any number of times does. -/
theorem advanceBy_induction
    {condition : Cursor → Prop}
    (moving : ∀ cursor, condition cursor → condition cursor.advance)
    {cursor : Cursor}
    (holds : condition cursor)
    (moves : Nat) :
    condition (cursor.advanceBy moves) := by
  induction moves generalizing cursor with
  | zero =>
      exact holds
  | succ moves inductionHypothesis =>
      exact inductionHypothesis (moving cursor holds)

end Cursor

namespace Parse

/-- What routines call: each other, and the loops they run. -/
structure Callees where
  expression : Precedence → Parse Expression
  operators : Precedence → Expression → Parse Expression
  block : Parse Block
  moreParameters : Parse (List Name)
  moreArguments : Parse (List Expression)
  blockStatements : Parse (List Statement)
  programStatements : Parse (List Statement)

namespace Callees

section Forms

variable (callees : Callees)

/-- The routines for what is nested in a form. -/
def routines : Routines Cursor :=
  ⟨callees.expression, callees.block⟩

/-- Parameters, from the opening parenthesis to the closing one. -/
def parameters : Parse (List Name) := do
  if (← peekKind) = .closeParen then
    let _ ← advance
    return []
  else
    let token ← expect .identifier
    let rest ← callees.moreParameters
    let _ ← expect .closeParen
    return Name.ofToken token :: rest

/-- A function. -/
def function : Parse Expression := do
  let token ← current
  let _ ← expect .openParen
  let names ← callees.parameters
  let _ ← expect .openCurly
  let body ← callees.block
  return .function token names body

/-- The operand of a given form; only functions run a loop of their own. -/
def operandOf : OperandForm → Parse Expression
  | .function => callees.function
  | form => Parse.operandOf callees.routines form

/-- An expression up to its first operator. -/
def operand : Parse Expression := do
  let token ← current
  match token.kind.operandForm? with
  | some form =>
      callees.operandOf form
  | none =>
      reject (.noExpression token.kind) token.start

/-- Arguments, from the opening parenthesis to the closing one. -/
def arguments : Parse (List Expression) := do
  if (← peekKind) = .closeParen then
    let _ ← advance
    return []
  else
    let _ ← advance
    let argument ← callees.expression .lowest
    let rest ← callees.moreArguments
    let _ ← expect .closeParen
    return argument :: rest

/-- A call, whose callee is given. -/
def call (callee : Expression) : Parse Expression := do
  let token ← current
  let values ← callees.arguments
  return .call token callee values

/-- An operator of a given form, applied to the expression to its left. -/
def operatorOf
    (left : Expression)
    (precedence : Precedence) :
    OperatorForm → Parse Expression
  | .binary => binary callees.routines left precedence
  | .call => callees.call left

/-- A statement, through its semicolon if it has one. -/
def statement : Parse Statement :=
  Parse.statement callees.routines

/-- The inside of a block, from its opening bracket to its closing one. -/
def blockBody (strictBlocks : Bool) : Parse Block := do
  let token ← advance
  let inner ← callees.blockStatements
  let final ← current
  if strictBlocks = true ∧ final.kind = .endOfInput then
    reject (.expectedToken .closeCurly .endOfInput) final.start
  else
    return ⟨token, inner⟩

/-- A program, up to the end of input. -/
def program : Parse Program :=
  finishing callees.programStatements

/-- One more parameter after a comma, and those that follow. -/
def parameterRound : Parse (List Name) := do
  if (← peekKind) = .comma then
    let _ ← advance
    let token ← expect .identifier
    (Name.ofToken token :: ·) <$> callees.moreParameters
  else
    return []

/-- One more argument after a comma, and those that follow. -/
def argumentRound : Parse (List Expression) := do
  if (← peekKind) = .comma then
    let _ ← advance
    let _ ← advance
    let argument ← callees.expression .lowest
    (argument :: ·) <$> callees.moreArguments
  else
    return []

/-- One more statement of a block, and those that follow. -/
def statementRound : Parse (List Statement) := do
  let kind ← currentKind
  if kind = .closeCurly ∨ kind = .endOfInput then
    return []
  else
    let statement? ← attempt callees.statement
    let _ ← advance
    (statement?.toList ++ ·) <$> callees.blockStatements

/-- One more statement of a program, and those that follow. -/
def programRound : Parse (List Statement) := do
  let token ← current
  if token.kind = .endOfInput then
    return []
  else
    emit (.started token)
    setDepth 0
    let statement? ← attempt callees.statement
    let _ ← advance
    (statement?.toList ++ ·) <$> callees.programStatements

/-- One round of the recursion: what each routine does with what it calls. -/
def round (strictBlocks : Bool) : Callees where
  expression bound :=
    nested do
      descend .operand
      let left ← callees.operand
      callees.operators bound left
  operators bound left :=
    operatorOr bound left fun form precedence => do
      let _ ← advance
      let applied ← callees.operatorOf left precedence form
      callees.operators bound applied
  block :=
    nested do
      descend .block
      callees.blockBody strictBlocks
  moreParameters := callees.parameterRound
  moreArguments := callees.argumentRound
  blockStatements := callees.statementRound
  programStatements := callees.programRound

/-- Callees that nest as the given ones do, but run no loops. -/
def loopless : Callees :=
  { callees with
    moreParameters := pure []
    moreArguments := pure []
    blockStatements := pure [] }

end Forms

/-- The recursion carried through some rounds, with anything at all below. -/
def unrolled (strictBlocks : Bool) (below : Callees) : Nat → Callees
  | 0 => below
  | rounds + 1 => (unrolled strictBlocks below rounds).round strictBlocks

/-- What the parser calls where so many levels are still open to it. -/
def within (strictBlocks : Bool) (levels : Nat) : Callees where
  expression := expressionWithin strictBlocks levels
  operators := operatorsWithin strictBlocks levels
  block := blockWithin strictBlocks levels
  moreParameters := do Parse.moreParameters (← rounds)
  moreArguments := do
    Parse.moreArguments (routinesWithin strictBlocks levels) (← rounds)
  blockStatements := do
    statements (routinesWithin strictBlocks levels) (← rounds)
  programStatements := do
    Parse.programStatements strictBlocks (← rounds)

section Within

variable (strictBlocks : Bool) (levels : Nat)

theorem operandOf_within (form : OperandForm) :
    (within strictBlocks levels).operandOf form =
      Parse.operandOf (routinesWithin strictBlocks levels) form := by
  cases form <;> rfl

theorem operand_within :
    (within strictBlocks levels).operand =
      Parse.operand (routinesWithin strictBlocks levels) := by
  have same :
      (within strictBlocks levels).operandOf =
        Parse.operandOf (routinesWithin strictBlocks levels) :=
    funext (operandOf_within strictBlocks levels)
  exact congrArg
    (fun operandOf => do
      let token ← current
      match token.kind.operandForm? with
      | some form => operandOf form
      | none => reject (.noExpression token.kind) token.start)
    same

theorem operatorOf_within
    (left : Expression)
    (precedence : Precedence)
    (form : OperatorForm) :
    (within strictBlocks levels).operatorOf left precedence form =
      Parse.operatorOf (routinesWithin strictBlocks levels) left precedence
        form := by
  cases form <;> rfl

theorem expressionWithin_succ (bound : Precedence) :
    expressionWithin strictBlocks (levels + 1) bound =
      ((within strictBlocks levels).round strictBlocks).expression bound := by
  simp only [round, operand_within]
  simp only [within, expressionWithin, routinesWithin]

theorem operatorsWithin_succ (bound : Precedence) (left : Expression) :
    operatorsWithin strictBlocks (levels + 1) bound left =
      ((within strictBlocks levels).round strictBlocks).operators bound left := by
  simp only [round, operatorOf_within]
  simp only [within, operatorsWithin, routinesWithin]

theorem blockWithin_succ :
    blockWithin strictBlocks (levels + 1) =
      ((within strictBlocks levels).round strictBlocks).block := by
  rw [blockWithin]
  rfl

end Within

end Callees

/--
The routine is composed of calls and of steps that look around, move on or record,
whatever it calls.
-/
inductive Composed : {α : Type} → (Callees → Parse α) → Prop where
  | done
      {α : Type}
      {value : α} :
      Composed fun _ => pure value
  | cursor : Composed fun _ => Parse.cursor
  | advance : Composed fun _ => Parse.advance
  | recognise
      {kind : TokenKind} :
      Composed fun _ => emit (.recognised kind)
  | reject
      {α : Type}
      {fault : Fault}
      {position : Position}
      (shallow : ∀ limit, fault ≠ .nestingTooDeep limit) :
      Composed fun _ => (Parse.reject fault position : Parse α)
  | bind
      {α β : Type}
      {step : Callees → Parse α}
      {next : Callees → α → Parse β}
      (first : Composed step)
      (second : ∀ value, Composed fun callees => next callees value) :
      Composed fun callees => step callees >>= next callees
  | map
      {α β : Type}
      {change : α → β}
      {step : Callees → Parse α}
      (inner : Composed step) :
      Composed fun callees => change <$> step callees
  | attempt
      {α : Type}
      {step : Callees → Parse α}
      (inner : Composed step) :
      Composed fun callees => Parse.attempt (step callees)
  | closing
      {α : Type}
      {step : Callees → Parse α}
      (inner : Composed step) :
      Composed fun callees => Parse.closing (step callees)
  | expression
      {bound : Precedence} :
      Composed fun callees => callees.expression bound
  | block : Composed fun callees => callees.block
  | moreParameters : Composed fun callees => callees.moreParameters
  | moreArguments : Composed fun callees => callees.moreArguments
  | blockStatements : Composed fun callees => callees.blockStatements

namespace Composed

theorem ite
    {α : Type}
    {condition : Prop}
    [Decidable condition]
    {first second : Callees → Parse α}
    (positive : Composed first)
    (negative : Composed second) :
    Composed fun callees =>
      if condition then first callees else second callees := by
  split
  · exact positive
  · exact negative

theorem current : Composed fun _ => Parse.current :=
  .bind .cursor fun _ => .done

theorem currentKind : Composed fun _ => Parse.currentKind :=
  .bind .current fun _ => .done

theorem peekKind : Composed fun _ => Parse.peekKind :=
  .bind .cursor fun _ => .done

theorem expect
    {kind : TokenKind} :
    Composed fun _ => Parse.expect kind := by
  refine .bind .cursor fun _ => .ite ?_ ?_
  · exact .bind .advance fun _ => .current
  · exact .reject (by simp)

theorem skipSemicolon : Composed fun _ => Parse.skipSemicolon :=
  .bind .peekKind fun _ => .ite (.bind .advance fun _ => .done) .done

theorem integer : Composed fun _ => Parse.integer := by
  refine .bind .current fun token => ?_
  split
  · exact .done
  · exact .reject (by simp)

theorem prefixed : Composed fun callees => Parse.prefixed callees.routines :=
  .bind .advance fun _ => .bind .expression fun _ => .done

theorem grouping : Composed fun callees => Parse.grouping callees.routines :=
  .bind .advance fun _ => .bind .expression fun _ => .bind .expect fun _ => .done

theorem alternative :
    Composed fun callees => Parse.alternative callees.routines := by
  refine .bind .peekKind fun _ => .ite ?_ .done
  exact .bind .advance fun _ => .bind .expect fun _ => .bind .block fun _ => .done

theorem conditional :
    Composed fun callees => Parse.conditional callees.routines := by
  refine .bind .current fun _ => .bind .expect fun _ => .bind .advance fun _ => ?_
  refine .bind .expression fun _ => .bind .expect fun _ => .bind .expect fun _ => ?_
  exact .bind .block fun _ => .bind .alternative fun _ => .done

theorem parameters : Composed Callees.parameters := by
  refine .bind .peekKind fun _ => .ite (.bind .advance fun _ => .done) ?_
  exact .bind .expect fun _ => .bind .moreParameters fun _ =>
    .bind .expect fun _ => .done

theorem function : Composed Callees.function :=
  .bind .current fun _ => .bind .expect fun _ => .bind .parameters fun _ =>
    .bind .expect fun _ => .bind .block fun _ => .done

theorem operandOf (form : OperandForm) :
    Composed fun callees => callees.operandOf form := by
  cases form with
  | identifier =>
      exact .bind .current fun _ => .done
  | integer =>
      exact .integer
  | string =>
      exact .bind .current fun _ => .done
  | boolean =>
      exact .bind .current fun _ => .done
  | prefixed =>
      exact .prefixed
  | grouping =>
      exact .grouping
  | conditional =>
      exact .conditional
  | function =>
      exact .function

theorem operand : Composed Callees.operand := by
  refine .bind .current fun token => ?_
  split
  · exact .operandOf _
  · exact .reject (by simp)

theorem arguments : Composed Callees.arguments := by
  refine .bind .peekKind fun _ => .ite (.bind .advance fun _ => .done) ?_
  exact .bind .advance fun _ => .bind .expression fun _ =>
    .bind .moreArguments fun _ => .bind .expect fun _ => .done

theorem operatorOf
    (left : Expression)
    (precedence : Precedence)
    (form : OperatorForm) :
    Composed fun callees => callees.operatorOf left precedence form := by
  cases form with
  | binary =>
      exact .bind .advance fun _ => .bind .expression fun _ => .done
  | call =>
      exact .bind .current fun _ => .bind .arguments fun _ => .done

theorem statementOf (form? : Option StatementForm) :
    Composed fun callees => Parse.statementOf callees.routines form? := by
  -- What every form of statement ends with.
  have ends
      (make : Expression → Statement) :
      Composed fun callees =>
        callees.expression .lowest >>= fun value =>
          Parse.skipSemicolon >>= fun _ => pure (make value) :=
    .bind .expression fun _ => .bind .skipSemicolon fun _ => .done
  rcases form? with _ | _ | _
  · exact .bind .current fun token => ends (.expression token)
  · refine .bind .current fun token => .bind .expect fun name => ?_
    exact .bind .expect fun _ => .bind .advance fun _ =>
      ends (.binding token (Name.ofToken name))
  · exact .bind .advance fun token => ends (.returning token)

theorem statement : Composed Callees.statement := by
  refine .closing (.bind .currentKind fun kind => .ite ?_ ?_)
  · exact .bind .recognise fun _ => .statementOf _
  · exact .statementOf _

theorem parameterRound : Composed Callees.parameterRound := by
  refine .bind .peekKind fun _ => .ite ?_ .done
  exact .bind .advance fun _ => .bind .expect fun _ => .map .moreParameters

theorem argumentRound : Composed Callees.argumentRound := by
  refine .bind .peekKind fun _ => .ite ?_ .done
  exact .bind .advance fun _ => .bind .advance fun _ => .bind .expression fun _ =>
    .map .moreArguments

theorem statementRound : Composed Callees.statementRound := by
  refine .bind .currentKind fun _ => .ite .done ?_
  exact .bind (.attempt .statement) fun _ => .bind .advance fun _ =>
    .map .blockStatements

/-- The inside of a block, once its bracket has been passed. -/
theorem blockRest (strictBlocks : Bool) (token : Token) :
    Composed fun callees =>
      callees.blockStatements >>= fun inner =>
        Parse.current >>= fun final =>
          if strictBlocks = true ∧ final.kind = .endOfInput then
            Parse.reject (.expectedToken .closeCurly .endOfInput) final.start
          else
            pure (⟨token, inner⟩ : Block) :=
  .bind .blockStatements fun _ => .bind .current fun _ =>
    .ite (.reject (by simp)) .done

theorem blockBody (strictBlocks : Bool) :
    Composed fun callees => callees.blockBody strictBlocks :=
  .bind .advance fun token => .blockRest strictBlocks token

end Composed

/-- The step ends where it starts or further on, with as many levels open. -/
def Steady (step : Parse α) : Prop :=
  ∀ start, ∃ moves, (step start).cursor = start.advanceBy moves

/-- The step ends where it starts or further on, whatever levels are open. -/
def GoesOn (step : Parse α) : Prop :=
  ∀ start, ∃ moves depth,
    (step start).cursor = (start.advanceBy moves).atDepth depth

section Steadiness

variable {α β : Type} {step : Parse α}

theorem Steady.goesOn (steady : Steady step) : GoesOn step := by
  intro start
  obtain ⟨moves, ends⟩ := steady start
  exact ⟨moves, start.depth, by rw [ends, ← Cursor.depth_advanceBy start moves]; rfl⟩

theorem GoesOn.nested (goesOn : GoesOn step) : Steady (nested step) := by
  intro start
  obtain ⟨moves, depth, ends⟩ := goesOn start
  refine ⟨moves, ?_⟩
  simp only [Parse.nested, ends, Cursor.place_depth]
  rw [← Cursor.depth_advanceBy start moves]
  rfl

/-- Steps that do not move are steady. -/
theorem steady_of_stays
    (stays : ∀ start, (step start).cursor = start) :
    Steady step :=
  fun start => ⟨0, stays start⟩

theorem steady_advance : Steady advance :=
  fun _ => ⟨1, rfl⟩

/-- Where moving on holds to a condition, so does what a steady step ends with. -/
theorem Steady.holds_after
    {condition : Cursor → Prop}
    {start : Cursor}
    (steady : Steady step)
    (moving : ∀ cursor, condition cursor → condition cursor.advance)
    (holds : condition start) :
    condition (step start).cursor := by
  obtain ⟨moves, ends⟩ := steady start
  rw [ends]
  exact Cursor.advanceBy_induction moving holds moves

theorem GoesOn.bind
    {next : α → Parse β}
    (first : GoesOn step)
    (second : ∀ value, GoesOn (next value)) :
    GoesOn (step >>= next) := by
  intro start
  obtain ⟨moves, depth, ends⟩ := first start
  rcases ran : step start with ⟨_ | value, middle, events⟩
  · rw [ran] at ends
    rw [bind_apply_of_none ran]
    exact ⟨moves, depth, ends⟩
  · rw [ran] at ends
    rw [bind_apply_of_some ran]
    obtain ⟨more, depthLater, endsLater⟩ := second value middle
    refine ⟨moves + more, depthLater, ?_⟩
    rw [endsLater, show middle = _ from ends, Cursor.advanceBy_atDepth,
      Cursor.atDepth_atDepth, Cursor.advanceBy_add]

theorem Steady.bind
    {next : α → Parse β}
    (first : Steady step)
    (second : ∀ value, Steady (next value)) :
    Steady (step >>= next) := by
  intro start
  obtain ⟨moves, ends⟩ := first start
  rcases ran : step start with ⟨_ | value, middle, events⟩
  · rw [ran] at ends
    rw [bind_apply_of_none ran]
    exact ⟨moves, ends⟩
  · rw [ran] at ends
    rw [bind_apply_of_some ran]
    obtain ⟨more, endsLater⟩ := second value middle
    refine ⟨moves + more, ?_⟩
    rw [Cursor.advanceBy_add, ← ends]
    exact endsLater

end Steadiness

/-- All that routines call is steady, but for operators and programs. -/
structure Callees.Steady (callees : Callees) : Prop where
  expression : ∀ bound, Parse.Steady (callees.expression bound)
  block : Parse.Steady callees.block
  moreParameters : Parse.Steady callees.moreParameters
  moreArguments : Parse.Steady callees.moreArguments
  blockStatements : Parse.Steady callees.blockStatements

theorem Callees.steady_loopless
    {callees : Callees}
    (expression : ∀ bound, Parse.Steady (callees.expression bound))
    (block : Parse.Steady callees.block) :
    callees.loopless.Steady := by
  have idle {α : Type} : Parse.Steady (pure [] : Parse (List α)) :=
    steady_of_stays fun _ => rfl
  exact ⟨expression, block, idle, idle, idle⟩

/-- A routine is steady if what it calls is. -/
theorem Composed.steady
    {α : Type}
    {routine : Callees → Parse α}
    (composed : Composed routine)
    {callees : Callees}
    (steady : callees.Steady) :
    Steady (routine callees) := by
  induction composed with
  | done =>
      exact steady_of_stays fun _ => rfl
  | cursor =>
      exact steady_of_stays fun _ => rfl
  | advance =>
      exact steady_advance
  | recognise =>
      exact steady_of_stays fun _ => rfl
  | reject shallow =>
      exact steady_of_stays fun _ => rfl
  | bind _ _ first second =>
      exact first.bind second
  | map _ inner =>
      exact inner
  | attempt _ inner =>
      exact inner
  | closing _ inner =>
      exact inner
  | expression =>
      exact steady.expression _
  | block =>
      exact steady.block
  | moreParameters =>
      exact steady.moreParameters
  | moreArguments =>
      exact steady.moreArguments
  | blockStatements =>
      exact steady.blockStatements

section Loops

variable (callees : Callees) (count : Nat)

theorem moreParameters_eq_round :
    Parse.moreParameters (count + 1) =
      ({ callees with moreParameters := Parse.moreParameters count } :
        Callees).parameterRound := by
  simp only [Parse.moreParameters, andSoOn_eq, Callees.parameterRound]

theorem moreArguments_eq_round :
    Parse.moreArguments callees.routines (count + 1) =
      ({ callees with
        moreArguments := Parse.moreArguments callees.routines count } :
        Callees).argumentRound := by
  simp only [Parse.moreArguments, andSoOn_eq, Callees.argumentRound]
  rfl

theorem statements_eq_round :
    statements callees.routines (count + 1) =
      ({ callees with
        blockStatements := statements callees.routines count } :
        Callees).statementRound := by
  simp only [statements, andSoOn_eq, Callees.statementRound]
  rfl

theorem programStatements_eq_round (strictBlocks : Bool) :
    (programStatements strictBlocks (count + 1) : Parse (List Statement)) =
      (do
        let token ← current
        if token.kind = .endOfInput then
          return []
        else
          emit (.started token)
          setDepth 0
          let statement? ← attempt (withRoutines strictBlocks statement)
          let _ ← advance
          (statement?.toList ++ ·) <$> programStatements strictBlocks count) := by
  simp only [programStatements, andSoOn_eq]

variable {callees}

theorem Callees.Steady.parameters
    (steady : callees.Steady) :
    Parse.Steady (Parse.moreParameters count) := by
  induction count with
  | zero =>
      exact steady_of_stays fun _ => rfl
  | succ count inductionHypothesis =>
      rw [moreParameters_eq_round callees]
      exact Composed.parameterRound.steady
        { steady with moreParameters := inductionHypothesis }

theorem Callees.Steady.arguments
    (steady : callees.Steady) :
    Parse.Steady (Parse.moreArguments callees.routines count) := by
  induction count with
  | zero =>
      exact steady_of_stays fun _ => rfl
  | succ count inductionHypothesis =>
      rw [moreArguments_eq_round]
      exact Composed.argumentRound.steady
        { steady with moreArguments := inductionHypothesis }

theorem Callees.Steady.statements
    (steady : callees.Steady) :
    Parse.Steady (Parse.statements callees.routines count) := by
  induction count with
  | zero =>
      exact steady_of_stays fun _ => rfl
  | succ count inductionHypothesis =>
      rw [statements_eq_round]
      exact Composed.statementRound.steady
        { steady with blockStatements := inductionHypothesis }

end Loops

section Within

variable {strictBlocks : Bool} {levels : Nat}

theorem goesOn_descend {level : Level} : GoesOn (descend level) := by
  intro start
  refine ⟨0, start.depth + 1, ?_⟩
  by_cases within : start.depth < nestingLimit
  · rw [descend_of_lt within]
    rfl
  · rw [descend_of_le (Nat.le_of_not_lt within)]
    rfl

theorem goesOn_operatorOr
    {bound : Precedence}
    {left : Expression}
    {apply : OperatorForm → Precedence → Parse Expression}
    (applied : ∀ form precedence, GoesOn (apply form precedence)) :
    GoesOn (operatorOr bound left apply) := by
  have stays : GoesOn (pure left : Parse Expression) :=
    (steady_of_stays fun _ => rfl).goesOn
  intro start
  cases operator : start.stream.peek.kind.operatorForm? with
  | none =>
      simp only [operatorOr, peekKind_bind_apply, operator]
      exact stays start
  | some form =>
      simp only [operatorOr, peekKind_bind_apply, operator]
      split
      · exact (goesOn_descend.bind fun _ => applied _ _) start
      · exact stays start

/-- The loops are steady where expressions and blocks are. -/
theorem steady_within_of
    (expression : ∀ bound, Steady (expressionWithin strictBlocks levels bound))
    (block : Steady (blockWithin strictBlocks levels)) :
    (Callees.within strictBlocks levels).Steady := by
  have steady : (Callees.within strictBlocks levels).loopless.Steady :=
    Callees.steady_loopless expression block
  have counts : Steady rounds :=
    steady_of_stays fun _ => rfl
  exact ⟨expression, block, counts.bind steady.parameters,
    counts.bind steady.arguments, counts.bind steady.statements⟩

/-- What the parser calls is steady, and operators go on. -/
theorem steady_within_levels (strictBlocks : Bool) (levels : Nat) :
    (Callees.within strictBlocks levels).Steady ∧
      ∀ bound left, GoesOn (operatorsWithin strictBlocks levels bound left) := by
  have fails {α : Type} : GoesOn (fail : Parse α) :=
    (steady_of_stays fun _ => rfl).goesOn
  induction levels with
  | zero =>
      refine ⟨steady_within_of (fun bound => ?_) ?_, fun bound left => ?_⟩
      · rw [expressionWithin]
        exact (goesOn_descend.bind fun _ => fails).nested
      · rw [blockWithin]
        exact (goesOn_descend.bind fun _ => fails).nested
      · rw [operatorsWithin]
        exact goesOn_operatorOr fun _ _ => fails
  | succ levels inductionHypothesis =>
      obtain ⟨steady, operators⟩ := inductionHypothesis
      refine ⟨steady_within_of (fun bound => ?_) ?_, fun bound left => ?_⟩
      · rw [Callees.expressionWithin_succ]
        have inner := (Composed.operand.steady steady).goesOn
        exact (goesOn_descend.bind fun _ => inner.bind (operators bound)).nested
      · rw [Callees.blockWithin_succ]
        have inner := ((Composed.blockBody strictBlocks).steady steady).goesOn
        exact (goesOn_descend.bind fun _ => inner).nested
      · rw [Callees.operatorsWithin_succ]
        refine goesOn_operatorOr fun form precedence => ?_
        refine steady_advance.goesOn.bind fun _ => ?_
        have inner :=
          ((Composed.operatorOf left precedence form).steady steady).goesOn
        exact inner.bind (operators bound)

theorem steady_within (strictBlocks : Bool) (levels : Nat) :
    (Callees.within strictBlocks levels).Steady :=
  (steady_within_levels strictBlocks levels).1

theorem goesOn_operatorsWithin
    (strictBlocks : Bool)
    (levels : Nat)
    (bound : Precedence)
    (left : Expression) :
    GoesOn (operatorsWithin strictBlocks levels bound left) :=
  (steady_within_levels strictBlocks levels).2 bound left

/-- A routine of the parser, started anywhere, ends there or further on. -/
theorem steady_withRoutines
    {α : Type}
    {routine : Routines Cursor → Parse α}
    {composite : Callees → Parse α}
    (composed : Composed composite)
    (same :
      ∀ levels,
        composite (.within strictBlocks levels) =
          routine (routinesWithin strictBlocks levels)) :
    Steady (withRoutines strictBlocks routine) := by
  intro start
  have steady := composed.steady
    (steady_within strictBlocks (nestingLimit - start.depth))
  rw [same] at steady
  exact steady start

theorem steady_statement (strictBlocks : Bool) :
    Steady (withRoutines strictBlocks statement) :=
  steady_withRoutines Composed.statement fun _ => rfl

end Within

end Parse

end Scriptlet
