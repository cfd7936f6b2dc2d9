import Scriptlet.Proofs.Parse.Calls

namespace Scriptlet

/-!
# Statements kept and dropped

Every statement of a tree was read by a call that kept it, so the statements of a
program, those in blocks included, are at most as many as the calls that kept
theirs.  Each of the other calls has one diagnostic.  As every call starts on a
token of its own, statements and diagnostics together are at most as many as the
tokens.
-/

mutual

/-- The number of statements in the blocks of an expression. -/
def Expression.statementCount : Expression → Nat
  | .identifier _ =>
      0
  | .integer _ _ =>
      0
  | .string _ _ =>
      0
  | .boolean _ _ =>
      0
  | .prefixed _ _ right =>
      right.statementCount
  | .binary _ left _ right =>
      left.statementCount + right.statementCount
  | .conditional _ condition consequence alternative? =>
      condition.statementCount + consequence.statementCount +
        Block.statementCount? alternative?
  | .function _ _ body =>
      body.statementCount
  | .call _ callee arguments =>
      callee.statementCount + Expression.statementCounts arguments

/-- The number of statements in the blocks of some expressions. -/
def Expression.statementCounts : List Expression → Nat
  | [] =>
      0
  | first :: rest =>
      first.statementCount + Expression.statementCounts rest

/-- The number of statements inside a statement, itself left out. -/
def Statement.innerCount : Statement → Nat
  | .binding _ _ value =>
      value.statementCount
  | .returning _ value =>
      value.statementCount
  | .expression _ inner =>
      inner.statementCount
  | .block inner =>
      inner.statementCount

/-- The number of some statements and of those inside them. -/
def Statement.statementCounts : List Statement → Nat
  | [] =>
      0
  | first :: rest =>
      1 + first.innerCount + Statement.statementCounts rest

/-- The number of statements in a block, those further inside included. -/
def Block.statementCount : Block → Nat
  | ⟨_, statements⟩ =>
      Statement.statementCounts statements

/-- The number of statements in a block that may be missing. -/
def Block.statementCount? : Option Block → Nat
  | none =>
      0
  | some inner =>
      inner.statementCount

end

/-- The number of statements of a program, at all levels. -/
def Program.statementCount (program : Program) : Nat :=
  Statement.statementCounts program.statements

/-- The number of statements that a trace tells were kept. -/
def Event.keptCount (trace : List Event) : Nat :=
  (closings trace).countP fun closing => closing.2

@[simp]
theorem Event.keptCount_append
    (first second : List Event) :
    keptCount (first ++ second) = keptCount first + keptCount second := by
  simp [keptCount]

namespace Parse

/--
Beyond the statements it was given, the value of a step has at most those that
were kept on the way.
-/
def Sized (given : Nat) (size : α → Nat) (step : Parse α) : Prop :=
  ∀ start value,
    (step start).result? = some value →
      size value ≤ given + Event.keptCount (step start).events

section Steps

variable {given : Nat} {size : α → Nat} {step : Parse α}

theorem sized_pure
    {value : α}
    (le : size value ≤ given) :
    Sized given size (pure value) := by
  intro start result ended
  cases ended
  exact Nat.le_add_right_of_le le

/-- A step that never ends with a value has no value to count. -/
theorem sized_of_never
    (never : ∀ start, (step start).result? = none) :
    Sized given size step := by
  intro start value ended
  rw [never start] at ended
  cases ended

theorem sized_reject
    {fault : Fault}
    {position : Position} :
    Sized given size (reject fault position) :=
  sized_of_never fun _ => rfl

/-- What was given besides is still there. -/
theorem Sized.beside
    (sized : Sized 0 size step)
    (others : Nat) :
    Sized others (fun value => others + size value) step := by
  intro start value ended
  have le : size value ≤ 0 + Event.keptCount (step start).events :=
    sized start value ended
  rw [Nat.zero_add] at le
  exact Nat.add_le_add_left le others

theorem sized_bind
    {between : α → Nat}
    {size : β → Nat}
    {next : α → Parse β}
    (first : Sized given between step)
    (second : ∀ value, Sized (between value) size (next value)) :
    Sized given size (step >>= next) := by
  intro start value ended
  rcases ran : step start with ⟨_ | middleValue, middle, events⟩
  · rw [bind_apply_of_none ran] at ended
    cases ended
  · rw [bind_apply_of_some ran] at ended ⊢
    have leFirst := first start middleValue
    rw [ran] at leFirst
    have leSecond := second middleValue middle value ended
    rw [Event.keptCount_append]
    exact Nat.le_trans leSecond (by
      rw [← Nat.add_assoc]
      exact Nat.add_le_add_right (leFirst rfl) _)

/-- A step whose value has no statements leaves what was given. -/
theorem sized_skip_bind
    {size : β → Nat}
    {next : α → Parse β}
    (second : ∀ value, Sized given size (next value)) :
    Sized given size (step >>= next) := by
  have first : Sized given (fun _ => given) step :=
    fun _ _ _ => Nat.le_add_right _ _
  exact sized_bind first second

theorem sized_map
    {size : β → Nat}
    {change : α → β}
    (inner : Sized given (fun value => size (change value)) step) :
    Sized given size (change <$> step) := by
  intro start result ended
  obtain ⟨value, endedInner, rfl⟩ := Option.map_eq_some_iff.mp ended
  exact inner start value endedInner

theorem sized_ite
    {condition : Prop}
    [Decidable condition]
    {first second : Parse α}
    (positive : Sized given size first)
    (negative : Sized given size second) :
    Sized given size (if condition then first else second) := by
  split
  · exact positive
  · exact negative

theorem sized_nested
    (inner : Sized given size step) :
    Sized given size (nested step) :=
  inner

/-- A call that keeps its statement counts it. -/
theorem sized_closing
    (inner : Sized 0 size step) :
    Sized 0 (fun value => 1 + size value) (closing step) := by
  intro start value ended
  have gave : (step start).result? = some value :=
    ended
  have le := inner start value gave
  have counted :
      Event.keptCount (closing step start).events =
        Event.keptCount (step start).events + 1 := by
    simp [closing, gave, Event.keptCount, Event.closings, Event.closing?]
  rw [counted]
  change 1 + size value ≤ 0 + (Event.keptCount (step start).events + 1)
  omega

theorem sized_attempt
    (inner : Sized 0 size step) :
    Sized 0 (fun result? => (result?.map size).getD 0) (attempt step) := by
  intro start result? ended
  cases ended
  cases gave : (step start).result? with
  | none =>
      exact Nat.zero_le _
  | some value =>
      exact inner start value gave

end Steps

section Forms

variable {routines : Routines Cursor}

/-- What is nested in a form has the statements that were kept on the way. -/
structure SizedRoutines (routines : Routines Cursor) : Prop where
  expression :
    ∀ bound, Sized 0 Expression.statementCount (routines.expression bound)
  block : Sized 0 Block.statementCount routines.block

variable (sized : SizedRoutines routines)

include sized

theorem sized_alternative :
    Sized 0 Block.statementCount? (alternative routines) := by
  refine sized_skip_bind fun _ => sized_ite ?_ ?_
  · refine sized_skip_bind fun _ => sized_skip_bind fun _ => ?_
    exact sized_bind sized.block fun _ => sized_pure (Nat.le_refl _)
  · exact sized_pure (Nat.le_refl _)

theorem sized_conditional :
    Sized 0 Expression.statementCount (conditional routines) := by
  refine sized_skip_bind fun token => sized_skip_bind fun _ =>
    sized_skip_bind fun _ => ?_
  refine sized_bind (sized.expression _) fun condition => ?_
  refine sized_skip_bind fun _ => sized_skip_bind fun _ => ?_
  refine sized_bind (sized.block.beside _) fun consequence => ?_
  refine sized_bind ((sized_alternative sized).beside _) fun alternative? => ?_
  exact sized_pure (Nat.le_refl _)

theorem sized_operandOf
    (form : OperandForm) :
    Sized 0 Expression.statementCount (operandOf routines form) := by
  cases form with
  | identifier =>
      exact sized_skip_bind fun _ => sized_pure (Nat.le_refl _)
  | integer =>
      refine sized_skip_bind fun token => ?_
      cases Text.readInteger? token.value with
      | none =>
          exact sized_reject
      | some value =>
          exact sized_pure (Nat.le_refl _)
  | string =>
      exact sized_skip_bind fun _ => sized_pure (Nat.le_refl _)
  | boolean =>
      exact sized_skip_bind fun _ => sized_pure (Nat.le_refl _)
  | prefixed =>
      refine sized_skip_bind fun _ => ?_
      exact sized_bind (sized.expression _) fun _ => sized_pure (Nat.le_refl _)
  | grouping =>
      refine sized_skip_bind fun _ => ?_
      refine sized_bind (sized.expression _) fun _ => ?_
      exact sized_skip_bind fun _ => sized_pure (Nat.le_refl _)
  | conditional =>
      exact sized_conditional sized
  | function =>
      refine sized_skip_bind fun _ => sized_skip_bind fun _ =>
        sized_skip_bind fun _ => sized_skip_bind fun _ => ?_
      exact sized_bind sized.block fun _ => sized_pure (Nat.le_refl _)

theorem sized_operand : Sized 0 Expression.statementCount (operand routines) := by
  refine sized_skip_bind fun token => ?_
  cases token.kind.operandForm? with
  | none =>
      exact sized_reject
  | some form =>
      exact sized_operandOf sized form

theorem sized_moreArguments
    (count : Nat) :
    Sized 0 Expression.statementCounts (moreArguments routines count) := by
  induction count with
  | zero =>
      exact sized_pure (Nat.le_refl _)
  | succ count inductionHypothesis =>
      refine sized_skip_bind fun _ => sized_ite ?_ (sized_pure (Nat.le_refl _))
      refine sized_skip_bind fun _ => sized_skip_bind fun _ => ?_
      refine sized_bind (sized.expression _) fun argument => ?_
      rw [andSoOn_eq]
      exact sized_map (inductionHypothesis.beside _)

theorem sized_arguments :
    Sized 0 Expression.statementCounts (arguments routines) := by
  refine sized_skip_bind fun _ => sized_ite ?_ ?_
  · exact sized_skip_bind fun _ => sized_pure (Nat.le_refl _)
  · refine sized_skip_bind fun _ => ?_
    refine sized_bind (sized.expression _) fun argument => ?_
    refine sized_skip_bind fun count => ?_
    refine sized_bind ((sized_moreArguments sized count).beside _) fun rest => ?_
    exact sized_skip_bind fun _ => sized_pure (Nat.le_refl _)

/-- The expression to the left was given, and is part of what is applied to it. -/
theorem sized_operatorOf
    (left : Expression)
    (precedence : Precedence)
    (form : OperatorForm) :
    Sized left.statementCount Expression.statementCount
      (operatorOf routines left precedence form) := by
  cases form with
  | binary =>
      refine sized_skip_bind fun operator => ?_
      exact sized_bind ((sized.expression _).beside _) fun right =>
        sized_pure (Nat.le_refl _)
  | call =>
      refine sized_skip_bind fun token => ?_
      exact sized_bind ((sized_arguments sized).beside _) fun values =>
        sized_pure (Nat.le_refl _)

theorem sized_statementOf
    (form? : Option StatementForm) :
    Sized 0 Statement.innerCount (statementOf routines form?) := by
  -- What every form of statement ends with.
  have ends
      (make : Expression → Statement)
      (inner : ∀ value, (make value).innerCount = value.statementCount) :
      Sized 0 Statement.innerCount
        (routines.expression .lowest >>= fun value =>
          skipSemicolon >>= fun _ => pure (make value)) := by
    refine sized_bind (sized.expression _) fun value => ?_
    refine sized_skip_bind fun _ => sized_pure ?_
    exact Nat.le_of_eq (inner value)
  rcases form? with _ | _ | _
  · exact sized_skip_bind fun token => ends (.expression token) fun _ => rfl
  · refine sized_skip_bind fun token => sized_skip_bind fun name =>
      sized_skip_bind fun _ => sized_skip_bind fun _ => ?_
    exact ends (.binding token (Name.ofToken name)) fun _ => rfl
  · exact sized_skip_bind fun token => ends (.returning token) fun _ => rfl

theorem sized_statement :
    Sized 0 (fun tree => 1 + Statement.innerCount tree) (statement routines) := by
  refine sized_closing (sized_skip_bind fun kind => sized_ite ?_ ?_)
  · exact sized_skip_bind fun _ => sized_statementOf sized _
  · exact sized_statementOf sized _

omit sized in
/-- A statement that may have been dropped, in front of others. -/
theorem sized_prepend
    {step : Parse (List Statement)}
    (sizedOthers : Sized 0 Statement.statementCounts step)
    (statement? : Option Statement) :
    Sized ((statement?.map fun tree => 1 + tree.innerCount).getD 0)
      Statement.statementCounts ((statement?.toList ++ ·) <$> step) := by
  cases statement? with
  | none =>
      exact sized_map sizedOthers
  | some tree =>
      exact sized_map (sizedOthers.beside _)

theorem sized_statements
    (count : Nat) :
    Sized 0 Statement.statementCounts (statements routines count) := by
  induction count with
  | zero =>
      exact sized_pure (Nat.le_refl _)
  | succ count inductionHypothesis =>
      refine sized_skip_bind fun _ => sized_ite (sized_pure (Nat.le_refl _)) ?_
      refine sized_bind (sized_attempt (sized_statement sized)) fun statement? => ?_
      rw [andSoOn_eq]
      exact sized_skip_bind fun _ => sized_prepend inductionHypothesis statement?

theorem sized_blockBody
    (strictBlocks : Bool) :
    Sized 0 Block.statementCount (blockBody strictBlocks routines) := by
  refine sized_skip_bind fun token => sized_skip_bind fun count => ?_
  refine sized_bind (sized_statements sized count) fun inner => ?_
  refine sized_skip_bind fun final => sized_ite sized_reject ?_
  exact sized_pure (Nat.le_refl _)

end Forms

section Programs

variable (strictBlocks : Bool)

theorem sized_operatorOr
    {bound : Precedence}
    {left : Expression}
    {apply : OperatorForm → Precedence → Parse Expression}
    (applied :
      ∀ form precedence,
        Sized left.statementCount Expression.statementCount
          (apply form precedence)) :
    Sized left.statementCount Expression.statementCount
      (operatorOr bound left apply) := by
  refine sized_skip_bind fun next => ?_
  cases next.operatorForm? with
  | none =>
      exact sized_pure (Nat.le_refl _)
  | some form =>
      refine sized_ite ?_ (sized_pure (Nat.le_refl _))
      exact sized_skip_bind fun _ => applied _ _

theorem sized_within (levels : Nat) :
    SizedRoutines (routinesWithin strictBlocks levels) ∧
      ∀ bound left,
        Sized left.statementCount Expression.statementCount
          (operatorsWithin strictBlocks levels bound left) := by
  induction levels with
  | zero =>
      have never
          {α : Type}
          {given : Nat}
          {size : α → Nat} :
          Sized given size (fail : Parse α) :=
        sized_of_never fun _ => rfl
      refine ⟨⟨fun bound => ?_, ?_⟩, fun bound left => ?_⟩
      · exact sized_nested (sized_skip_bind fun _ => never)
      · exact sized_nested (sized_skip_bind fun _ => never)
      · exact sized_operatorOr fun _ _ => never
  | succ levels inductionHypothesis =>
      obtain ⟨routines, operators⟩ := inductionHypothesis
      refine ⟨⟨fun bound => ?_, ?_⟩, fun bound left => ?_⟩
      · refine sized_nested (sized_skip_bind fun _ => ?_)
        exact sized_bind (sized_operand routines) (operators bound)
      · exact sized_nested
          (sized_skip_bind fun _ => sized_blockBody routines strictBlocks)
      · refine sized_operatorOr fun form precedence => ?_
        refine sized_skip_bind fun _ => ?_
        exact sized_bind (sized_operatorOf routines left precedence form)
          (operators bound)

/-- The statements of a program were all kept on the way. -/
theorem sized_programStatements (count : Nat) :
    Sized 0 Statement.statementCounts (programStatements strictBlocks count) := by
  induction count with
  | zero =>
      exact sized_pure (Nat.le_refl _)
  | succ count inductionHypothesis =>
      refine sized_skip_bind fun _ => sized_ite (sized_pure (Nat.le_refl _)) ?_
      refine sized_skip_bind fun _ => sized_skip_bind fun _ => ?_
      have stated :
          Sized 0 (fun tree => 1 + Statement.innerCount tree)
            (withRoutines strictBlocks statement) :=
        fun start => sized_statement (sized_within strictBlocks _).1 start
      refine sized_bind (sized_attempt stated) fun statement? => ?_
      rw [andSoOn_eq]
      exact sized_skip_bind fun _ => sized_prepend inductionHypothesis statement?

end Programs

namespace Calls

variable {strictBlocks : Bool} {tokens : List Token} {calls : Calls}

/-- Every call is told of once. -/
theorem length_starts (calls : Calls) :
    calls.starts.length = calls.closings.length := by
  induction calls with
  | none =>
      rfl
  | call start ending inner rest innerHypothesis restHypothesis =>
      simp [starts, closings, innerHypothesis, restHypothesis]
      omega

/-- One diagnostic for each call that ends without a statement. -/
theorem Accounted.length_diagnostics
    (accounted : calls.Accounted strictBlocks tokens) :
    calls.diagnostics.length =
      calls.closings.countP fun closing => !closing.2 := by
  induction calls with
  | none =>
      rfl
  | call start ending inner rest innerHypothesis restHypothesis =>
      obtain ⟨-, -, -, ⟨own, recorded, length⟩, accountedInner,
        accountedRest⟩ := accounted
      rw [diagnostics, List.length_append, recorded, List.length_append, length,
        innerHypothesis accountedInner, restHypothesis accountedRest, closings,
        List.countP_append, List.countP_cons]
      cases ending.result?.isSome with
      | false =>
          simp
          omega
      | true =>
          simp

/-- Calls that start later and later fit between the first and the last place. -/
theorem Within.length_le
    {lower upper : Nat}
    (within : calls.Within lower upper)
    (ordered : calls.Ordered)
    (le : lower ≤ upper) :
    lower + calls.starts.length ≤ upper := by
  unfold Within Ordered at *
  generalize calls.starts = starts at within ordered
  induction starts generalizing lower with
  | nil =>
      exact le
  | cons first rest inductionHypothesis =>
      obtain ⟨before, orderedRest⟩ := List.pairwise_cons.mp ordered
      obtain ⟨above, below⟩ := within first List.mem_cons_self
      have restFits :=
        inductionHypothesis below
          (fun start member =>
            ⟨before start member, (within start (List.mem_cons_of_mem _ member)).2⟩)
          orderedRest
      rw [List.length_cons]
      omega

end Calls

end Parse

namespace Parsed

variable (strictBlocks : Bool) (tokens : List Token)

/-- The calls that reading a program makes, each from a token of its own. -/
theorem exists_calls :
    ∃ calls : Parse.Calls,
      Event.closings (ofTokens strictBlocks tokens).trace = calls.closings ∧
        (ofTokens strictBlocks tokens).diagnostics = calls.diagnostics ∧
        calls.Accounted strictBlocks (TokenStream.beforeEnd tokens) ∧
        calls.Ordered ∧
        calls.Within 0 (TokenStream.beforeEnd tokens).length ∧
        calls.outermost =
          Parse.statementStarts strictBlocks (TokenStream.beforeEnd tokens).length
            (Cursor.ofStream (TokenStream.ofTokens tokens)) := by
  let start := Cursor.ofStream (TokenStream.ofTokens tokens)
  have stands : start.StandsIn (TokenStream.beforeEnd tokens) :=
    ⟨rfl, Nat.zero_le _⟩
  obtain ⟨calls, account, within, outermost⟩ :=
    Parse.accounts_programStatements (TokenStream.beforeEnd tokens).length stands
  refine ⟨calls, ?_, ?_, account.accounted, account.ordered,
    within.mono (Nat.zero_le _) account.stands.passed_le, outermost⟩
  · simp only [ofTokens, ofStream, ofPlace, Parse.program_eq_finishing,
      Parse.finishing, Event.closings_append]
    rw [← account.closings]
    exact List.append_nil _
  · obtain ⟨trees, ends⟩ :=
      Parse.programStatements_ends strictBlocks
        (TokenStream.beforeEnd tokens).length start
    obtain ⟨own, recorded, length⟩ := account.diagnostics
    rw [ends] at length
    rw [diagnostics_ofTokens, recorded, List.length_eq_zero_iff.mp length,
      List.append_nil]

/-- Every statement of a program, at whatever level, was kept by a call. -/
theorem statementCount_le :
    (ofTokens strictBlocks tokens).program.statementCount ≤
      Event.keptCount (ofTokens strictBlocks tokens).trace := by
  obtain ⟨after, ends, -⟩ := gives_statements strictBlocks tokens
  have le := Parse.sized_programStatements strictBlocks _ _ _ ends
  have finished :
      Event.keptCount (ofTokens strictBlocks tokens).trace =
        Event.keptCount
          (Parse.programStatements strictBlocks
            (TokenStream.beforeEnd tokens).length
            (Cursor.ofStream (TokenStream.ofTokens tokens))).events := by
    simp only [ofTokens, ofStream, ofPlace, Parse.program_eq_finishing,
      Parse.finishing, Event.keptCount_append]
    rfl
  rw [finished, Program.statementCount]
  simpa using le

/--
Reading statements, at the top of a program and in its blocks, makes calls of
which the trace tells, each starting on a token of its own; at the top, one starts
wherever a statement of the program does.  A call that drops its statement records
one diagnostic beyond those of the calls nested in it, and a call that keeps its
statement records none; and nothing else is recorded.  So there are as many
diagnostics as statements dropped, and together with the statements kept in the
program they are at most as many as the tokens.
-/
theorem one_diagnostic_per_dropped_statement :
    ∃ calls : Parse.Calls,
      Event.closings (ofTokens strictBlocks tokens).trace = calls.closings ∧
        calls.outermost =
          Parse.statementStarts strictBlocks (TokenStream.beforeEnd tokens).length
            (Cursor.ofStream (TokenStream.ofTokens tokens)) ∧
        calls.Accounted strictBlocks (TokenStream.beforeEnd tokens) ∧
        calls.Ordered ∧
        (ofTokens strictBlocks tokens).diagnostics = calls.diagnostics ∧
        (ofTokens strictBlocks tokens).diagnostics.length =
          (calls.closings.countP fun closing => !closing.2) ∧
        ((ofTokens strictBlocks tokens).diagnostics = [] ↔
          ∀ closing ∈ calls.closings, closing.2 = true) ∧
        (ofTokens strictBlocks tokens).diagnostics.length +
            (ofTokens strictBlocks tokens).program.statementCount ≤
          (TokenStream.beforeEnd tokens).length := by
  obtain ⟨calls, told, recorded, accounted, ordered, within, outermost⟩ :=
    exists_calls strictBlocks tokens
  have dropped :
      (ofTokens strictBlocks tokens).diagnostics.length =
        calls.closings.countP fun closing => !closing.2 := by
    rw [recorded]
    exact accounted.length_diagnostics
  refine ⟨calls, told, outermost, accounted, ordered, recorded, dropped, ?_, ?_⟩
  · rw [← List.length_eq_zero_iff, dropped, List.countP_eq_zero]
    simp
  · have kept := statementCount_le strictBlocks tokens
    rw [Event.keptCount, told] at kept
    have fits := within.length_le ordered (Nat.zero_le _)
    have all :
        calls.closings.length =
          (calls.closings.countP fun closing => closing.2) +
            calls.closings.countP fun closing => !closing.2 := by
      simpa using
        List.length_eq_countP_add_countP fun closing : Nat × Bool => closing.2
    rw [calls.length_starts] at fits
    omega

end Parsed

end Scriptlet
