import Scriptlet.Proofs.Canonical.Printed
import Scriptlet.Proofs.Token.Scanning
import Scriptlet.Syntax.Canonical
import Scriptlet.Syntax.Shape

namespace Scriptlet

/-!
# The wording of trees

Some readings word a tree when all tokens with these readings read, in the
grammar of canonical forms, as a tree alike: one of the same shape and with the
same canonical form.  The wording of a tree is put together from the wordings of
its parts, with parentheses around every operator.
-/

/-- Two trees have the same shape and the same canonical form. -/
def Phrase.Alike : (phrase : Phrase) → phrase.Tree → phrase.Tree → Prop
  | .expression _, left, right =>
      left.sameShape right = true ∧ left.canonical = right.canonical
  | .arguments, left, right =>
      Expression.sameShapes left right = true ∧
        Expression.canonicals left = Expression.canonicals right
  | .furtherArguments, left, right =>
      Expression.sameShapes left right = true ∧
        Expression.canonicals left = Expression.canonicals right
  | .alternative, left, right =>
      Block.sameShape? left right = true ∧
        left.map Block.canonical = right.map Block.canonical
  | .block, left, right =>
      left.sameShape right = true ∧ left.canonical = right.canonical
  | .statement, left, right =>
      left.sameShape right = true ∧ left.canonical = right.canonical
  | .statements, left, right =>
      Statement.sameShapes left right = true ∧
        Statement.canonicals left = Statement.canonicals right

/-- All tokens with these readings read as a tree alike. -/
def Words
    (phrase : Phrase)
    (words : List (TokenKind × String))
    (tree : phrase.Tree) :
    Prop :=
  ∀ tokens : List Token,
    tokens.map Token.reading = words →
      ∃ same, Prints phrase tokens same ∧ phrase.Alike same tree

section Separators

variable {left right : Statement} {leftRest rightRest : List Statement}

/-- A list of statements has as many canonical forms as statements. -/
theorem isEmpty_of_canonicals_eq
    (forms :
      Statement.canonicals leftRest = Statement.canonicals rightRest) :
    leftRest.isEmpty = rightRest.isEmpty := by
  cases leftRest with
  | nil =>
      cases rightRest with
      | nil =>
          rfl
      | cons first rest =>
          simp [Statement.canonicals] at forms
  | cons first rest =>
      cases rightRest with
      | nil =>
          simp [Statement.canonicals] at forms
      | cons otherFirst otherRest =>
          rfl

theorem separator_eq
    (shape : left.sameShape right = true)
    (empty : leftRest.isEmpty = rightRest.isEmpty) :
    left.separator leftRest = right.separator rightRest := by
  cases left <;> cases right <;> simp [Statement.sameShape] at shape <;>
    cases leftRest <;> cases rightRest <;> simp at empty <;> rfl

theorem canonicals_cons_eq
    (shape : left.sameShape right = true)
    (form : left.canonical = right.canonical)
    (forms :
      Statement.canonicals leftRest = Statement.canonicals rightRest) :
    Statement.canonicals (left :: leftRest) =
      Statement.canonicals (right :: rightRest) := by
  rw [Statement.canonicals, Statement.canonicals, form, forms,
    separator_eq shape (isEmpty_of_canonicals_eq forms)]

end Separators

theorem Token.kind_value_of_reading
    {token : Token}
    {kind : TokenKind}
    {text : String}
    (reads : token.reading = (kind, text)) :
    token.kind = kind ∧ token.value = text :=
  Prod.mk.inj reads

namespace Words

section Leaves

variable {token : Token} {value : String}

theorem identifier
    {name : Name} :
    Words (.expression .call) [(.identifier, name.value)]
      (Expression.identifier name) := by
  intro tokens mapped
  obtain ⟨token, rfl, reads⟩ := List.map_eq_singleton_iff.mp mapped
  obtain ⟨kind, text⟩ := token.kind_value_of_reading reads
  refine ⟨_, .identifier kind, ?_, ?_⟩
  · simp [Expression.sameShape, Name.sameShape, Name.ofToken, text]
  · simp [Expression.canonical, Name.ofToken, text]

theorem integer
    {value : Int64}
    (read : Text.readInteger? (toString value.toInt) = some value) :
    Words (.expression .call) [(.number, toString value.toInt)]
      (Expression.integer token value) := by
  intro tokens mapped
  obtain ⟨own, rfl, reads⟩ := List.map_eq_singleton_iff.mp mapped
  obtain ⟨kind, text⟩ := own.kind_value_of_reading reads
  rw [← text] at read
  refine ⟨_, .integer kind read, ?_, ?_⟩
  · simp [Expression.sameShape]
  · simp [Expression.canonical]

theorem string :
    Words (.expression .call) [(.string, value)]
      (Expression.string token value) := by
  intro tokens mapped
  obtain ⟨own, rfl, reads⟩ := List.map_eq_singleton_iff.mp mapped
  obtain ⟨kind, text⟩ := own.kind_value_of_reading reads
  refine ⟨_, .string kind, ?_, ?_⟩
  · simp [Expression.sameShape, text]
  · simp [Expression.canonical, text]

theorem boolean
    {value : Bool} :
    Words (.expression .call)
      [if value then (.trueWord, "true") else (.falseWord, "false")]
      (Expression.boolean token value) := by
  intro tokens mapped
  obtain ⟨own, rfl, reads⟩ := List.map_eq_singleton_iff.mp mapped
  have kind : own.kind = if value then .trueWord else .falseWord := by
    cases value with
    | false => exact (own.kind_value_of_reading reads).1
    | true => exact (own.kind_value_of_reading reads).1
  refine ⟨_, .boolean kind, ?_, ?_⟩
  · simp [Expression.sameShape]
  · simp [Expression.canonical]

end Leaves

section Operators

variable
  {token : Token}
  {operator : String}
  {words rightWords : List (TokenKind × String)}
  {left right : Expression}

theorem prefixed
    (kind : token.kind = .dash ∨ token.kind = .not)
    (rightWorded : Words (.expression .call) words right) :
    Words (.expression .call)
      ((.openParen, "(") ::
        ((token.kind, operator) :: words ++ [(.closeParen, ")")]))
      (Expression.prefixed token operator right) := by
  intro tokens mapped
  obtain ⟨opening, others, rfl, opens, mapped⟩ := List.map_eq_cons_iff.mp mapped
  obtain ⟨own, others, rfl, reads, mapped⟩ := List.map_eq_cons_iff.mp mapped
  obtain ⟨rightTokens, last, rfl, rightMapped, mapped⟩ :=
    List.map_eq_append_iff.mp mapped
  obtain ⟨closing, rfl, closes⟩ := List.map_eq_singleton_iff.mp mapped
  obtain ⟨ownKind, ownText⟩ := own.kind_value_of_reading reads
  obtain ⟨sameRight, rightPrinted, rightShape, rightForm⟩ :=
    rightWorded rightTokens rightMapped
  refine ⟨_, .prefixed (opening.kind_value_of_reading opens).1
    (ownKind ▸ kind) rightPrinted (closing.kind_value_of_reading closes).1,
    ?_, ?_⟩
  · simp [Expression.sameShape, ownText, rightShape]
  · simp [Expression.canonical, ownText, rightForm]

theorem binary
    {stratum : Stratum}
    (kind : token.kind ∈ stratum.operators)
    (leftWorded : Words (.expression .call) words left)
    (rightWorded : Words (.expression .call) rightWords right) :
    Words (.expression .call)
      ((.openParen, "(") ::
        (words ++ (token.kind, operator) :: rightWords ++
          [(.closeParen, ")")]))
      (Expression.binary token left operator right) := by
  intro tokens mapped
  rw [List.append_assoc, List.cons_append] at mapped
  obtain ⟨opening, others, rfl, opens, mapped⟩ := List.map_eq_cons_iff.mp mapped
  obtain ⟨leftTokens, others, rfl, leftMapped, mapped⟩ :=
    List.map_eq_append_iff.mp mapped
  obtain ⟨own, others, rfl, reads, mapped⟩ := List.map_eq_cons_iff.mp mapped
  obtain ⟨rightTokens, last, rfl, rightMapped, mapped⟩ :=
    List.map_eq_append_iff.mp mapped
  obtain ⟨closing, rfl, closes⟩ := List.map_eq_singleton_iff.mp mapped
  obtain ⟨ownKind, ownText⟩ := own.kind_value_of_reading reads
  obtain ⟨sameLeft, leftPrinted, leftShape, leftForm⟩ :=
    leftWorded leftTokens leftMapped
  obtain ⟨sameRight, rightPrinted, rightShape, rightForm⟩ :=
    rightWorded rightTokens rightMapped
  refine ⟨_, .binary (opening.kind_value_of_reading opens).1 leftPrinted
    (ownKind ▸ kind) rightPrinted (closing.kind_value_of_reading closes).1,
    ?_, ?_⟩
  · simp [Expression.sameShape, ownText, leftShape, rightShape]
  · simp [Expression.canonical, ownText, leftForm, rightForm]

theorem call
    {callee : Expression}
    {values : List Expression}
    (calleeWorded : Words (.expression .call) words callee)
    (valuesWorded : Words .arguments rightWords values) :
    Words (.expression .call)
      (words ++ (.openParen, "(") :: (rightWords ++ [(.closeParen, ")")]))
      (Expression.call token callee values) := by
  intro tokens mapped
  obtain ⟨calleeTokens, others, rfl, calleeMapped, mapped⟩ :=
    List.map_eq_append_iff.mp mapped
  obtain ⟨opening, others, rfl, opens, mapped⟩ := List.map_eq_cons_iff.mp mapped
  obtain ⟨valueTokens, last, rfl, valuesMapped, mapped⟩ :=
    List.map_eq_append_iff.mp mapped
  obtain ⟨closing, rfl, closes⟩ := List.map_eq_singleton_iff.mp mapped
  obtain ⟨sameCallee, calleePrinted, calleeShape, calleeForm⟩ :=
    calleeWorded calleeTokens calleeMapped
  obtain ⟨sameValues, valuesPrinted, valuesShape, valuesForm⟩ :=
    valuesWorded valueTokens valuesMapped
  refine ⟨_, .call calleePrinted (opening.kind_value_of_reading opens).1
    valuesPrinted (closing.kind_value_of_reading closes).1, ?_, ?_⟩
  · simp [Expression.sameShape, calleeShape, valuesShape]
  · simp [Expression.canonical, calleeForm, valuesForm]

theorem noArguments : Words .arguments [] [] := by
  intro tokens mapped
  obtain rfl := List.map_eq_nil_iff.mp mapped
  exact ⟨_, .noArguments, by simp [Expression.sameShapes], rfl⟩

theorem someArguments
    {first : Expression}
    {rest : List Expression}
    (firstWorded : Words (.expression .call) words first)
    (restWorded : Words .furtherArguments rightWords rest) :
    Words .arguments (words ++ rightWords) (first :: rest) := by
  intro tokens mapped
  obtain ⟨firstTokens, restTokens, rfl, firstMapped, restMapped⟩ :=
    List.map_eq_append_iff.mp mapped
  obtain ⟨sameFirst, firstPrinted, firstShape, firstForm⟩ :=
    firstWorded firstTokens firstMapped
  obtain ⟨sameRest, restPrinted, restShape, restForm⟩ :=
    restWorded restTokens restMapped
  refine ⟨_, .someArguments firstPrinted restPrinted,
    ?_, ?_⟩
  · simp [Expression.sameShapes, firstShape, restShape]
  · simp [Expression.canonicals, firstForm, restForm]

theorem lastArgument : Words .furtherArguments [] [] := by
  intro tokens mapped
  obtain rfl := List.map_eq_nil_iff.mp mapped
  exact ⟨_, .lastArgument, by simp [Expression.sameShapes], rfl⟩

theorem nextArgument
    {first : Expression}
    {rest : List Expression}
    (firstWorded : Words (.expression .call) words first)
    (restWorded : Words .furtherArguments rightWords rest) :
    Words .furtherArguments ((.comma, ",") :: (words ++ rightWords))
      (first :: rest) := by
  intro tokens mapped
  obtain ⟨comma, others, rfl, separates, mapped⟩ :=
    List.map_eq_cons_iff.mp mapped
  obtain ⟨firstTokens, restTokens, rfl, firstMapped, restMapped⟩ :=
    List.map_eq_append_iff.mp mapped
  obtain ⟨sameFirst, firstPrinted, firstShape, firstForm⟩ :=
    firstWorded firstTokens firstMapped
  obtain ⟨sameRest, restPrinted, restShape, restForm⟩ :=
    restWorded restTokens restMapped
  refine ⟨_, .nextArgument (comma.kind_value_of_reading separates).1
    firstPrinted restPrinted, ?_, ?_⟩
  · simp [Expression.sameShapes, firstShape, restShape]
  · simp [Expression.canonicals, firstForm, restForm]

end Operators

section Names

/-- The wording of parameters after the first one. -/
def furtherNames (names : List Name) : List (TokenKind × String) :=
  names.flatMap fun name => [(.comma, ","), (.identifier, name.value)]

/-- The wording of the parameters of a function. -/
def names : List Name → List (TokenKind × String)
  | [] =>
      []
  | first :: rest =>
      (.identifier, first.value) :: furtherNames rest

theorem reads_furtherNames
    {list : List Name}
    {tokens : List Token}
    (mapped : tokens.map Token.reading = furtherNames list) :
    ∃ same,
      ReadsFurtherNames tokens same ∧
        same.map Name.value = list.map Name.value := by
  induction list generalizing tokens with
  | nil =>
      obtain rfl := List.map_eq_nil_iff.mp mapped
      exact ⟨[], .done, rfl⟩
  | cons first rest inductionHypothesis =>
      rw [furtherNames, List.flatMap_cons, List.cons_append,
        List.cons_append, List.nil_append] at mapped
      obtain ⟨comma, others, rfl, separates, mapped⟩ :=
        List.map_eq_cons_iff.mp mapped
      obtain ⟨own, restTokens, rfl, reads, mapped⟩ :=
        List.map_eq_cons_iff.mp mapped
      obtain ⟨kind, text⟩ := own.kind_value_of_reading reads
      obtain ⟨same, reading, values⟩ := inductionHypothesis mapped
      refine ⟨_, .next (comma.kind_value_of_reading separates).1 kind reading,
        ?_⟩
      simp [Name.ofToken, text, values]

theorem reads_names
    {list : List Name}
    {tokens : List Token}
    (mapped : tokens.map Token.reading = names list) :
    ∃ same,
      ReadsNames tokens same ∧
        same.map Name.value = list.map Name.value := by
  cases list with
  | nil =>
      obtain rfl := List.map_eq_nil_iff.mp mapped
      exact ⟨[], .none, rfl⟩
  | cons first rest =>
      obtain ⟨own, restTokens, rfl, reads, mapped⟩ :=
        List.map_eq_cons_iff.mp mapped
      obtain ⟨kind, text⟩ := own.kind_value_of_reading reads
      obtain ⟨same, reading, values⟩ := reads_furtherNames mapped
      refine ⟨_, .some kind reading, ?_⟩
      simp [Name.ofToken, text, values]

end Names

section Blocks

variable
  {token : Token}
  {words bodyWords alternativeWords : List (TokenKind × String)}
  {body : Block}

theorem noAlternative : Words .alternative [] none := by
  intro tokens mapped
  obtain rfl := List.map_eq_nil_iff.mp mapped
  exact ⟨none, .noAlternative, by simp [Block.sameShape?], rfl⟩

theorem someAlternative
    (bodyWorded : Words .block words body) :
    Words .alternative ((.elseWord, "else") :: words) (some body) := by
  intro tokens mapped
  obtain ⟨own, bodyTokens, rfl, reads, mapped⟩ := List.map_eq_cons_iff.mp mapped
  obtain ⟨same, printed, shape, form⟩ := bodyWorded bodyTokens mapped
  refine ⟨some same,
    .someAlternative (own.kind_value_of_reading reads).1 printed, ?_, ?_⟩
  · simp [Block.sameShape?, shape]
  · simp [form]

theorem conditional
    {condition : Expression}
    {alternative? : Option Block}
    (conditionWorded : Words (.expression .call) words condition)
    (bodyWorded : Words .block bodyWords body)
    (alternativeWorded : Words .alternative alternativeWords alternative?) :
    Words (.expression .call)
      ((.ifWord, token.value) :: (.openParen, "(") ::
        (words ++ (.closeParen, ")") :: (bodyWords ++ alternativeWords)))
      (Expression.conditional token condition body alternative?) := by
  intro tokens mapped
  obtain ⟨own, others, rfl, reads, mapped⟩ := List.map_eq_cons_iff.mp mapped
  obtain ⟨opening, others, rfl, opens, mapped⟩ := List.map_eq_cons_iff.mp mapped
  obtain ⟨conditionTokens, others, rfl, conditionMapped, mapped⟩ :=
    List.map_eq_append_iff.mp mapped
  obtain ⟨closing, others, rfl, closes, mapped⟩ := List.map_eq_cons_iff.mp mapped
  obtain ⟨bodyTokens, alternativeTokens, rfl, bodyMapped, mapped⟩ :=
    List.map_eq_append_iff.mp mapped
  obtain ⟨ownKind, ownText⟩ := own.kind_value_of_reading reads
  obtain ⟨sameCondition, conditionPrinted, conditionShape, conditionForm⟩ :=
    conditionWorded conditionTokens conditionMapped
  obtain ⟨sameBody, bodyPrinted, bodyShape, bodyForm⟩ :=
    bodyWorded bodyTokens bodyMapped
  obtain ⟨sameAlternative?, alternativePrinted, alternativeShape,
    alternativeForm⟩ := alternativeWorded alternativeTokens mapped
  refine ⟨_, .conditional ownKind (opening.kind_value_of_reading opens).1
    conditionPrinted (closing.kind_value_of_reading closes).1 bodyPrinted
    alternativePrinted, ?_, ?_⟩
  · simp [Expression.sameShape, conditionShape, bodyShape, alternativeShape]
  · cases alternative? with
    | none =>
        rw [Option.map_none, Option.map_eq_none_iff] at alternativeForm
        rw [alternativeForm]
        simp [Expression.canonical, ownText, conditionForm, bodyForm]
    | some inner =>
        rw [Option.map_some, Option.map_eq_some_iff] at alternativeForm
        obtain ⟨sameInner, rfl, innerForm⟩ := alternativeForm
        simp [Expression.canonical, ownText, conditionForm, bodyForm, innerForm]

theorem function
    {parameters : List Name}
    (bodyWorded : Words .block bodyWords body) :
    Words (.expression .call)
      ((.fnWord, token.value) :: (.openParen, "(") ::
        (names parameters ++ (.closeParen, ")") :: bodyWords))
      (Expression.function token parameters body) := by
  intro tokens mapped
  obtain ⟨own, others, rfl, reads, mapped⟩ := List.map_eq_cons_iff.mp mapped
  obtain ⟨opening, others, rfl, opens, mapped⟩ := List.map_eq_cons_iff.mp mapped
  obtain ⟨nameTokens, others, rfl, namesMapped, mapped⟩ :=
    List.map_eq_append_iff.mp mapped
  obtain ⟨closing, bodyTokens, rfl, closes, bodyMapped⟩ :=
    List.map_eq_cons_iff.mp mapped
  obtain ⟨ownKind, ownText⟩ := own.kind_value_of_reading reads
  obtain ⟨sameNames, namesReading, values⟩ := reads_names namesMapped
  obtain ⟨sameBody, bodyPrinted, bodyShape, bodyForm⟩ :=
    bodyWorded bodyTokens bodyMapped
  refine ⟨_, .function ownKind (opening.kind_value_of_reading opens).1
    namesReading (closing.kind_value_of_reading closes).1 bodyPrinted, ?_, ?_⟩
  · simp [Expression.sameShape, Name.sameShapes, values, bodyShape]
  · simp [Expression.canonical, Name.canonicalList, ownText, values, bodyForm]

theorem block
    {statements : List Statement}
    (statementsWorded : Words .statements words statements) :
    Words .block
      ((.openCurly, "\x7b") :: (words ++ [(.closeCurly, "\x7d")]))
      ⟨token, statements⟩ := by
  intro tokens mapped
  obtain ⟨opening, others, rfl, opens, mapped⟩ := List.map_eq_cons_iff.mp mapped
  obtain ⟨inside, last, rfl, insideMapped, mapped⟩ :=
    List.map_eq_append_iff.mp mapped
  obtain ⟨closing, rfl, closes⟩ := List.map_eq_singleton_iff.mp mapped
  obtain ⟨same, printed, shape, form⟩ := statementsWorded inside insideMapped
  refine ⟨_, .block (opening.kind_value_of_reading opens).1 printed
    (closing.kind_value_of_reading closes).1, ?_, ?_⟩
  · simp [Block.sameShape, shape]
  · simp only [Block.canonical, form, isEmpty_of_canonicals_eq form]

end Blocks

section Statements

variable
  {token : Token}
  {words restWords : List (TokenKind × String)}
  {value : Expression}

theorem binding
    {name : Name}
    (valueWorded : Words (.expression .call) words value) :
    Words .statement
      ((.letWord, token.value) :: (.identifier, name.value) ::
        (.assignment, "=") :: words)
      (Statement.binding token name value) := by
  intro tokens mapped
  obtain ⟨own, others, rfl, reads, mapped⟩ := List.map_eq_cons_iff.mp mapped
  obtain ⟨named, others, rfl, names, mapped⟩ := List.map_eq_cons_iff.mp mapped
  obtain ⟨sign, valueTokens, rfl, assigns, mapped⟩ :=
    List.map_eq_cons_iff.mp mapped
  obtain ⟨ownKind, ownText⟩ := own.kind_value_of_reading reads
  obtain ⟨nameKind, nameText⟩ := named.kind_value_of_reading names
  obtain ⟨same, printed, shape, form⟩ := valueWorded valueTokens mapped
  refine ⟨_, .binding ownKind nameKind (sign.kind_value_of_reading assigns).1
    printed, ?_, ?_⟩
  · simp [Statement.sameShape, Name.sameShape, Name.ofToken, nameText, shape]
  · simp [Statement.canonical, Name.ofToken, ownText, nameText, form]

theorem returning
    (valueWorded : Words (.expression .call) words value) :
    Words .statement ((.returnWord, token.value) :: words)
      (Statement.returning token value) := by
  intro tokens mapped
  obtain ⟨own, valueTokens, rfl, reads, mapped⟩ := List.map_eq_cons_iff.mp mapped
  obtain ⟨ownKind, ownText⟩ := own.kind_value_of_reading reads
  obtain ⟨same, printed, shape, form⟩ := valueWorded valueTokens mapped
  refine ⟨_, .returning ownKind printed, ?_, ?_⟩
  · simp [Statement.sameShape, shape]
  · simp [Statement.canonical, ownText, form]

theorem expressionStatement
    (valueWorded : Words (.expression .call) words value) :
    Words .statement words (Statement.expression token value) := by
  intro tokens mapped
  obtain ⟨same, printed, shape, form⟩ := valueWorded tokens mapped
  obtain ⟨first, others, rfl, -⟩ := printed.reads.head_operandForm
  refine ⟨_, .expressionStatement printed, ?_, ?_⟩
  · simp [Statement.sameShape, shape]
  · simp [Statement.canonical, form]

theorem noStatements : Words .statements [] [] := by
  intro tokens mapped
  obtain rfl := List.map_eq_nil_iff.mp mapped
  exact ⟨[], .noStatements, by simp [Statement.sameShapes], rfl⟩

/-- A semicolon separates a statement from those that follow it. -/
theorem someStatements
    {first : Statement}
    {rest : List Statement}
    (firstWorded : Words .statement words first)
    (restWorded : Words .statements restWords rest) :
    Words .statements (words ++ (.semicolon, ";") :: restWords)
      (first :: rest) := by
  intro tokens mapped
  obtain ⟨firstTokens, others, rfl, firstMapped, mapped⟩ :=
    List.map_eq_append_iff.mp mapped
  obtain ⟨semicolon, restTokens, rfl, separates, restMapped⟩ :=
    List.map_eq_cons_iff.mp mapped
  obtain ⟨sameFirst, firstPrinted, firstShape, firstForm⟩ :=
    firstWorded firstTokens firstMapped
  obtain ⟨sameRest, restPrinted, restShape, restForm⟩ :=
    restWorded restTokens restMapped
  refine ⟨_, .someStatements firstPrinted
    (semicolon.kind_value_of_reading separates).1 restPrinted,
    ?_, canonicals_cons_eq firstShape firstForm restForm⟩
  simp [Statement.sameShapes, firstShape, restShape]

/-- The last statement needs no semicolon. -/
theorem lastStatement
    {first : Statement}
    (firstWorded : Words .statement words first) :
    Words .statements words [first] := by
  intro tokens mapped
  obtain ⟨same, printed, shape, form⟩ := firstWorded tokens mapped
  refine ⟨_, .lastStatement printed, ?_, canonicals_cons_eq shape form rfl⟩
  simp [Statement.sameShapes, shape]

end Statements

end Words

end Scriptlet
