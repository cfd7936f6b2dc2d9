import Scriptlet.Proofs.Canonical.Sourced
import Scriptlet.Syntax.Canonical
import Scriptlet.Syntax.Shape

namespace Scriptlet

/-!
# Trees without their layout

Of the tokens of a tree, a bare tree keeps only the words that canonical forms
print: those of bindings, returns, conditionals and functions.  Where the tokens
stood, and how literals and operators were written, is gone.  A tree is printed
like its bare tree and compared like it, and two trees of the same shape that
come from source text have one and the same bare tree.
-/

namespace Token

/-- A token of which nothing is kept. -/
def blank : Token :=
  ⟨.illegal, "", Span.null⟩

/-- A token of which only the text is kept. -/
def word (token : Token) : Token :=
  ⟨.illegal, token.value, Span.null⟩

end Token

/-- A name without its token. -/
def Name.bare (name : Name) : Name :=
  ⟨Token.blank, name.value⟩

mutual

/-- An expression without its layout. -/
def Expression.bare : Expression → Expression
  | .identifier name =>
      .identifier name.bare
  | .integer _ value =>
      .integer Token.blank value
  | .string _ value =>
      .string Token.blank value
  | .boolean _ value =>
      .boolean Token.blank value
  | .prefixed _ operator right =>
      .prefixed Token.blank operator right.bare
  | .binary _ left operator right =>
      .binary Token.blank left.bare operator right.bare
  | .conditional token condition consequence alternative? =>
      .conditional token.word condition.bare consequence.bare
        (Block.bare? alternative?)
  | .function token parameters body =>
      .function token.word (parameters.map Name.bare) body.bare
  | .call _ callee arguments =>
      .call Token.blank callee.bare (Expression.bareAll arguments)

/-- Expressions without their layout. -/
def Expression.bareAll : List Expression → List Expression
  | [] =>
      []
  | first :: rest =>
      first.bare :: Expression.bareAll rest

/-- A statement without its layout. -/
def Statement.bare : Statement → Statement
  | .binding token name value =>
      .binding token.word name.bare value.bare
  | .returning token value =>
      .returning token.word value.bare
  | .expression _ inner =>
      .expression Token.blank inner.bare
  | .block inner =>
      .block inner.bare

/-- Statements without their layout. -/
def Statement.bareAll : List Statement → List Statement
  | [] =>
      []
  | first :: rest =>
      first.bare :: Statement.bareAll rest

/-- A block without its layout. -/
def Block.bare : Block → Block
  | ⟨_, statements⟩ =>
      ⟨Token.blank, Statement.bareAll statements⟩

/-- A block that may be missing, without its layout. -/
def Block.bare? : Option Block → Option Block
  | none =>
      none
  | some inner =>
      some inner.bare

end

/-- A program without its layout. -/
def Program.bare (program : Program) : Program :=
  ⟨Statement.bareAll program.statements⟩

@[simp]
theorem Name.value_bare (name : Name) : name.bare.value = name.value :=
  rfl

@[simp]
theorem Name.sameShape_bare (left right : Name) :
    left.bare.sameShape right.bare = left.sameShape right :=
  rfl

@[simp]
theorem Name.map_value_bare (names : List Name) :
    (names.map Name.bare).map Name.value = names.map Name.value := by
  simp [List.map_map, Function.comp_def]

/-- Names that read the same are the same without their tokens. -/
theorem Name.map_bare_eq
    {left right : List Name}
    (same : Name.sameShapes left right = true) :
    left.map Name.bare = right.map Name.bare := by
  have bareOf
      (names : List Name) :
      names.map Name.bare = (names.map Name.value).map (Name.mk Token.blank) := by
    simp [List.map_map, Function.comp_def, Name.bare]
  rw [bareOf, bareOf, eq_of_beq same]

section Printing

mutual

/-- A tree is printed like its bare tree. -/
theorem Expression.canonical_bare :
    (tree : Expression) →
      tree.bare.canonical = tree.canonical
  | .identifier _ => by
      rw [Expression.bare, Expression.canonical, Expression.canonical]
      rfl
  | .integer _ _ => by
      rw [Expression.bare, Expression.canonical, Expression.canonical]
  | .string _ _ => by
      rw [Expression.bare, Expression.canonical, Expression.canonical]
  | .boolean _ _ => by
      rw [Expression.bare, Expression.canonical, Expression.canonical]
  | .prefixed _ _ right => by
      rw [Expression.bare, Expression.canonical, Expression.canonical,
        right.canonical_bare]
  | .binary _ left _ right => by
      rw [Expression.bare, Expression.canonical, Expression.canonical,
        left.canonical_bare, right.canonical_bare]
  | .conditional _ condition consequence none => by
      rw [Expression.bare, Block.bare?, Expression.canonical,
        Expression.canonical, condition.canonical_bare,
        consequence.canonical_bare]
      rfl
  | .conditional _ condition consequence (some alternative) => by
      rw [Expression.bare, Block.bare?, Expression.canonical,
        Expression.canonical, condition.canonical_bare,
        consequence.canonical_bare, alternative.canonical_bare]
      rfl
  | .function _ parameters body => by
      rw [Expression.bare, Expression.canonical, Expression.canonical,
        body.canonical_bare, Name.canonicalList, Name.map_value_bare]
      rfl
  | .call _ callee arguments => by
      rw [Expression.bare, Expression.canonical, Expression.canonical,
        callee.canonical_bare, Expression.canonicals_bareAll arguments]

theorem Expression.canonicals_bareAll :
    (trees : List Expression) →
      Expression.canonicals (Expression.bareAll trees) =
        Expression.canonicals trees
  | [] => by
      rw [Expression.bareAll]
  | first :: rest => by
      rw [Expression.bareAll, Expression.canonicals, Expression.canonicals,
        first.canonical_bare, Expression.canonicals_bareAll rest]

theorem Statement.canonical_bare :
    (tree : Statement) →
      tree.bare.canonical = tree.canonical
  | .binding _ _ value => by
      rw [Statement.bare, Statement.canonical, Statement.canonical,
        value.canonical_bare]
      rfl
  | .returning _ value => by
      rw [Statement.bare, Statement.canonical, Statement.canonical,
        value.canonical_bare]
      rfl
  | .expression _ inner => by
      rw [Statement.bare, Statement.canonical, Statement.canonical,
        inner.canonical_bare]
  | .block inner => by
      rw [Statement.bare, Statement.canonical, Statement.canonical,
        inner.canonical_bare]

theorem Statement.canonicals_bareAll :
    (trees : List Statement) →
      Statement.canonicals (Statement.bareAll trees) =
        Statement.canonicals trees
  | [] => by
      rw [Statement.bareAll]
  | first :: rest => by
      have separated :
          first.bare.separator (Statement.bareAll rest) =
            first.separator rest := by
        cases rest <;> cases first <;> rfl
      rw [Statement.bareAll, Statement.canonicals, Statement.canonicals,
        first.canonical_bare, Statement.canonicals_bareAll rest, separated]

theorem Block.canonical_bare :
    (tree : Block) →
      tree.bare.canonical = tree.canonical
  | ⟨_, []⟩ => by
      rfl
  | ⟨_, first :: rest⟩ => by
      rw [Block.bare, Block.canonical, Block.canonical,
        Statement.canonicals_bareAll (first :: rest)]
      rfl

end

end Printing

section Comparing

mutual

/-- Trees are compared like their bare trees. -/
theorem Expression.sameShape_bare :
    (left right : Expression) →
      left.bare.sameShape right.bare = left.sameShape right
  | .identifier _, right => by
      cases right <;> simp [Expression.bare, Expression.sameShape]
  | .integer _ _, right => by
      cases right <;> simp [Expression.bare, Expression.sameShape]
  | .string _ _, right => by
      cases right <;> simp [Expression.bare, Expression.sameShape]
  | .boolean _ _, right => by
      cases right <;> simp [Expression.bare, Expression.sameShape]
  | .prefixed _ _ leftRight, right => by
      cases right with
      | prefixed _ _ rightRight =>
          simp only [Expression.bare, Expression.sameShape,
            leftRight.sameShape_bare rightRight]
      | _ =>
          simp only [Expression.bare, Expression.sameShape]
  | .binary _ leftLeft _ leftRight, right => by
      cases right with
      | binary _ rightLeft _ rightRight =>
          simp only [Expression.bare, Expression.sameShape,
            leftLeft.sameShape_bare rightLeft,
            leftRight.sameShape_bare rightRight]
      | _ =>
          simp only [Expression.bare, Expression.sameShape]
  | .conditional _ leftCondition leftConsequence leftAlternative?, right => by
      cases right with
      | conditional _ rightCondition rightConsequence rightAlternative? =>
          simp only [Expression.bare, Expression.sameShape,
            leftCondition.sameShape_bare rightCondition,
            leftConsequence.sameShape_bare rightConsequence,
            Block.sameShape?_bare leftAlternative? rightAlternative?]
      | _ =>
          simp only [Expression.bare, Expression.sameShape]
  | .function _ _ leftBody, right => by
      cases right with
      | function _ _ rightBody =>
          simp only [Expression.bare, Expression.sameShape, Name.sameShapes,
            Name.map_value_bare, leftBody.sameShape_bare rightBody]
      | _ =>
          simp only [Expression.bare, Expression.sameShape]
  | .call _ leftCallee leftArguments, right => by
      cases right with
      | call _ rightCallee rightArguments =>
          simp only [Expression.bare, Expression.sameShape,
            leftCallee.sameShape_bare rightCallee,
            Expression.sameShapes_bare leftArguments rightArguments]
      | _ =>
          simp only [Expression.bare, Expression.sameShape]

theorem Expression.sameShapes_bare :
    (left right : List Expression) →
      Expression.sameShapes (Expression.bareAll left) (Expression.bareAll right) =
        Expression.sameShapes left right
  | [], right => by
      cases right <;> simp [Expression.bareAll, Expression.sameShapes]
  | leftFirst :: leftRest, right => by
      cases right with
      | nil =>
          simp only [Expression.bareAll, Expression.sameShapes]
      | cons rightFirst rightRest =>
          simp only [Expression.bareAll, Expression.sameShapes,
            leftFirst.sameShape_bare rightFirst,
            Expression.sameShapes_bare leftRest rightRest]

theorem Statement.sameShape_bare :
    (left right : Statement) →
      left.bare.sameShape right.bare = left.sameShape right
  | .binding _ _ leftValue, right => by
      cases right with
      | binding _ _ rightValue =>
          simp only [Statement.bare, Statement.sameShape, Name.sameShape_bare,
            leftValue.sameShape_bare rightValue]
      | _ =>
          simp only [Statement.bare, Statement.sameShape]
  | .returning _ leftValue, right => by
      cases right with
      | returning _ rightValue =>
          simp only [Statement.bare, Statement.sameShape,
            leftValue.sameShape_bare rightValue]
      | _ =>
          simp only [Statement.bare, Statement.sameShape]
  | .expression _ leftInner, right => by
      cases right with
      | expression _ rightInner =>
          simp only [Statement.bare, Statement.sameShape,
            leftInner.sameShape_bare rightInner]
      | _ =>
          simp only [Statement.bare, Statement.sameShape]
  | .block leftInner, right => by
      cases right with
      | block rightInner =>
          simp only [Statement.bare, Statement.sameShape,
            leftInner.sameShape_bare rightInner]
      | _ =>
          simp only [Statement.bare, Statement.sameShape]

theorem Statement.sameShapes_bare :
    (left right : List Statement) →
      Statement.sameShapes (Statement.bareAll left) (Statement.bareAll right) =
        Statement.sameShapes left right
  | [], right => by
      cases right <;> simp [Statement.bareAll, Statement.sameShapes]
  | leftFirst :: leftRest, right => by
      cases right with
      | nil =>
          simp only [Statement.bareAll, Statement.sameShapes]
      | cons rightFirst rightRest =>
          simp only [Statement.bareAll, Statement.sameShapes,
            leftFirst.sameShape_bare rightFirst,
            Statement.sameShapes_bare leftRest rightRest]

theorem Block.sameShape_bare :
    (left right : Block) →
      left.bare.sameShape right.bare = left.sameShape right
  | ⟨_, leftStatements⟩, ⟨_, rightStatements⟩ => by
      simp only [Block.bare, Block.sameShape,
        Statement.sameShapes_bare leftStatements rightStatements]

theorem Block.sameShape?_bare :
    (left right : Option Block) →
      Block.sameShape? (Block.bare? left) (Block.bare? right) =
        Block.sameShape? left right
  | none, right => by
      cases right <;> simp [Block.bare?, Block.sameShape?]
  | some leftInner, right => by
      cases right with
      | none =>
          simp only [Block.bare?, Block.sameShape?]
      | some rightInner =>
          simp only [Block.bare?, Block.sameShape?,
            leftInner.sameShape_bare rightInner]

end

end Comparing

section Sharing

/-- Tokens with the same text are the same word. -/
theorem Token.word_eq
    {left right : Token}
    {text : String}
    (leftText : left.value = text)
    (rightText : right.value = text) :
    left.word = right.word := by
  rw [Token.word, Token.word, leftText, rightText]

mutual

/-- Trees of one shape that come from source text have one bare tree. -/
theorem Expression.bare_eq :
    (left right : Expression) →
      left.Sourced → right.Sourced → left.sameShape right = true →
        left.bare = right.bare
  | .identifier leftName, right, _, _, same => by
      cases right with
      | identifier rightName =>
          simp only [Expression.sameShape, Name.sameShape, beq_iff_eq] at same
          simp only [Expression.bare, Name.bare, same]
      | _ =>
          simp [Expression.sameShape] at same
  | .integer _ _, right, _, _, same => by
      cases right with
      | integer _ _ =>
          simp only [Expression.sameShape, beq_iff_eq] at same
          simp only [Expression.bare, same]
      | _ =>
          simp [Expression.sameShape] at same
  | .string _ _, right, _, _, same => by
      cases right with
      | string _ _ =>
          simp only [Expression.sameShape, beq_iff_eq] at same
          simp only [Expression.bare, same]
      | _ =>
          simp [Expression.sameShape] at same
  | .boolean _ _, right, _, _, same => by
      cases right with
      | boolean _ _ =>
          simp only [Expression.sameShape, beq_iff_eq] at same
          simp only [Expression.bare, same]
      | _ =>
          simp [Expression.sameShape] at same
  | .prefixed _ _ leftRight, right, ⟨_, _, leftSourced⟩, rightSourced, same => by
      cases right with
      | prefixed _ _ rightRight =>
          simp only [Expression.sameShape, Bool.and_eq_true, beq_iff_eq] at same
          obtain ⟨-, -, rightSourced⟩ := rightSourced
          simp only [Expression.bare, same.1,
            leftRight.bare_eq rightRight leftSourced rightSourced same.2]
      | _ =>
          simp [Expression.sameShape] at same
  | .binary _ leftLeft _ leftRight, right,
      ⟨_, _, leftLeftSourced, leftRightSourced⟩, rightSourced, same => by
      cases right with
      | binary _ rightLeft _ rightRight =>
          simp only [Expression.sameShape, Bool.and_eq_true, beq_iff_eq] at same
          obtain ⟨⟨sameLeft, sameOperator⟩, sameRight⟩ := same
          obtain ⟨-, -, rightLeftSourced, rightRightSourced⟩ := rightSourced
          simp only [Expression.bare, sameOperator,
            leftLeft.bare_eq rightLeft leftLeftSourced rightLeftSourced sameLeft,
            leftRight.bare_eq rightRight leftRightSourced rightRightSourced
              sameRight]
      | _ =>
          simp [Expression.sameShape] at same
  | .conditional _ leftCondition leftConsequence leftAlternative?, right,
      ⟨leftWord, leftConditionSourced, leftConsequenceSourced,
        leftAlternativeSourced⟩, rightSourced, same => by
      cases right with
      | conditional _ rightCondition rightConsequence rightAlternative? =>
          simp only [Expression.sameShape, Bool.and_eq_true] at same
          obtain ⟨⟨sameCondition, sameConsequence⟩, sameAlternative⟩ := same
          obtain ⟨rightWord, rightConditionSourced, rightConsequenceSourced,
            rightAlternativeSourced⟩ := rightSourced
          simp only [Expression.bare, Token.word_eq leftWord rightWord,
            leftCondition.bare_eq rightCondition leftConditionSourced
              rightConditionSourced sameCondition,
            leftConsequence.bare_eq rightConsequence leftConsequenceSourced
              rightConsequenceSourced sameConsequence,
            Block.bare?_eq leftAlternative? rightAlternative?
              leftAlternativeSourced rightAlternativeSourced sameAlternative]
      | _ =>
          simp [Expression.sameShape] at same
  | .function _ _ leftBody, right, ⟨leftWord, _, leftSourced⟩, rightSourced,
      same => by
      cases right with
      | function _ _ rightBody =>
          simp only [Expression.sameShape, Bool.and_eq_true] at same
          obtain ⟨rightWord, -, rightSourced⟩ := rightSourced
          simp only [Expression.bare, Token.word_eq leftWord rightWord,
            Name.map_bare_eq same.1,
            leftBody.bare_eq rightBody leftSourced rightSourced same.2]
      | _ =>
          simp [Expression.sameShape] at same
  | .call _ leftCallee leftArguments, right,
      ⟨leftCalleeSourced, leftArgumentsSourced⟩, rightSourced, same => by
      cases right with
      | call _ rightCallee rightArguments =>
          simp only [Expression.sameShape, Bool.and_eq_true] at same
          obtain ⟨rightCalleeSourced, rightArgumentsSourced⟩ := rightSourced
          simp only [Expression.bare,
            leftCallee.bare_eq rightCallee leftCalleeSourced rightCalleeSourced
              same.1,
            Expression.bareAll_eq leftArguments rightArguments
              leftArgumentsSourced rightArgumentsSourced same.2]
      | _ =>
          simp [Expression.sameShape] at same

theorem Expression.bareAll_eq :
    (left right : List Expression) →
      Expression.SourcedAll left → Expression.SourcedAll right →
      Expression.sameShapes left right = true →
        Expression.bareAll left = Expression.bareAll right
  | [], right, _, _, same => by
      cases right with
      | nil =>
          rfl
      | cons _ _ =>
          simp [Expression.sameShapes] at same
  | leftFirst :: leftRest, right, ⟨leftFirstSourced, leftRestSourced⟩,
      rightSourced, same => by
      cases right with
      | nil =>
          simp [Expression.sameShapes] at same
      | cons rightFirst rightRest =>
          simp only [Expression.sameShapes, Bool.and_eq_true] at same
          obtain ⟨rightFirstSourced, rightRestSourced⟩ := rightSourced
          simp only [Expression.bareAll,
            leftFirst.bare_eq rightFirst leftFirstSourced rightFirstSourced same.1,
            Expression.bareAll_eq leftRest rightRest leftRestSourced
              rightRestSourced same.2]

theorem Statement.bare_eq :
    (left right : Statement) →
      left.Sourced → right.Sourced → left.sameShape right = true →
        left.bare = right.bare
  | .binding _ _ leftValue, right, ⟨leftWord, _, leftSourced⟩, rightSourced,
      same => by
      cases right with
      | binding _ _ rightValue =>
          simp only [Statement.sameShape, Name.sameShape, Bool.and_eq_true,
            beq_iff_eq] at same
          obtain ⟨rightWord, -, rightSourced⟩ := rightSourced
          simp only [Statement.bare, Token.word_eq leftWord rightWord, Name.bare,
            same.1, leftValue.bare_eq rightValue leftSourced rightSourced same.2]
      | _ =>
          simp [Statement.sameShape] at same
  | .returning _ leftValue, right, ⟨leftWord, leftSourced⟩, rightSourced,
      same => by
      cases right with
      | returning _ rightValue =>
          simp only [Statement.sameShape] at same
          obtain ⟨rightWord, rightSourced⟩ := rightSourced
          simp only [Statement.bare, Token.word_eq leftWord rightWord,
            leftValue.bare_eq rightValue leftSourced rightSourced same]
      | _ =>
          simp [Statement.sameShape] at same
  | .expression _ leftInner, right, leftSourced, rightSourced, same => by
      cases right with
      | expression _ rightInner =>
          simp only [Statement.sameShape] at same
          simp only [Statement.bare,
            leftInner.bare_eq rightInner leftSourced rightSourced same]
      | _ =>
          simp [Statement.sameShape] at same
  | .block _, _, sourced, _, _ =>
      sourced.elim

theorem Statement.bareAll_eq :
    (left right : List Statement) →
      Statement.SourcedAll left → Statement.SourcedAll right →
      Statement.sameShapes left right = true →
        Statement.bareAll left = Statement.bareAll right
  | [], right, _, _, same => by
      cases right with
      | nil =>
          rfl
      | cons _ _ =>
          simp [Statement.sameShapes] at same
  | leftFirst :: leftRest, right, ⟨leftFirstSourced, leftRestSourced⟩,
      rightSourced, same => by
      cases right with
      | nil =>
          simp [Statement.sameShapes] at same
      | cons rightFirst rightRest =>
          simp only [Statement.sameShapes, Bool.and_eq_true] at same
          obtain ⟨rightFirstSourced, rightRestSourced⟩ := rightSourced
          simp only [Statement.bareAll,
            leftFirst.bare_eq rightFirst leftFirstSourced rightFirstSourced same.1,
            Statement.bareAll_eq leftRest rightRest leftRestSourced
              rightRestSourced same.2]

theorem Block.bare_eq :
    (left right : Block) →
      left.Sourced → right.Sourced → left.sameShape right = true →
        left.bare = right.bare
  | ⟨_, leftStatements⟩, ⟨_, rightStatements⟩, leftSourced, rightSourced,
      same => by
      simp only [Block.sameShape] at same
      simp only [Block.bare,
        Statement.bareAll_eq leftStatements rightStatements leftSourced
          rightSourced same]

theorem Block.bare?_eq :
    (left right : Option Block) →
      Block.Sourced? left → Block.Sourced? right →
      Block.sameShape? left right = true →
        Block.bare? left = Block.bare? right
  | none, right, _, _, same => by
      cases right with
      | none =>
          rfl
      | some _ =>
          simp [Block.sameShape?] at same
  | some leftInner, right, leftSourced, rightSourced, same => by
      cases right with
      | none =>
          simp [Block.sameShape?] at same
      | some rightInner =>
          simp only [Block.sameShape?] at same
          simp only [Block.bare?,
            leftInner.bare_eq rightInner leftSourced rightSourced same]

end

end Sharing

end Scriptlet
