import Scriptlet.Syntax.Shape

namespace Scriptlet

/-!
# The depth of canonical forms

How many levels a canonical form opens, read off the tree it is the form of.  A
prefixed or binary expression is printed in parentheses, and what stands in
parentheses, between the parentheses of a call or to the right of an operator is
one level deeper.  An operator or call is one level deeper than what it is
applied to, and so is all that follows it: with every call that is applied to a
callee, the arguments of the next one lie deeper.

Trees of the same shape have canonical forms of the same depth.
-/

/-- The calls applied one after the other to the callee of the first. -/
def Expression.calls : Expression → Nat
  | .call _ callee _ =>
      callee.calls + 1
  | _ =>
      0

mutual

/-- The levels opened inside the canonical form of an expression. -/
def Expression.printedDepth : Expression → Nat
  | .identifier _ =>
      0
  | .integer _ _ =>
      0
  | .string _ _ =>
      0
  | .boolean _ _ =>
      0
  | .prefixed _ _ right =>
      2 + right.printedDepth
  | .binary _ left _ right =>
      1 + max left.printedDepth (left.calls + 2 + right.printedDepth)
  | .conditional _ condition consequence alternative? =>
      max (1 + condition.printedDepth)
        (max consequence.printedDepth (Block.printedDepth? alternative?))
  | .function _ _ body =>
      body.printedDepth
  | .call _ callee arguments =>
      max callee.printedDepth
        (callee.calls + 1 + Expression.printedDepths arguments)

/-- The levels opened by the deepest of some arguments. -/
def Expression.printedDepths : List Expression → Nat
  | [] =>
      0
  | first :: rest =>
      max (1 + first.printedDepth) (Expression.printedDepths rest)

/-- The levels opened by the canonical form of a statement. -/
def Statement.printedDepth : Statement → Nat
  | .binding _ _ value =>
      1 + value.printedDepth
  | .returning _ value =>
      1 + value.printedDepth
  | .expression _ inner =>
      1 + inner.printedDepth
  | .block inner =>
      inner.printedDepth

/-- The levels opened by the deepest of some statements. -/
def Statement.printedDepths : List Statement → Nat
  | [] =>
      0
  | first :: rest =>
      max first.printedDepth (Statement.printedDepths rest)

/-- The levels opened by the canonical form of a block. -/
def Block.printedDepth : Block → Nat
  | ⟨_, statements⟩ =>
      1 + Statement.printedDepths statements

/-- The levels opened by a block that may be missing. -/
def Block.printedDepth? : Option Block → Nat
  | none =>
      0
  | some inner =>
      inner.printedDepth

end

/-- The levels opened by the canonical form of a program. -/
def Program.printedDepth (program : Program) : Nat :=
  Statement.printedDepths program.statements

/-- Expressions of the same shape are called equally often. -/
theorem Expression.calls_eq
    {left right : Expression}
    (same : left.sameShape right = true) :
    left.calls = right.calls := by
  induction left using Expression.calls.induct generalizing right with
  | case1 token callee arguments inductionHypothesis =>
      cases right with
      | call _ otherCallee otherArguments =>
          simp only [Expression.sameShape, Bool.and_eq_true] at same
          rw [Expression.calls, Expression.calls, inductionHypothesis same.1]
      | _ =>
          simp [Expression.sameShape] at same
  | case2 left notCall =>
      cases right with
      | call _ callee arguments =>
          cases left <;> simp [Expression.sameShape] at same notCall
      | _ =>
          cases left <;> simp [Expression.calls] at notCall ⊢

mutual

/-- Expressions of the same shape are printed equally deep. -/
theorem Expression.printedDepth_eq :
    (left right : Expression) →
      left.sameShape right = true →
        left.printedDepth = right.printedDepth
  | .identifier _, right, same => by
      cases right <;>
        simp_all [Expression.sameShape, Expression.printedDepth]
  | .integer _ _, right, same => by
      cases right <;>
        simp_all [Expression.sameShape, Expression.printedDepth]
  | .string _ _, right, same => by
      cases right <;>
        simp_all [Expression.sameShape, Expression.printedDepth]
  | .boolean _ _, right, same => by
      cases right <;>
        simp_all [Expression.sameShape, Expression.printedDepth]
  | .prefixed _ _ leftRight, right, same => by
      cases right with
      | prefixed _ _ rightRight =>
          simp only [Expression.sameShape, Bool.and_eq_true] at same
          rw [Expression.printedDepth, Expression.printedDepth,
            leftRight.printedDepth_eq rightRight same.2]
      | _ =>
          simp [Expression.sameShape] at same
  | .binary _ leftLeft _ leftRight, right, same => by
      cases right with
      | binary _ rightLeft _ rightRight =>
          simp only [Expression.sameShape, Bool.and_eq_true] at same
          obtain ⟨⟨sameLeft, -⟩, sameRight⟩ := same
          rw [Expression.printedDepth, Expression.printedDepth,
            Expression.calls_eq sameLeft,
            leftLeft.printedDepth_eq rightLeft sameLeft,
            leftRight.printedDepth_eq rightRight sameRight]
      | _ =>
          simp [Expression.sameShape] at same
  | .conditional _ leftCondition leftConsequence leftAlternative?, right, same => by
      cases right with
      | conditional _ rightCondition rightConsequence rightAlternative? =>
          simp only [Expression.sameShape, Bool.and_eq_true] at same
          obtain ⟨⟨sameCondition, sameConsequence⟩, sameAlternative⟩ := same
          rw [Expression.printedDepth, Expression.printedDepth,
            leftCondition.printedDepth_eq rightCondition sameCondition,
            leftConsequence.printedDepth_eq rightConsequence sameConsequence,
            Block.printedDepth?_eq leftAlternative? rightAlternative?
              sameAlternative]
      | _ =>
          simp [Expression.sameShape] at same
  | .function _ _ leftBody, right, same => by
      cases right with
      | function _ _ rightBody =>
          simp only [Expression.sameShape, Bool.and_eq_true] at same
          rw [Expression.printedDepth, Expression.printedDepth,
            leftBody.printedDepth_eq rightBody same.2]
      | _ =>
          simp [Expression.sameShape] at same
  | .call _ leftCallee leftArguments, right, same => by
      cases right with
      | call _ rightCallee rightArguments =>
          simp only [Expression.sameShape, Bool.and_eq_true] at same
          rw [Expression.printedDepth, Expression.printedDepth,
            Expression.calls_eq same.1,
            leftCallee.printedDepth_eq rightCallee same.1,
            Expression.printedDepths_eq leftArguments rightArguments same.2]
      | _ =>
          simp [Expression.sameShape] at same

theorem Expression.printedDepths_eq :
    (left right : List Expression) →
      Expression.sameShapes left right = true →
        Expression.printedDepths left = Expression.printedDepths right
  | [], right, same => by
      cases right with
      | nil =>
          rfl
      | cons =>
          simp [Expression.sameShapes] at same
  | leftFirst :: leftRest, right, same => by
      cases right with
      | nil =>
          simp [Expression.sameShapes] at same
      | cons rightFirst rightRest =>
          simp only [Expression.sameShapes, Bool.and_eq_true] at same
          rw [Expression.printedDepths, Expression.printedDepths,
            leftFirst.printedDepth_eq rightFirst same.1,
            Expression.printedDepths_eq leftRest rightRest same.2]

/-- Statements of the same shape are printed equally deep. -/
theorem Statement.printedDepth_eq :
    (left right : Statement) →
      left.sameShape right = true →
        left.printedDepth = right.printedDepth
  | .binding _ _ leftValue, right, same => by
      cases right with
      | binding _ _ rightValue =>
          simp only [Statement.sameShape, Bool.and_eq_true] at same
          rw [Statement.printedDepth, Statement.printedDepth,
            leftValue.printedDepth_eq rightValue same.2]
      | _ =>
          simp [Statement.sameShape] at same
  | .returning _ leftValue, right, same => by
      cases right with
      | returning _ rightValue =>
          simp only [Statement.sameShape] at same
          rw [Statement.printedDepth, Statement.printedDepth,
            leftValue.printedDepth_eq rightValue same]
      | _ =>
          simp [Statement.sameShape] at same
  | .expression _ leftInner, right, same => by
      cases right with
      | expression _ rightInner =>
          simp only [Statement.sameShape] at same
          rw [Statement.printedDepth, Statement.printedDepth,
            leftInner.printedDepth_eq rightInner same]
      | _ =>
          simp [Statement.sameShape] at same
  | .block leftInner, right, same => by
      cases right with
      | block rightInner =>
          simp only [Statement.sameShape] at same
          rw [Statement.printedDepth, Statement.printedDepth,
            leftInner.printedDepth_eq rightInner same]
      | _ =>
          simp [Statement.sameShape] at same

theorem Statement.printedDepths_eq :
    (left right : List Statement) →
      Statement.sameShapes left right = true →
        Statement.printedDepths left = Statement.printedDepths right
  | [], right, same => by
      cases right with
      | nil =>
          rfl
      | cons =>
          simp [Statement.sameShapes] at same
  | leftFirst :: leftRest, right, same => by
      cases right with
      | nil =>
          simp [Statement.sameShapes] at same
      | cons rightFirst rightRest =>
          simp only [Statement.sameShapes, Bool.and_eq_true] at same
          rw [Statement.printedDepths, Statement.printedDepths,
            leftFirst.printedDepth_eq rightFirst same.1,
            Statement.printedDepths_eq leftRest rightRest same.2]

theorem Block.printedDepth_eq :
    (left right : Block) →
      left.sameShape right = true →
        left.printedDepth = right.printedDepth
  | ⟨_, leftStatements⟩, ⟨_, rightStatements⟩, same => by
      simp only [Block.sameShape] at same
      rw [Block.printedDepth, Block.printedDepth,
        Statement.printedDepths_eq leftStatements rightStatements same]

theorem Block.printedDepth?_eq :
    (left right : Option Block) →
      Block.sameShape? left right = true →
        Block.printedDepth? left = Block.printedDepth? right
  | none, right, same => by
      cases right with
      | none =>
          rfl
      | some =>
          simp [Block.sameShape?] at same
  | some leftInner, right, same => by
      cases right with
      | none =>
          simp [Block.sameShape?] at same
      | some rightInner =>
          simp only [Block.sameShape?] at same
          rw [Block.printedDepth?, Block.printedDepth?,
            leftInner.printedDepth_eq rightInner same]

end

end Scriptlet
