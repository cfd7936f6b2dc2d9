import Scriptlet.Syntax

namespace Scriptlet

/-!
# The height of trees

The height of a tree is the number of expressions and blocks on the longest path
down from it.  Paths into the left operand of a binary operator or into a callee
are the ones that the levels of a parse do not see, so heights are also taken
without them.  The two heights differ by what stands to the left.
-/

mutual

/--
The height of an expression.  Left operands and callees count only if asked for.
-/
def Expression.heightOver (leftToo : Bool) : Expression → Nat
  | .identifier _ =>
      1
  | .integer _ _ =>
      1
  | .string _ _ =>
      1
  | .boolean _ _ =>
      1
  | .prefixed _ _ right =>
      1 + right.heightOver leftToo
  | .binary _ left _ right =>
      1 + max (if leftToo then left.heightOver leftToo else 0)
        (right.heightOver leftToo)
  | .conditional _ condition consequence alternative? =>
      1 + max (condition.heightOver leftToo)
        (max (consequence.heightOver leftToo)
          (Block.heightOver? leftToo alternative?))
  | .function _ _ body =>
      1 + body.heightOver leftToo
  | .call _ callee arguments =>
      1 + max (if leftToo then callee.heightOver leftToo else 0)
        (Expression.heightsOver leftToo arguments)

/-- The height of the tallest expression of a list. -/
def Expression.heightsOver (leftToo : Bool) : List Expression → Nat
  | [] =>
      0
  | first :: rest =>
      max (first.heightOver leftToo) (Expression.heightsOver leftToo rest)

/-- The height of a statement is that of the expression or block in it. -/
def Statement.heightOver (leftToo : Bool) : Statement → Nat
  | .binding _ _ value =>
      value.heightOver leftToo
  | .returning _ value =>
      value.heightOver leftToo
  | .expression _ inner =>
      inner.heightOver leftToo
  | .block inner =>
      inner.heightOver leftToo

/-- The height of the tallest statement of a list. -/
def Statement.heightsOver (leftToo : Bool) : List Statement → Nat
  | [] =>
      0
  | first :: rest =>
      max (first.heightOver leftToo) (Statement.heightsOver leftToo rest)

/-- The height of a block. -/
def Block.heightOver (leftToo : Bool) : Block → Nat
  | ⟨_, statements⟩ =>
      1 + Statement.heightsOver leftToo statements

/-- The height of a block that may be missing. -/
def Block.heightOver? (leftToo : Bool) : Option Block → Nat
  | none =>
      0
  | some inner =>
      inner.heightOver leftToo

end

/-- The number of expressions and blocks on the longest path down a statement. -/
def Statement.height (statement : Statement) : Nat :=
  statement.heightOver true

/-- The longest path that steps into no left operand and into no callee. -/
def Statement.straightHeight (statement : Statement) : Nat :=
  statement.heightOver false

/-- A left operand or a callee, and the number of nodes above it. -/
structure LeftPart where
  above : Nat
  part : Expression

/-- The nodes on the longest path through the left operand or callee. -/
def LeftPart.height (left : LeftPart) : Nat :=
  left.above + left.part.heightOver true

mutual

/--
The left operands and callees of an expression, those inside others left out,
with `above` nodes above the expression.
-/
def Expression.leftParts (above : Nat) : Expression → List LeftPart
  | .identifier _ =>
      []
  | .integer _ _ =>
      []
  | .string _ _ =>
      []
  | .boolean _ _ =>
      []
  | .prefixed _ _ right =>
      right.leftParts (above + 1)
  | .binary _ left _ right =>
      ⟨above + 1, left⟩ :: right.leftParts (above + 1)
  | .conditional _ condition consequence alternative? =>
      condition.leftParts (above + 1) ++
        (consequence.leftParts (above + 1) ++
          Block.leftParts? (above + 1) alternative?)
  | .function _ _ body =>
      body.leftParts (above + 1)
  | .call _ callee arguments =>
      ⟨above + 1, callee⟩ :: Expression.leftPartsIn (above + 1) arguments

/-- The left operands and callees in the expressions of a list. -/
def Expression.leftPartsIn (above : Nat) : List Expression → List LeftPart
  | [] =>
      []
  | first :: rest =>
      first.leftParts above ++ Expression.leftPartsIn above rest

/-- The left operands and callees in a statement. -/
def Statement.leftPartsUnder (above : Nat) : Statement → List LeftPart
  | .binding _ _ value =>
      value.leftParts above
  | .returning _ value =>
      value.leftParts above
  | .expression _ inner =>
      inner.leftParts above
  | .block inner =>
      inner.leftParts above

/-- The left operands and callees in the statements of a list. -/
def Statement.leftPartsIn (above : Nat) : List Statement → List LeftPart
  | [] =>
      []
  | first :: rest =>
      first.leftPartsUnder above ++ Statement.leftPartsIn above rest

/-- The left operands and callees in a block. -/
def Block.leftParts (above : Nat) : Block → List LeftPart
  | ⟨_, statements⟩ =>
      Statement.leftPartsIn (above + 1) statements

/-- The left operands and callees in a block that may be missing. -/
def Block.leftParts? (above : Nat) : Option Block → List LeftPart
  | none =>
      []
  | some inner =>
      inner.leftParts above

end

/-- The left operands and callees in a statement, those inside others left out. -/
def Statement.leftParts (statement : Statement) : List LeftPart :=
  statement.leftPartsUnder 0

section Paths

variable {bound tall straight : Nat} {parts : List LeftPart}

/--
A bound on the tallest path is one on the tallest straight path and on those
through left operands and callees.
-/
def Splits (bound tall straight : Nat) (parts : List LeftPart) : Prop :=
  tall ≤ bound ↔
    straight ≤ bound ∧ ∀ left ∈ parts, left.height ≤ bound

theorem Splits.leaf : Splits bound tall tall [] := by
  simp [Splits]

/-- What stands to the left makes no difference to the straight paths. -/
theorem Splits.left
    {left : LeftPart}
    (others : Splits bound tall straight parts) :
    Splits bound (max left.height tall) straight (left :: parts) := by
  unfold Splits at *
  rw [Nat.max_le, others, List.forall_mem_cons]
  exact and_left_comm

theorem Splits.join
    {otherTall otherStraight : Nat}
    {otherParts : List LeftPart}
    (first : Splits bound tall straight parts)
    (second : Splits bound otherTall otherStraight otherParts) :
    Splits bound (max tall otherTall) (max straight otherStraight)
      (parts ++ otherParts) := by
  unfold Splits at *
  rw [Nat.max_le, Nat.max_le, first, second, List.forall_mem_append]
  exact and_and_and_comm

/-- A node above is one above every path. -/
theorem Splits.under
    {above : Nat}
    (inner :
      Splits bound (above + 1 + tall) (above + 1 + straight) parts) :
    Splits bound (above + (1 + tall)) (above + (1 + straight)) parts := by
  rw [← Nat.add_assoc, ← Nat.add_assoc]
  exact inner

theorem Splits.underLeft
    {above : Nat}
    {left : Expression}
    (inner :
      Splits bound (above + 1 + tall) (above + 1 + straight) parts) :
    Splits bound (above + (1 + max (left.heightOver true) tall))
      (above + (1 + max 0 straight)) (⟨above + 1, left⟩ :: parts) := by
  apply under
  rw [Nat.zero_max, ← Nat.add_max_add_left]
  have whole :
      Splits bound (max (LeftPart.mk (above + 1) left).height (above + 1 + tall))
        (above + 1 + straight) (⟨above + 1, left⟩ :: parts) :=
    inner.left
  exact whole

theorem Splits.beside
    {above otherTall otherStraight : Nat}
    {otherParts : List LeftPart}
    (first : Splits bound (above + tall) (above + straight) parts)
    (second :
      Splits bound (above + otherTall) (above + otherStraight) otherParts) :
    Splits bound (above + max tall otherTall)
      (above + max straight otherStraight) (parts ++ otherParts) := by
  rw [← Nat.add_max_add_left, ← Nat.add_max_add_left]
  exact first.join second

mutual

/-- The paths down an expression are straight or lead through a left part. -/
theorem Expression.splits
    (bound above : Nat) :
    (tree : Expression) →
      Splits bound (above + tree.heightOver true)
        (above + tree.heightOver false) (tree.leftParts above)
  | .identifier _ =>
      .leaf
  | .integer _ _ =>
      .leaf
  | .string _ _ =>
      .leaf
  | .boolean _ _ =>
      .leaf
  | .prefixed _ _ right =>
      (right.splits bound (above + 1)).under
  | .binary _ _ _ right =>
      (right.splits bound (above + 1)).underLeft
  | .conditional _ condition consequence alternative? =>
      .under ((condition.splits bound (above + 1)).beside
        ((consequence.splits bound (above + 1)).beside
          (Block.splits? bound (above + 1) alternative?)))
  | .function _ _ body =>
      (body.splits bound (above + 1)).under
  | .call _ _ arguments =>
      (Expression.splitsAll bound (above + 1) arguments).underLeft

theorem Expression.splitsAll
    (bound above : Nat) :
    (trees : List Expression) →
      Splits bound (above + Expression.heightsOver true trees)
        (above + Expression.heightsOver false trees)
        (Expression.leftPartsIn above trees)
  | [] =>
      .leaf
  | first :: rest =>
      (first.splits bound above).beside (Expression.splitsAll bound above rest)

theorem Statement.splits
    (bound above : Nat) :
    (tree : Statement) →
      Splits bound (above + tree.heightOver true)
        (above + tree.heightOver false) (tree.leftPartsUnder above)
  | .binding _ _ value =>
      value.splits bound above
  | .returning _ value =>
      value.splits bound above
  | .expression _ inner =>
      inner.splits bound above
  | .block inner =>
      inner.splits bound above

theorem Statement.splitsAll
    (bound above : Nat) :
    (trees : List Statement) →
      Splits bound (above + Statement.heightsOver true trees)
        (above + Statement.heightsOver false trees)
        (Statement.leftPartsIn above trees)
  | [] =>
      .leaf
  | first :: rest =>
      (first.splits bound above).beside (Statement.splitsAll bound above rest)

theorem Block.splits
    (bound above : Nat) :
    (tree : Block) →
      Splits bound (above + tree.heightOver true)
        (above + tree.heightOver false) (tree.leftParts above)
  | ⟨_, statements⟩ =>
      (Statement.splitsAll bound (above + 1) statements).under

theorem Block.splits?
    (bound above : Nat) :
    (tree? : Option Block) →
      Splits bound (above + Block.heightOver? true tree?)
        (above + Block.heightOver? false tree?)
        (Block.leftParts? above tree?)
  | none =>
      .leaf
  | some inner =>
      inner.splits bound above

end

end Paths

end Scriptlet
