import Scriptlet.Parse.Routine

namespace Scriptlet

/-!
# Nested expressions and blocks

Expressions and blocks nest in each other.  Every operand, every operator
applied to what is already read, and every block is one level of nesting, and
the levels still open to a step bound its recursion: `expressionWithin levels`
and its companions read what fits into the given number of levels.
-/

namespace Parse

variable {σ α : Type} [Place σ]

mutual

/-- An expression that binds tighter than `bound`, within some levels. -/
def expressionWithin
    (strictBlocks : Bool) :
    Nat → Precedence → Step σ Expression
  | 0, _ =>
      nested do
        descend .operand
        fail
  | levels + 1, bound =>
      nested do
        descend .operand
        let left ←
          operand
            ⟨expressionWithin strictBlocks levels,
              blockWithin strictBlocks levels⟩
        operatorsWithin strictBlocks levels bound left

/--
The operators that bind tighter than `bound`, applied one after the other to
the expression to their left, within some levels.
-/
def operatorsWithin
    (strictBlocks : Bool) :
    Nat → Precedence → Expression → Step σ Expression
  | 0, bound, left =>
      operatorOr bound left fun _ _ => fail
  | levels + 1, bound, left =>
      operatorOr bound left fun form operatorPrecedence => do
        let _ ← advance
        let applied ←
          operatorOf
            ⟨expressionWithin strictBlocks levels,
              blockWithin strictBlocks levels⟩
            left operatorPrecedence form
        operatorsWithin strictBlocks levels bound applied

/-- A block, within some levels. -/
def blockWithin
    (strictBlocks : Bool) :
    Nat → Step σ Block
  | 0 =>
      nested do
        descend .block
        fail
  | levels + 1 =>
      nested do
        descend .block
        blockBody strictBlocks
          ⟨expressionWithin strictBlocks levels,
            blockWithin strictBlocks levels⟩

end

/-- The routines for what is nested, within some levels. -/
def routinesWithin (strictBlocks : Bool) (levels : Nat) : Routines σ :=
  ⟨expressionWithin strictBlocks levels, blockWithin strictBlocks levels⟩

/-- Run a routine with all the levels that are still open to it. -/
def withRoutines (strictBlocks : Bool) (routine : Routines σ → Step σ α) : Step σ α :=
  fun cursor =>
    routine (routinesWithin strictBlocks (nestingLimit - Place.depth cursor)) cursor

/-- An expression that binds tighter than `bound`. -/
def expression (strictBlocks : Bool) (bound : Precedence) : Step σ Expression :=
  withRoutines strictBlocks fun routines => routines.expression bound

/-- A block, from its opening bracket to its closing one. -/
def block (strictBlocks : Bool) : Step σ Block :=
  withRoutines strictBlocks Routines.block

end Parse

end Scriptlet
