import Mathlib.Data.Int.ModEq
import Scriptlet.Evaluation

namespace Scriptlet

/-!
# Arithmetic modulo two to the sixty-four

A formula is an expression in which there are only integer literals and the signs
of arithmetic.  It has a value among all integers.  Its evaluation brings every
intermediate result back to sixty-four bits, and without divisions this makes no
difference to the result but for the multiple of two to the sixty-four that is
missing from it: to bring numbers back is compatible with sums, differences and
products.  It is not compatible with quotients, so where there are divisions the
value of a formula is that of the reduced computation.  A formula has no value if
it divides by zero, and the first division to do so is the one that is reported.
-/

/-- The signs between two integers, named for what they make of them. -/
inductive Sign where
  | sum
  | difference
  | product
  | quotient
  deriving Repr, DecidableEq

namespace Sign

/-- A sign as it is written. -/
def text : Sign → String
  | .sum => "+"
  | .difference => "-"
  | .product => "*"
  | .quotient => "/"

/-- What a sign makes of two integers; quotients are cut off towards zero. -/
def combine : Sign → Int → Int → Int
  | .sum, left, right => left + right
  | .difference, left, right => left - right
  | .product, left, right => left * right
  | .quotient, left, right => left.tdiv right

/-- All signs but that of division are compatible with congruence. -/
theorem combine_congr
    {modulus left left' right right' : Int}
    {sign : Sign}
    (exact : sign ≠ .quotient)
    (lefts : left ≡ left' [ZMOD modulus])
    (rights : right ≡ right' [ZMOD modulus]) :
    sign.combine left right ≡ sign.combine left' right' [ZMOD modulus] := by
  cases sign with
  | sum =>
      exact lefts.add rights
  | difference =>
      exact lefts.sub rights
  | product =>
      exact lefts.mul rights
  | quotient =>
      exact absurd rfl exact

end Sign

/-- An integer brought back to the signed sixty-four bits it is congruent to. -/
def wrapped (number : Int) : Int :=
  number.bmod (2 ^ 64)

theorem wrapped_modEq (number : Int) : wrapped number ≡ number [ZMOD 2 ^ 64] :=
  Int.bmod_emod

theorem toInt_ofInt_wrapped (number : Int) :
    (Int64.ofInt (wrapped number)).toInt = wrapped number := by
  rw [Int64.toInt_ofInt]
  exact Int.bmod_bmod

/-- No two integers of sixty-four bits are congruent. -/
theorem modEq_toInt_iff
    {number : Int}
    {value : Int64} :
    value.toInt ≡ number [ZMOD 2 ^ 64] ↔ value = Int64.ofInt number := by
  rw [eq_comm, Int64.ofInt_eq_iff_bmod_eq_toInt]
  constructor
  · intro congruent
    rw [← Int64.toInt_bmod value, ← Int.emod_bmod, ← Int.emod_bmod value.toInt]
    exact congrArg (Int.bmod · _) congruent.symm
  · intro same
    rw [← same]
    exact wrapped_modEq number

namespace Evaluation

/-- An integer is no `return`, so it is used. -/
theorem succeed_useValue
    (value : Int64)
    (use : Value → Evaluation Value) :
    (do useValue (← succeed (.integer value)) use) = use (.integer value) :=
  rfl

/-- Nothing comes after a fault. -/
theorem faultAt_bind
    (token : Token)
    (fault : Fault)
    (next : α → Evaluation β) :
    (faultAt token fault >>= next) = faultAt token fault :=
  rfl

end Evaluation

namespace Value

/-- The negation of an integer never fails. -/
theorem applyPrefix_dash (value : Int64) :
    applyPrefix "-" (.integer value) =
      .ok (.integer (Int64.ofInt (wrapped (-value.toInt)))) := by
  have same : -value = Int64.ofInt (wrapped (-value.toInt)) := by
    rw [← Int64.toInt_inj, toInt_ofInt_wrapped]
    exact Int64.toInt_neg value
  rw [← same]
  rfl

/-- A sign between two integers never fails but where it divides by zero. -/
theorem applyBinary_sign
    {sign : Sign}
    {left right : Int64}
    (defined : sign = .quotient → right ≠ 0) :
    applyBinary sign.text (.integer left) (.integer right) =
      .ok (.integer
        (Int64.ofInt (wrapped (sign.combine left.toInt right.toInt)))) := by
  have same
      {result : Int64}
      (number : result.toInt = wrapped (sign.combine left.toInt right.toInt)) :
      result =
        Int64.ofInt (wrapped (sign.combine left.toInt right.toInt)) := by
    rw [← Int64.toInt_inj, toInt_ofInt_wrapped, number]
  cases sign with
  | sum =>
      rw [← same (Int64.toInt_add left right)]
      rfl
  | difference =>
      rw [← same (Int64.toInt_sub left right)]
      rfl
  | product =>
      rw [← same (Int64.toInt_mul left right)]
      rfl
  | quotient =>
      rw [← same (Int64.toInt_div left right)]
      exact if_neg (defined rfl)

end Value

/-- Expressions of integer literals and the signs of arithmetic. -/
inductive Formula where
  | literal (token : Token) (value : Int64)
  | negated (token : Token) (right : Formula)
  | combined (token : Token) (left : Formula) (sign : Sign) (right : Formula)

/-- A division in a formula: its token, and what it divides by. -/
structure Division where
  token : Token
  divisor : Int

namespace Formula

/-- A formula as an expression of the language. -/
def tree : Formula → Expression
  | .literal token value =>
      .integer token value
  | .negated token right =>
      .prefixed token "-" right.tree
  | .combined token left sign right =>
      .binary token left.tree sign.text right.tree

/-- The value of a formula if each intermediate result is treated in some way. -/
def valueBy (treat : Int → Int) : Formula → Int
  | .literal _ value =>
      value.toInt
  | .negated _ right =>
      treat (-(right.valueBy treat))
  | .combined _ left sign right =>
      treat (sign.combine (left.valueBy treat) (right.valueBy treat))

/-- The value of a formula among all integers, meant for formulas without divisions. -/
def exact (formula : Formula) : Int :=
  formula.valueBy id

/-- The value of a formula if intermediate results are brought back to range. -/
def reduced (formula : Formula) : Int :=
  formula.valueBy wrapped

/--
The divisions of a formula in the order in which they are made, each with the
value it divides by.  Those behind a division by zero are listed although they
are never made.
-/
def divisions : Formula → List Division
  | .literal _ _ =>
      []
  | .negated _ right =>
      right.divisions
  | .combined token left sign right =>
      left.divisions ++ right.divisions ++
        if sign = .quotient then [⟨token, right.reduced⟩] else []

/-- The first division by zero in a formula. -/
def divisionByZero? (formula : Formula) : Option Division :=
  formula.divisions.find? fun division => division.divisor = 0

/-- Without divisions, the value in range is congruent to that among all integers. -/
theorem reduced_modEq_exact
    {formula : Formula}
    (divisionFree : formula.divisions = []) :
    formula.reduced ≡ formula.exact [ZMOD 2 ^ 64] := by
  induction formula with
  | literal _ _ =>
      rfl
  | negated _ right inductionHypothesis =>
      calc
        wrapped (-right.reduced)
        _ ≡ -right.reduced [ZMOD 2 ^ 64] := wrapped_modEq _
        _ ≡ -right.exact [ZMOD 2 ^ 64] := (inductionHypothesis divisionFree).neg
  | combined token left sign right leftHypothesis rightHypothesis =>
      simp only [divisions, List.append_eq_nil_iff] at divisionFree
      obtain ⟨⟨leftFree, rightFree⟩, signFree⟩ := divisionFree
      have noDivision : sign ≠ .quotient := by
        rintro rfl
        cases signFree
      calc
        wrapped (sign.combine left.reduced right.reduced)
        _ ≡ sign.combine left.reduced right.reduced [ZMOD 2 ^ 64] :=
            wrapped_modEq _
        _ ≡ sign.combine left.exact right.exact [ZMOD 2 ^ 64] :=
            Sign.combine_congr noDivision (leftHypothesis leftFree)
              (rightHypothesis rightFree)

/-- The value in range is one of the integers of sixty-four bits. -/
theorem toInt_ofInt_reduced (formula : Formula) :
    (Int64.ofInt formula.reduced).toInt = formula.reduced := by
  cases formula with
  | literal _ value =>
      exact congrArg Int64.toInt (Int64.ofInt_toInt value)
  | negated _ _ =>
      exact toInt_ofInt_wrapped _
  | combined _ _ _ _ =>
      exact toInt_ofInt_wrapped _

/-- The least integer divided by minus one is out of range, and comes back to itself. -/
example
    (sign number : Token) :
    (combined sign (.literal number Int64.minValue) .quotient
      (.literal number (-1))).reduced = -(2 ^ 63) := by
  rfl

theorem ofInt_reduced_eq_zero_iff
    {formula : Formula} :
    Int64.ofInt formula.reduced = 0 ↔ formula.reduced = 0 := by
  rw [← Int64.toInt_inj, toInt_ofInt_reduced, Int64.toInt_zero]

/-- Where nothing is divided, nothing is divided by zero. -/
theorem divisionByZero?_of_divisions
    {formula : Formula}
    (divisionFree : formula.divisions = []) :
    formula.divisionByZero? = none := by
  rw [divisionByZero?, divisionFree]
  rfl

/--
The first division by zero is one on the left, one on the right if there is none on
the left, or else that of the left by the right.
-/
theorem divisionByZero?_combined
    (token : Token)
    (left right : Formula)
    (sign : Sign) :
    (combined token left sign right).divisionByZero? =
      (left.divisionByZero?.or right.divisionByZero?).or
        (if sign = .quotient ∧ right.reduced = 0 then
          some ⟨token, right.reduced⟩
        else
          none) := by
  simp only [divisionByZero?, divisions, List.find?_append]
  by_cases divides : sign = .quotient
  · by_cases zero : right.reduced = 0 <;> simp [divides, zero]
  · simp [divides]

/-- Of two divisions by zero, the one on the left comes first. -/
example
    (first sign second number : Token) :
    (combined sign
      (combined first (.literal number 1) .quotient (.literal number 0))
      .sum
      (combined second (.literal number 2) .quotient
        (.literal number 0))).divisionByZero? =
      some ⟨first, 0⟩ := by
  rfl

/-- What evaluating a formula amounts to, whatever is called and bound. -/
def ending (formula : Formula) : Evaluation Value :=
  match formula.divisionByZero? with
  | some division =>
      Evaluation.faultAt division.token .divisionByZero
  | none =>
      Evaluation.succeed (.integer (Int64.ofInt formula.reduced))

theorem ending_of_some
    {formula : Formula}
    {division : Division}
    (first : formula.divisionByZero? = some division) :
    formula.ending = Evaluation.faultAt division.token .divisionByZero := by
  rw [ending, first]

theorem ending_of_none
    {formula : Formula}
    (none : formula.divisionByZero? = none) :
    formula.ending =
      Evaluation.succeed (.integer (Int64.ofInt formula.reduced)) := by
  rw [ending, none]

/-- Evaluation computes the value in range, or stops at a division by zero. -/
theorem evaluate_tree
    (apply : Application)
    (scope : ScopeId)
    (formula : Formula) :
    formula.tree.evaluate apply scope = formula.ending := by
  induction formula with
  | literal token value =>
      rw [tree, Expression.evaluate, ending_of_none rfl, reduced, valueBy,
        Int64.ofInt_toInt]
      rfl
  | negated token right inductionHypothesis =>
      rw [tree, Expression.evaluate, inductionHypothesis]
      have first :
          (negated token right).divisionByZero? = right.divisionByZero? :=
        rfl
      cases rightFirst : right.divisionByZero? with
      | some division =>
          rw [ending_of_some rightFirst, Evaluation.faultAt_bind,
            ending_of_some (first.trans rightFirst)]
      | none =>
          rw [ending_of_none rightFirst, Evaluation.succeed_useValue,
            Value.applyPrefix_dash, toInt_ofInt_reduced,
            ending_of_none (first.trans rightFirst)]
          rfl
  | combined token left sign right leftHypothesis rightHypothesis =>
      rw [tree, Expression.evaluate, leftHypothesis, rightHypothesis]
      have first := divisionByZero?_combined token left right sign
      cases leftFirst : left.divisionByZero? with
      | some division =>
          rw [leftFirst] at first
          rw [ending_of_some leftFirst, Evaluation.faultAt_bind,
            ending_of_some first]
      | none =>
          rw [ending_of_none leftFirst, Evaluation.succeed_useValue]
          cases rightFirst : right.divisionByZero? with
          | some division =>
              rw [leftFirst, rightFirst] at first
              rw [ending_of_some rightFirst, Evaluation.faultAt_bind,
                ending_of_some first]
          | none =>
              rw [leftFirst, rightFirst] at first
              rw [ending_of_none rightFirst, Evaluation.succeed_useValue]
              by_cases zero : sign = .quotient ∧ right.reduced = 0
              · rw [if_pos zero] at first
                obtain ⟨rfl, zero⟩ := zero
                rw [ending_of_some first, ofInt_reduced_eq_zero_iff.mpr zero]
                rfl
              · rw [if_neg zero] at first
                have defined :
                    sign = .quotient → Int64.ofInt right.reduced ≠ 0 :=
                  fun divides isZero =>
                    zero ⟨divides, ofInt_reduced_eq_zero_iff.mp isZero⟩
                rw [Value.applyBinary_sign defined, toInt_ofInt_reduced,
                  toInt_ofInt_reduced, ending_of_none first]
                rfl

/--
Evaluating a formula touches no scope.  It ends in a fault if and only if a
division by zero comes up, at the first one; else in the value of the formula with
every intermediate result brought back to range.  A formula without division ends
in the one integer of sixty-four bits that is congruent to its exact value.
-/
theorem evaluate_exact
    (apply : Application)
    (scope : ScopeId)
    (heap : Heap)
    (formula : Formula) :
    (match formula.divisionByZero? with
      | some division =>
          formula.tree.evaluate apply scope heap =
            ⟨.error (.fault ⟨.divisionByZero, division.token.start⟩), heap⟩
      | none =>
          ∃ value : Int64,
            value.toInt = formula.reduced ∧
              formula.tree.evaluate apply scope heap =
                ⟨.ok (.integer value), heap⟩) ∧
      (formula.divisions = [] →
        ∃ value : Int64,
          (∀ other : Int64,
            other.toInt ≡ formula.exact [ZMOD 2 ^ 64] ↔ other = value) ∧
            formula.tree.evaluate apply scope heap =
              ⟨.ok (.integer value), heap⟩) := by
  rw [evaluate_tree]
  constructor
  · cases first : formula.divisionByZero? with
    | some division =>
        rw [ending_of_some first]
        rfl
    | none =>
        rw [ending_of_none first]
        exact ⟨Int64.ofInt formula.reduced, formula.toInt_ofInt_reduced, rfl⟩
  · intro divisionFree
    rw [ending_of_none (divisionByZero?_of_divisions divisionFree)]
    refine ⟨Int64.ofInt formula.reduced, fun other => ?_, rfl⟩
    have congruent := reduced_modEq_exact divisionFree
    calc
      other.toInt ≡ formula.exact [ZMOD 2 ^ 64]
      _ ↔ other.toInt ≡ formula.reduced [ZMOD 2 ^ 64] :=
          ⟨(·.trans congruent.symm), (·.trans congruent)⟩
      _ ↔ other = Int64.ofInt formula.reduced := modEq_toInt_iff

/-- The text `-9223372036854775807 - 2` as a formula. -/
def belowRange : Formula :=
  .combined ⟨.dash, "-", .ofOffset "a" 21 1⟩
    (.negated ⟨.dash, "-", .ofOffset "a" 0 1⟩
      (.literal ⟨.number, "9223372036854775807", .ofOffset "a" 1 19⟩
        9223372036854775807))
    .difference
    (.literal ⟨.number, "2", .ofOffset "a" 23 1⟩ 2)

/-- One below the least integer of sixty-four bits stands for the greatest one. -/
theorem evaluate_exact_below_range :
    belowRange.divisions = [] ∧
      belowRange.exact = -(2 ^ 63) - 1 ∧
      belowRange.tree.evaluate (Evaluation.applyWithin 1) 0 Heap.empty =
        ⟨.ok (.integer 9223372036854775807), Heap.empty⟩ := by
  have divisionFree : belowRange.divisions = [] :=
    rfl
  have exact : belowRange.exact = -(2 ^ 63) - 1 := by
    decide
  obtain ⟨value, unique, ends⟩ :=
    (evaluate_exact (Evaluation.applyWithin 1) 0 Heap.empty belowRange).2
      divisionFree
  have greatest : 9223372036854775807 = value := by
    rw [← unique, exact]
    decide
  exact ⟨divisionFree, exact, greatest ▸ ends⟩

end Formula

end Scriptlet
