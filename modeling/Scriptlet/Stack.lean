namespace Scriptlet

/-!
# Deep recursion

Recursion takes room on the stack of the thread it runs on, and a stack is small
compared with the rest of memory.  Long loops and deep calls therefore move to
the stack of a new thread every so often.  Where a value is computed makes no
difference to what it is.
-/

/-- Compute a value on a stack of its own. -/
def onOwnStack (compute : Unit → α) : α :=
  (Task.spawn compute .dedicated).get

/-- Every so many rounds of a recursion its rest moves to a stack of its own. -/
def stackPeriod : Nat :=
  128

/-- Compute the rest of a recursion that has `rounds` rounds to go at most. -/
def withStackFor (rounds : Nat) (compute : Unit → α) : α :=
  if rounds % stackPeriod = 0 ∧ rounds ≠ 0 then
    onOwnStack compute
  else
    compute ()

/-- The stack makes no difference to the value. -/
@[simp]
theorem withStackFor_eq
    (rounds : Nat)
    (compute : Unit → α) :
    withStackFor rounds compute = compute () := by
  unfold withStackFor
  split
  · rfl
  · rfl

end Scriptlet
