import Scriptlet.Command.Answer
import Scriptlet.Proofs.Report.Places

namespace Scriptlet

/-!
# Where the faults of a session come from

A function outlives the line that it was entered on.  When a later line calls it
and it fails, the fault is at a token of the earlier line, while the report is
made on the later one.  So a fault that a session reports belongs to a node of some
line that was entered, and the report points into its line when that is the line of
the node; otherwise it shows some other place, or none at all.
-/

open Evaluation

namespace Session

/-- The program of a line, as a session reads it. -/
def lineProgram (strictBlocks : Bool) (line : String) : Program :=
  (Parsed.ofSource strictBlocks line Scanner.defaultFile).program

/-- The line has no diagnostics, so that a session evaluates it. -/
def Accepts (strictBlocks : Bool) (line : String) : Prop :=
  (Parsed.ofSource strictBlocks line Scanner.defaultFile).diagnostics = []

/-- The session that entering lines, one after the other, leads to. -/
def ofLines (style : Style) (strictBlocks : Bool) (lines : List String) : Session :=
  lines.foldl
    (fun session line => (session.answerLine style strictBlocks line).2) new

section Lines

variable {style : Style} {strictBlocks : Bool} {line : String}

/-- A line is answered with a fault when it is accepted and its program fails. -/
theorem enter_eq_fault_iff
    {session : Session}
    {diagnostic : Diagnostic} :
    (session.enter strictBlocks line Scanner.defaultFile).1 =
        .evaluated (.error (.fault diagnostic)) ↔
      Accepts strictBlocks line ∧
        ((lineProgram strictBlocks line).evaluate callLimit session.scope
          session.heap).fault? = some diagnostic := by
  rw [Accepts, lineProgram, enter]
  generalize Parsed.ofSource strictBlocks line Scanner.defaultFile = parsed
  simp only [List.isEmpty_iff]
  split
  · rename_i accepted
    simp only [accepted, true_and, evaluate, Outcome.fault?,
      Entered.evaluated.injEq]
    split
    · rename_i isFault
      simp [isFault]
    · rename_i noFault
      simp only [reduceCtorEq, iff_false]
      exact noFault diagnostic
  · rename_i rejected
    simp [rejected]

/-- Entering a line keeps the functions of a session written in the nodes. -/
theorem writtenIn_answerLine
    {nodes : List Expression}
    {session : Session}
    (written : session.heap.WrittenIn nodes)
    (inside :
      Accepts strictBlocks line →
        (lineProgram strictBlocks line).nodes ⊆ nodes) :
    (session.answerLine style strictBlocks line).2.heap.WrittenIn nodes := by
  simp only [answerLine]
  rw [Accepts, lineProgram] at inside
  rw [enter]
  generalize Parsed.ofSource strictBlocks line Scanner.defaultFile = parsed at *
  simp only [List.isEmpty_iff]
  split
  · rename_i accepted
    have yields :
        Yields nodes (Value.WrittenIn nodes)
          (parsed.program.evaluate callLimit session.scope) :=
      (Statement.yields_written_all (yieldsWritten_applyWithin nodes callLimit)
        parsed.program.statements .null (inside accepted) trivial).bind
          fun _ valueWritten => .ofValue valueWritten.unmarked
    exact (yields session.heap written).1
  · exact written

/-- The nodes of all lines among them that are accepted. -/
def nodesOfLines
    (strictBlocks : Bool)
    (lines : List String) :
    List Expression :=
  (lines.filter fun line =>
      (Parsed.ofSource strictBlocks line Scanner.defaultFile).diagnostics.isEmpty).flatMap
    fun line => (lineProgram strictBlocks line).nodes

theorem mem_nodesOfLines
    {lines : List String}
    {node : Expression} :
    node ∈ nodesOfLines strictBlocks lines ↔
      ∃ line ∈ lines,
        Accepts strictBlocks line ∧
          node ∈ (lineProgram strictBlocks line).nodes := by
  simp [nodesOfLines, Accepts, and_assoc]

/-- All functions of a session were written on lines that it has accepted. -/
theorem writtenIn_ofLines
    {lines : List String}
    {nodes : List Expression}
    (inside : nodesOfLines strictBlocks lines ⊆ nodes) :
    (ofLines style strictBlocks lines).heap.WrittenIn nodes := by
  have kept
      (session : Session)
      (written : session.heap.WrittenIn nodes) :
      (lines.foldl
        (fun session line => (session.answerLine style strictBlocks line).2)
        session).heap.WrittenIn nodes := by
    induction lines generalizing session with
    | nil =>
        exact written
    | cons line others inductionHypothesis =>
        have insideOthers : nodesOfLines strictBlocks others ⊆ nodes := by
          intro node member
          obtain ⟨other, among, found⟩ := mem_nodesOfLines.mp member
          exact inside (mem_nodesOfLines.mpr ⟨other, .tail _ among, found⟩)
        have entered :
            (session.answerLine style strictBlocks line).2.heap.WrittenIn nodes := by
          refine writtenIn_answerLine written fun accepted node member => inside ?_
          exact mem_nodesOfLines.mpr ⟨line, .head _, accepted, member⟩
        rw [List.foldl_cons]
        exact inductionHypothesis insideOthers _ entered
  exact kept new (new_writtenIn nodes)

end Lines

/--
A fault of a session, whatever lines were entered before, is that of one node of a
line that was accepted, the present one or an earlier one.  The evaluation of the
present line comes to evaluate this node, all of its parts have values, and the node
itself fails.  The fault is at the start of the node's token, which is one of its
own line.  What is reported is the present line; so the report shows the line of the
node when this is the present one.
-/
theorem fault_points_into_line_of_node
    (style : Style)
    (strictBlocks : Bool)
    (lines : List String)
    (line : String)
    (diagnostic : Diagnostic)
    (failed :
      ((ofLines style strictBlocks lines).enter strictBlocks line
          Scanner.defaultFile).1 =
        .evaluated (.error (.fault diagnostic))) :
    let session := ofLines style strictBlocks lines
    (session.answerLine style strictBlocks line).1 =
        ⟨[], diagnostic.report style line⟩ ∧
      ∃ origin ∈ lines ++ [line],
        Accepts strictBlocks origin ∧
          ∃ node ∈ (lineProgram strictBlocks origin).nodes,
            (∃ fewer scope heap,
              Relation.ReflTransGen Task.Demands
                  ⟨callLimit, session.scope, session.heap,
                    .statements (lineProgram strictBlocks line).statements⟩
                  ⟨fewer, scope, heap, .expression node⟩ ∧
                node.FailsItself fewer scope heap diagnostic.fault) ∧
              node.token ∈ tokenize origin Scanner.defaultFile ∧
              diagnostic.position = node.token.start ∧
              (origin = line →
                line.utf8ByteSize < UInt32.size →
                  diagnostic.PointsInto line Scanner.defaultFile node.token) := by
  intro session
  obtain ⟨accepted, faulty⟩ := enter_eq_fault_iff.mp failed
  have inside :
      (lineProgram strictBlocks line).nodes ⊆
        nodesOfLines strictBlocks (lines ++ [line]) := fun node member =>
    mem_nodesOfLines.mpr ⟨line, by simp, accepted, member⟩
  have written :
      session.heap.WrittenIn (nodesOfLines strictBlocks (lines ++ [line])) := by
    refine writtenIn_ofLines fun node member => ?_
    obtain ⟨other, among, found⟩ := mem_nodesOfLines.mp member
    exact mem_nodesOfLines.mpr ⟨other, List.mem_append_left _ among, found⟩
  obtain ⟨node, among, fails, position⟩ :=
    Program.exists_failing_node_among inside written faulty
  obtain ⟨origin, entered, originAccepted, onOrigin⟩ := mem_nodesOfLines.mp among
  have member : node.token ∈ tokenize origin Scanner.defaultFile :=
    TokenStream.mem_tokenize_of_mem_beforeEnd
      (Parsed.node_token_mem strictBlocks _ node onOrigin)
  refine ⟨?_, origin, entered, originAccepted, node, onOrigin, fails, member,
    position, ?_⟩
  · simp only [answerLine, session, failed, Answer.failureLines]
  · rintro rfl small
    exact Diagnostic.pointsInto_of_mem small member position

/-- A function that fails when it is called. -/
def failingFunction : String :=
  "let f = fn(x) \x7b x + y \x7d;\n"

/-- What calling it fails with, at the second name of its body. -/
def missingName : Diagnostic :=
  ⟨.unknownIdentifier "y", ⟨20, Scanner.defaultFile⟩⟩

theorem enter_call_of_failingFunction :
    ((ofLines .plain true [failingFunction]).enter true "f(1)\n"
          Scanner.defaultFile).1 =
        .evaluated (.error (.fault missingName)) := by
  rw [enter_eq_fault_iff, Accepts]
  constructor
  · decide +kernel
  · decide +kernel

theorem fault_points_into_line_of_node_call :
    ((ofLines .plain true [failingFunction]).enter true "f(1)\n"
          Scanner.defaultFile).1 =
        .evaluated (.error (.fault missingName)) ∧
      ∃ origin ∈ [failingFunction, "f(1)\n"],
        ∃ node ∈ (lineProgram true origin).nodes,
          node.token ∈ tokenize origin Scanner.defaultFile ∧
            missingName.position = node.token.start := by
  have failed := enter_call_of_failingFunction
  obtain ⟨-, origin, entered, -, node, inside, -, member, position, -⟩ :=
    fault_points_into_line_of_node .plain true [failingFunction] "f(1)\n"
      missingName failed
  exact ⟨failed, origin, entered, node, inside, member, position⟩

/--
Not every fault points into the line that is reported: the name that is missing
starts at no token of the line with the call, and the report shows no line.
-/
theorem fault_points_past_line :
    ((ofLines .plain true [failingFunction]).enter true "f(1)\n"
          Scanner.defaultFile).1 =
        .evaluated (.error (.fault missingName)) ∧
      (∀ token ∈ tokenize "f(1)\n" Scanner.defaultFile,
        missingName.position ≠ token.start) ∧
      missingName.report .plain "f(1)\n" =
        [ "Error: identifier not found: y (Variable \x60y\x60 not declared)",
          "-> shell" ] := by
  refine ⟨enter_call_of_failingFunction, ?_, ?_⟩
  · decide +kernel
  · decide +kernel

end Session

end Scriptlet
