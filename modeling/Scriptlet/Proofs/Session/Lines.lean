import Scriptlet.Proofs.Meaning.Layout
import Scriptlet.Proofs.Parse.Recovery
import Scriptlet.Proofs.Return.Encoding
import Scriptlet.Proofs.Token.Joining

namespace Scriptlet

/-!
# Entering lines is running a file

Lines entered into a session one after the other come to what the text does that
they make up together.  Three things are taken apart: the tokens of the text are
those of its lines, standing elsewhere; the program is made up of the programs of
the lines; and evaluating it goes on from line to line with what was bound so far.

Every line has to be complete: it is read without a complaint, no block is left
open, and the last token is a semicolon.
-/

section Legality

variable {lossy : Prop} {tokens : List Token}

theorem ReadsFurtherNames.legal
    {names : List Name}
    (reading : ReadsFurtherNames tokens names) :
    ∀ token ∈ tokens, token.kind ≠ .illegal := by
  induction reading with
  | done =>
      simp
  | next separates named others inductionHypothesis =>
      simp_all

theorem ReadsNames.legal
    {names : List Name}
    (reading : ReadsNames tokens names) :
    ∀ token ∈ tokens, token.kind ≠ .illegal := by
  cases reading with
  | none =>
      simp
  | some named others =>
      simpa [named] using others.legal

/-- What reads without a loss has no illegal token in it. -/
theorem Reads.legal
    {phrase : Phrase}
    {tree : phrase.Tree}
    (reading : Reads lossy phrase tokens tree)
    (lossless : ¬ lossy) :
    ∀ token ∈ tokens, token.kind ≠ .illegal := by
  induction reading with
  | identifier kind =>
      simp [kind]
  | integer kind text =>
      simp [kind]
  | string kind =>
      simp [kind]
  | boolean kind =>
      rename_i value
      cases value with
      | false =>
          simp [kind]
      | true =>
          simp [kind]
  | grouping opens inner closes innerLegal =>
      simpa [opens, closes, or_imp, forall_and] using innerLegal
  | conditional kind opens condition closes consequence alternative
      conditionLegal consequenceLegal alternativeLegal =>
      simpa [kind, opens, closes, or_imp, forall_and] using
        ⟨conditionLegal, consequenceLegal, alternativeLegal⟩
  | function kind opens names closes body bodyLegal =>
      simpa [kind, opens, closes, or_imp, forall_and] using
        ⟨names.legal, bodyLegal⟩
  | call callee opens arguments closes calleeLegal argumentsLegal =>
      simpa [opens, closes, or_imp, forall_and] using
        ⟨calleeLegal, argumentsLegal⟩
  | prefixed kind right rightLegal =>
      rename_i operator _ _
      have legal : operator.kind ≠ .illegal := by
        rcases kind with isDash | isNot
        · simp [isDash]
        · simp [isNot]
      simpa [legal] using rightLegal
  | binary left kind right leftLegal rightLegal =>
      rename_i operator _ _ _ _
      have legal : operator.kind ≠ .illegal := by
        intro illegal
        have isOperator := (Stratum.precedence_of_mem kind).1
        rw [illegal] at isOperator
        contradiction
      simpa [legal, or_imp, forall_and] using ⟨leftLegal, rightLegal⟩
  | tighter ordered inner innerLegal =>
      exact innerLegal
  | noArguments =>
      simp
  | someArguments first others firstLegal othersLegal =>
      simpa [or_imp, forall_and] using ⟨firstLegal, othersLegal⟩
  | lastArgument =>
      simp
  | nextArgument separates first others firstLegal othersLegal =>
      simpa [separates, or_imp, forall_and] using ⟨firstLegal, othersLegal⟩
  | noAlternative =>
      simp
  | someAlternative kind inner innerLegal =>
      simpa [kind] using innerLegal
  | block opens inner closes innerLegal =>
      simpa [opens, closes, or_imp, forall_and] using innerLegal
  | binding kind named assigns value valueLegal =>
      simpa [kind, named, assigns] using valueLegal
  | returning kind value valueLegal =>
      simpa [kind] using valueLegal
  | expressionStatement value valueLegal =>
      exact valueLegal
  | noStatements =>
      simp
  | someStatements first separates others firstLegal othersLegal =>
      cases separates with
      | semicolon kind =>
          simpa [kind, or_imp, forall_and] using ⟨firstLegal, othersLegal⟩
      | nothing distinct =>
          simpa [or_imp, forall_and] using ⟨firstLegal, othersLegal⟩
  | gap loss others othersLegal =>
      exact (lossless loss).elim

end Legality

/--
A line as it is entered: it ends with a line end, it is read without a complaint,
and if there is anything on it, then a semicolon comes last.
-/
structure CompleteLine (file line : String) : Prop where
  ended : line.toList.getLast? = some '\n'
  clean : (Parsed.ofSource true line file).diagnostics = []
  final :
    ∀ token ∈ (TokenStream.beforeEnd (tokenize line file)).getLast?,
      token.kind = .semicolon

/-- The tokens of a line. -/
def lineTokens (file line : String) : List Token :=
  TokenStream.beforeEnd (tokenize line file)

section Reading

variable {file line : String} {lines : List String}

/-- A line that is read without a complaint has no quote left open. -/
theorem CompleteLine.closed
    (complete : CompleteLine file line) :
    unclosedQuote ∉ readings line.toList := by
  have clean := complete.clean
  rw [← Token.map_reading_tokenize line file]
  rw [Parsed.ofSource] at clean
  generalize tokenize line file = tokens at clean ⊢
  intro member
  obtain ⟨quote, inside, isQuote⟩ := List.mem_map.mp member
  obtain ⟨missing, -, -, reading⟩ := Parsed.reads_ofTokens true tokens
  have legal := reading.legal (by simp [clean])
  exact legal quote (List.mem_append_left _ inside) (congrArg Prod.fst isQuote)

theorem noEnd_lineTokens :
    ∀ token ∈ lineTokens file line, token.kind ≠ .endOfInput :=
  fun _ member => TokenStream.kind_ne_of_mem_beforeEnd member

/-- The tokens of lines that follow each other are those of the joined text. -/
theorem map_reading_lineTokens
    (complete : ∀ line ∈ lines, CompleteLine file line) :
    (lines.flatMap (lineTokens file)).map Token.reading =
      readings (String.join lines).toList := by
  have ended : ∀ line ∈ lines, ∃ text, line.toList = text ++ ['\n'] :=
    fun line member => List.getLast?_eq_some_iff.mp (complete line member).ended
  rw [String.toList_join,
    readings_lines ended fun line member => (complete line member).closed,
    List.map_flatMap]
  simp only [lineTokens, Token.map_reading_tokenize]

/-- Tokens read as a text is are displaced from those of the text. -/
theorem displaced_of_tokens
    {tokens : List Token}
    {source : String}
    (noEnd : ∀ token ∈ tokens, token.kind ≠ .endOfInput)
    (same : tokens.map Token.reading = readings source.toList) :
    (TokenStream.ofTokens tokens).Displaced
      (TokenStream.ofTokens (tokenize source file)) := by
  constructor
  · simp only [TokenStream.ofTokens, Token.map_reading_tokenize,
      TokenStream.beforeEnd_eq noEnd, same]
  · have implied := TokenStream.endOf_append noEnd []
    rw [List.append_nil] at implied
    rw [TokenStream.last_tokenize]
    simp only [TokenStream.ofTokens, implied]
    rfl

/-- What is read from such tokens is the bare program of the text. -/
theorem Parsed.bare_ofTokens_eq
    {tokens : List Token}
    {source : String}
    (strictBlocks : Bool)
    (given : SourceTokens (TokenStream.beforeEnd tokens))
    (displaced :
      (TokenStream.ofTokens tokens).Displaced
        (TokenStream.ofTokens (tokenize source file))) :
    (ofTokens strictBlocks tokens).program.bare =
        (ofSource strictBlocks source file).program.bare ∧
      (ofSource strictBlocks source file).messages =
        (ofTokens strictBlocks tokens).messages := by
  obtain ⟨same, messages⟩ := alike_ofStream strictBlocks displaced
  have sourced := sourced_ofTokens strictBlocks given
  have otherSourced := sourced_ofSource strictBlocks source file
  exact ⟨congrArg Program.mk
    (Statement.bareAll_eq _ _ sourced otherSourced same), messages⟩

theorem sourceTokens_lineTokens : SourceTokens (lineTokens file line) :=
  fun _ member _ => Token.admits_of_mem_tokenize member

/-- The tokens of a line alone are read as the line is. -/
theorem Parsed.ofTokens_lineTokens (strictBlocks : Bool) (file line : String) :
    (ofTokens strictBlocks (lineTokens file line)).program.bare =
        (ofSource strictBlocks line file).program.bare ∧
      (ofSource strictBlocks line file).messages =
        (ofTokens strictBlocks (lineTokens file line)).messages := by
  have given :
      SourceTokens (TokenStream.beforeEnd (lineTokens file line)) := by
    rw [TokenStream.beforeEnd_eq noEnd_lineTokens]
    exact sourceTokens_lineTokens
  exact bare_ofTokens_eq strictBlocks given
    (displaced_of_tokens noEnd_lineTokens (Token.map_reading_tokenize line file))

theorem Parsed.diagnostics_eq_nil_iff
    {parsed : Parsed} :
    parsed.diagnostics = [] ↔ parsed.messages = [] := by
  simp [messages]

theorem CompleteLine.clean_lineTokens
    (complete : CompleteLine file line) :
    (Parsed.ofTokens true (lineTokens file line)).diagnostics = [] := by
  have clean := Parsed.diagnostics_eq_nil_iff.mp complete.clean
  rw [(Parsed.ofTokens_lineTokens true file line).2] at clean
  exact Parsed.diagnostics_eq_nil_iff.mpr clean

/-- Lines are read one after the other, with open blocks closed or refused. -/
theorem Parsed.harvest_lines
    (strictBlocks : Bool)
    (complete : ∀ line ∈ lines, CompleteLine file line) :
    (ofTokens strictBlocks (lines.flatMap (lineTokens file))).harvest =
      ⟨lines.flatMap fun line =>
          (ofTokens true (lineTokens file line)).program.statements,
        []⟩ := by
  induction lines with
  | nil =>
      rfl
  | cons line others inductionHypothesis =>
      obtain ⟨completeLine, completeOthers⟩ := List.forall_mem_cons.mp complete
      have clean := completeLine.clean_lineTokens
      have closed :
          (ofTokens true (lineTokens file line)).harvest.LeavesNoneOpen := by
        simp [Harvest.LeavesNoneOpen, harvest, clean]
      rw [List.flatMap_cons,
        harvest_ofTokens_append noEnd_lineTokens completeLine.final
          strictBlocks _ closed,
        harvest_ofTokens_of_closed strictBlocks closed,
        inductionHypothesis completeOthers]
      simp [Harvest.andThen, harvest, clean]

/-- The program that the programs of lines make up. -/
def linesProgram (file : String) (lines : List String) : Program :=
  ⟨lines.flatMap fun line =>
    (Parsed.ofSource true line file).program.statements⟩

theorem Statement.bareAll_eq_map (trees : List Statement) :
    bareAll trees = trees.map bare := by
  induction trees with
  | nil =>
      rfl
  | cons first rest inductionHypothesis =>
      rw [bareAll, List.map_cons, inductionHypothesis]

/-- Lines in one text are the program that their programs make up. -/
theorem Parsed.ofSource_join
    (strictBlocks : Bool)
    (wholeFile : String)
    (complete : ∀ line ∈ lines, CompleteLine file line) :
    (ofSource strictBlocks (String.join lines) wholeFile).diagnostics = [] ∧
      (ofSource strictBlocks (String.join lines) wholeFile).program.bare =
        (linesProgram file lines).bare := by
  have noEnd :
      ∀ token ∈ lines.flatMap (lineTokens file), token.kind ≠ .endOfInput := by
    intro token member
    obtain ⟨line, -, inside⟩ := List.mem_flatMap.mp member
    exact noEnd_lineTokens token inside
  have given :
      SourceTokens
        (TokenStream.beforeEnd (lines.flatMap (lineTokens file))) := by
    rw [TokenStream.beforeEnd_eq noEnd]
    intro token member
    obtain ⟨line, -, inside⟩ := List.mem_flatMap.mp member
    exact sourceTokens_lineTokens token inside
  have harvested := harvest_lines strictBlocks complete
  obtain ⟨sameBare, sameMessages⟩ :=
    bare_ofTokens_eq strictBlocks given
      (displaced_of_tokens noEnd (map_reading_lineTokens complete))
  constructor
  · rw [diagnostics_eq_nil_iff, sameMessages, ← diagnostics_eq_nil_iff]
    exact congrArg Harvest.diagnostics harvested
  · have statements := congrArg Harvest.statements harvested
    simp only [harvest] at statements
    have sameLines
        (line : String) :
        (ofTokens true (lineTokens file line)).program.statements.map
            Statement.bare =
          (ofSource true line file).program.statements.map Statement.bare := by
      have same :=
        congrArg Program.statements (ofTokens_lineTokens true file line).1
      simpa only [Program.bare, Statement.bareAll_eq_map] using same
    rw [← sameBare, Program.bare, statements]
    simp only [linesProgram, Program.bare, Statement.bareAll_eq_map,
      List.map_flatMap, sameLines]

end Reading

section Evaluating

variable {apply : Application} {scope : ScopeId}

/-- Statements after a list that does not return go on where it has ended. -/
theorem Statement.evaluateAll_append
    {front : List Statement}
    {last value : Value}
    {heap middle : Heap}
    (back : List Statement)
    (ran : evaluateAll apply scope front last heap = ⟨.ok value, middle⟩)
    (unmarked : value.Unmarked) :
    evaluateAll apply scope (front ++ back) last heap =
      evaluateAll apply scope back value middle := by
  induction front generalizing last heap with
  | nil =>
      rw [evaluateAll] at ran
      cases ran
      rfl
  | cons first rest inductionHypothesis =>
      rw [evaluateAll, Evaluation.bind_eq_ok_iff] at ran
      obtain ⟨firstValue, between, ranFirst, ranRest⟩ := ran
      rw [List.cons_append, evaluateAll]
      simp only [bind, Evaluation.andThen, ranFirst]
      cases firstValue with
      | returned inner =>
          cases ranRest
          exact unmarked.elim
      | _ =>
          exact inductionHypothesis ranRest

/-- The value given counts only where there is no statement. -/
theorem Statement.evaluateAll_given
    {trees : List Statement}
    (nonempty : trees ≠ [])
    (last other : Value) :
    evaluateAll apply scope trees last = evaluateAll apply scope trees other := by
  cases trees with
  | nil =>
      contradiction
  | cons first rest =>
      rw [evaluateAll, evaluateAll]

end Evaluating

/-- The evaluation of a program ends with a `return` outside of all functions. -/
def Program.endsInReturn
    (limit : Nat)
    (scope : ScopeId)
    (program : Program)
    (heap : Heap) :
    Bool :=
  match
    (Statement.evaluateAll (Evaluation.applyWithin limit) scope
      program.statements .null heap).result with
  | .ok (.returned _) => true
  | _ => false

/--
Evaluate the programs of lines one after the other in one scope.  The value is
that of the last line with a statement, or the value given if there is none.
There is none of it all when a line ends in a failure, or with a `return` outside
of all functions.
-/
def enterLines?
    (limit : Nat)
    (file : String)
    (scope : ScopeId) :
    List String → Value → Heap → Option (Value × Heap)
  | [], last, heap =>
      some (last, heap)
  | line :: others, last, heap =>
      let program := (Parsed.ofSource true line file).program
      if program.endsInReturn limit scope heap then
        none
      else
        match program.evaluate limit scope heap with
        | ⟨.error _, _⟩ =>
            none
        | ⟨.ok value, after⟩ =>
            enterLines? limit file scope others
              (if program.isEmpty then last else value) after

section Entering

variable {limit : Nat} {file : String} {scope : ScopeId}

/-- A program that does not return ends with the value of its last statement. -/
theorem Program.evaluateAll_of_evaluate
    {program : Program}
    {value : Value}
    {heap after : Heap}
    (last : Value)
    (goesOn : program.endsInReturn limit scope heap = false)
    (ran : program.evaluate limit scope heap = ⟨.ok value, after⟩)
    (unmarked : last.Unmarked) :
    let ending := if program.isEmpty then last else value
    ending.Unmarked ∧
      Statement.evaluateAll (Evaluation.applyWithin limit) scope
        program.statements last heap = ⟨.ok ending, after⟩ := by
  rw [Program.evaluate, Evaluation.bind_eq_ok_iff] at ran
  obtain ⟨marked, middle, ranAll, ended⟩ := ran
  cases ended
  have valueUnmarked : marked.Unmarked := by
    rw [endsInReturn, ranAll] at goesOn
    cases marked with
    | returned inner =>
        contradiction
    | _ =>
        exact trivial
  have same : marked.unmarked = marked := by
    cases marked with
    | returned inner =>
        exact valueUnmarked.elim
    | _ =>
        rfl
  by_cases empty : program.statements = []
  · rw [empty, Statement.evaluateAll] at ranAll
    cases ranAll
    simp only [isEmpty, empty, List.isEmpty_nil, ↓reduceIte]
    exact ⟨unmarked, by rw [Statement.evaluateAll]; rfl⟩
  · simp only [isEmpty, List.isEmpty_iff, empty, ↓reduceIte, same]
    rw [Statement.evaluateAll_given empty last .null]
    exact ⟨valueUnmarked, ranAll⟩

/-- Entering lines is evaluating the program that their programs make up. -/
theorem evaluateAll_of_enterLines?
    {lines : List String}
    {last value : Value}
    {heap after : Heap}
    (entered :
      enterLines? limit file scope lines last heap = some (value, after))
    (unmarked : last.Unmarked) :
    value.Unmarked ∧
      Statement.evaluateAll (Evaluation.applyWithin limit) scope
        (linesProgram file lines).statements last heap = ⟨.ok value, after⟩ := by
  induction lines generalizing last heap with
  | nil =>
      cases entered
      refine ⟨unmarked, ?_⟩
      simp only [linesProgram, List.flatMap_nil]
      rw [Statement.evaluateAll]
      rfl
  | cons line others inductionHypothesis =>
      simp only [enterLines?] at entered
      split at entered
      · cases entered
      · rename_i goesOn
        split at entered
        · cases entered
        · rename_i lineValue between ran
          obtain ⟨lineUnmarked, ranLine⟩ :=
            Program.evaluateAll_of_evaluate last (by simpa using goesOn) ran
              unmarked
          obtain ⟨valueUnmarked, ranOthers⟩ :=
            inductionHypothesis entered lineUnmarked
          refine ⟨valueUnmarked, ?_⟩
          simp only [linesProgram, List.flatMap_cons]
          rw [Statement.evaluateAll_append _ ranLine lineUnmarked]
          exact ranOthers

/-- The program that lines make up ends as entering them does. -/
theorem evaluate_linesProgram
    {lines : List String}
    {value : Value}
    {heap after : Heap}
    (entered :
      enterLines? limit file scope lines .null heap = some (value, after)) :
    (linesProgram file lines).evaluate limit scope heap = ⟨.ok value, after⟩ := by
  obtain ⟨unmarked, ran⟩ := evaluateAll_of_enterLines? entered trivial
  rw [Program.evaluate, Evaluation.bind_eq_ok_iff]
  refine ⟨value, after, ran, ?_⟩
  cases value with
  | returned inner =>
      exact unmarked.elim
  | _ =>
      rfl

end Entering

namespace Session

/--
Complete lines that are entered one after the other, none of which fails or
returns, come to what the text does that they make up.  It is read without a
complaint, whether blocks may be left open or not.  Evaluated in a new session,
it ends with a value that looks like the one the lines end with, and what names
are bound to in the end looks alike too.
-/
theorem lines_as_one_text
    (limit : Nat)
    (strictBlocks : Bool)
    (file wholeFile : String)
    (lines : List String)
    (complete : ∀ line ∈ lines, CompleteLine file line)
    {value : Value}
    {heap : Heap}
    (entered :
      enterLines? limit file new.scope lines .null new.heap =
        some (value, heap)) :
    let whole := Parsed.ofSource strictBlocks (String.join lines) wholeFile
    whole.diagnostics = [] ∧
      ∃ result after,
        whole.program.evaluate limit new.scope new.heap = ⟨.ok result, after⟩ ∧
          result.LooksLike value ∧
          ∀ name,
            Option.Rel Value.LooksLike
              (after.lookup? new.scope name)
              (heap.lookup? new.scope name) := by
  intro whole
  obtain ⟨clean, sameBare⟩ :=
    Parsed.ofSource_join strictBlocks wholeFile complete
  have alike :=
    Program.alikeFrom_of_bare_eq sameBare limit new.scope new.heap
  rw [evaluate_linesProgram entered] at alike
  refine ⟨clean, ?_⟩
  rcases ran : whole.program.evaluate limit new.scope new.heap with
    ⟨failure | result, after⟩
  · rw [ran] at alike
    cases failure with
    | fault diagnostic =>
        exact alike.result.elim
    | tooManyCalls =>
        exact alike.result.elim
  · rw [ran] at alike
    exact ⟨result, after, rfl, alike.result, alike.names⟩

/--
A function that is bound on one line, a line with a comment and a quote in it,
an empty line, and lines that bind the name anew which the function refers to.
-/
def enteredLines : List String :=
  [ "let k = 1; let add = fn(x) \x7b x + k \x7d; \n",
    "// a \" on its own\n",
    "\n",
    "let k = 40;\n",
    "if (k < add(1)) \x7b add(2) \x7d;\n",
    "// done\n" ]

theorem lines_as_one_text_closure :
    (∀ line ∈ enteredLines, CompleteLine "" line) ∧
      ∃ value heap,
        enterLines? 3 "" new.scope enteredLines .null new.heap =
            some (value, heap) ∧
          value.text = "42" ∧
          (Parsed.ofSource false (String.join enteredLines) "a").diagnostics = [] ∧
          ∃ result after,
            (Parsed.ofSource false (String.join enteredLines)
                "a").program.evaluate 3 new.scope new.heap =
                ⟨.ok result, after⟩ ∧
              result.LooksLike value ∧
              ∀ name,
                Option.Rel Value.LooksLike
                  (after.lookup? new.scope name)
                  (heap.lookup? new.scope name) := by
  have ended : ∀ line ∈ enteredLines, line.toList.getLast? = some '\n' := by
    decide +kernel
  have clean :
      ∀ line ∈ enteredLines, (Parsed.ofSource true line "").diagnostics = [] := by
    decide +kernel
  have final :
      ∀ line ∈ enteredLines,
        ∀ token ∈ (TokenStream.beforeEnd (tokenize line "")).getLast?,
          token.kind = .semicolon := by
    decide +kernel
  have complete : ∀ line ∈ enteredLines, CompleteLine "" line :=
    fun line member => ⟨ended line member, clean line member, final line member⟩
  have text :
      (enterLines? 3 "" new.scope enteredLines .null new.heap).map
        (fun ending => ending.1.text) = some "42" := by
    decide +kernel
  obtain ⟨⟨value, heap⟩, entered, isText⟩ := Option.map_eq_some_iff.mp text
  exact ⟨complete, value, heap, entered, isText,
    lines_as_one_text 3 false "" "a" enteredLines complete entered⟩

end Session

end Scriptlet
