import Mathlib.Data.List.MinMax
import Scriptlet.Proofs.Parse.Respaced

namespace Scriptlet

/-!
# The first match is the longest

The rules of the lexical grammar are tried in order, and the first that matches decides
what a text starts with.  The order is one of convenience: of all the rules that match,
the first has the longest match, and no other rule has one as long.  So a scanner that
takes the longest match, whatever order it has the rules in, hands out the same tokens.
-/

namespace LexicalRule

/-- The rule is one of the rules, and its match is longer than that of any other. -/
structure LongestMatch
    (rules : List LexicalRule)
    (characters : List Char)
    (rule : LexicalRule)
    (lexeme : List Char) :
    Prop where
  member : rule ∈ rules
  matched : rule.lexeme? characters = some lexeme
  longer :
    ∀ other ∈ rules, other ≠ rule →
      ∀ otherLexeme, other.lexeme? characters = some otherLexeme →
        Text.byteSize otherLexeme < Text.byteSize lexeme

/-- No rule of the table matches a text that starts with the character. -/
def OpensNothing (character : Char) : Prop :=
  ∀ rule ∈ table, ∀ rest, rule.lexeme? (character :: rest) = none

/-- What the rules that match have matched, in the order of the rules. -/
def matchesOf
    (rules : List LexicalRule)
    (characters : List Char) :
    List (LexicalRule × List Char) :=
  rules.filterMap fun rule =>
    (rule.lexeme? characters).map fun lexeme => (rule, lexeme)

/-- The longest match of the rules; of equally long ones that of the earliest rule. -/
def longestMatch?
    (rules : List LexicalRule)
    (characters : List Char) :
    Option (LexicalRule × List Char) :=
  (matchesOf rules characters).argmax fun found => Text.byteSize found.2

section Matching

variable
  {rule other : LexicalRule}
  {characters lexeme otherLexeme rest : List Char}
  {character : Char}
  {text : String}
  {kind : TokenKind}

theorem firstMatch?_eq_none_iff_forall :
    firstMatch? characters = none ↔
      ∀ rule ∈ table, rule.lexeme? characters = none := by
  simp [firstMatch?, List.findSome?_eq_none_iff]

theorem run?_cons_eq_some_iff
    {test : Char → Bool} :
    run? test (character :: rest) = some lexeme ↔
      test character = true ∧ character :: rest.takeWhile test = lexeme := by
  unfold run?
  rw [List.takeWhile_cons]
  cases test character with
  | false =>
      simp
  | true =>
      simp

theorem word?_cons_eq_some_iff :
    word? (character :: rest) = some lexeme ↔
      startsWord character = true ∧
        character :: rest.takeWhile continuesWord = lexeme := by
  simp [word?]

/-- A string starts with a quote that a later one closes. -/
theorem string?_cons_eq_some
    (matched : string? (character :: rest) = some lexeme) :
    character = '"' ∧ '"' ∈ rest := by
  have closed : ¬ string? (character :: rest) = none := by
    rw [matched]
    exact Option.some_ne_none lexeme
  rw [string?_cons_eq_none_iff] at closed
  simpa using closed

theorem comment?_eq_some_slashes
    (matched : comment? characters = some lexeme) :
    ∃ others, characters = '/' :: '/' :: others := by
  match characters, matched with
  | first :: second :: others, matched =>
      simp only [comment?] at matched
      split at matched
      · rename_i slashes
        exact ⟨others, by rw [slashes.1, slashes.2]⟩
      · contradiction

/-- Where it stands in front of a text, what a rule has matched makes the rule match. -/
theorem exists_lexeme_of_prefix
    (member : rule ∈ table)
    (matched : rule.lexeme? characters = some lexeme)
    (front : lexeme <+: rest) :
    ∃ longer, rule.lexeme? rest = some longer := by
  obtain ⟨nonempty, isFront⟩ := lexeme?_eq_some member matched
  obtain ⟨first, others, rfl⟩ := List.exists_cons_of_ne_nil nonempty
  obtain ⟨after, rfl⟩ := front
  obtain ⟨afterMatch, rfl⟩ := isFront
  rw [List.cons_append] at matched ⊢
  cases rule with
  | word =>
      exact ⟨_, word?_cons_eq_some_iff.mpr ⟨(word?_cons_eq_some_iff.mp matched).1, rfl⟩⟩
  | number =>
      exact ⟨_, run?_cons_eq_some_iff.mpr ⟨(run?_cons_eq_some_iff.mp matched).1, rfl⟩⟩
  | blanks =>
      exact ⟨_, run?_cons_eq_some_iff.mpr ⟨(run?_cons_eq_some_iff.mp matched).1, rfl⟩⟩
  | string =>
      have isString : string? (first :: (others ++ afterMatch)) = some (first :: others) :=
        matched
      obtain ⟨rfl, -⟩ := string?_cons_eq_some isString
      have inside : '"' ∈ others := by
        rw [(List.cons.inj (string?_quoted isString)).2]
        exact List.mem_append_right _ List.mem_cons_self
      apply Option.ne_none_iff_exists'.mp
      intro unmatched
      have unclosed : string? ('"' :: (others ++ after)) = none :=
        unmatched
      exact string?_cons_eq_none_iff.mp unclosed rfl (List.mem_append_left after inside)
  | comment =>
      have isComment :
          comment? (first :: others ++ afterMatch) = some (first :: others) :=
        matched
      obtain ⟨line, shape, -, -⟩ := comment?_line isComment
      obtain ⟨rfl, rfl⟩ := List.cons.inj shape
      exact ⟨'/' :: '/' :: (line ++ after).takeWhile (· != '\n'),
        by simp [lexeme?, comment?]⟩
  | symbol text kind =>
      simp only [lexeme?, symbol?] at matched ⊢
      split at matched
      · rw [Option.some.inj matched]
        exact ⟨_, if_pos (List.isPrefixOf_iff_prefix.mpr (List.prefix_append _ _))⟩
      · contradiction

/-- A rule that is no symbol is the first to match wherever it matches at all. -/
theorem firstMatch?_of_no_symbol
    (noSymbol : ∀ text kind, rule ≠ .symbol text kind)
    (matched : rule.lexeme? (character :: rest) = some lexeme) :
    firstMatch? (character :: rest) = some (rule, lexeme) := by
  cases rule with
  | word =>
      exact firstMatch?_at 0 rfl (List.forall_mem_nil _) matched
  | number =>
      have digit := (run?_cons_eq_some_iff.mp matched).1
      refine firstMatch?_at 1 rfl ?_ matched
      simp [table, lexeme?, word?, startsWord_of_isDigit digit]
  | blanks =>
      have blank := (run?_cons_eq_some_iff.mp matched).1
      rw [firstMatch?_blanks blank, ← (run?_cons_eq_some_iff.mp matched).2]
  | string =>
      obtain ⟨rfl, -⟩ := string?_cons_eq_some matched
      refine firstMatch?_at 3 rfl ?_ matched
      simp only [table, List.take_succ_cons, List.take_zero, List.forall_mem_cons]
      exact ⟨rfl, rfl, rfl, List.forall_mem_nil _⟩
  | comment =>
      obtain ⟨others, shape⟩ := comment?_eq_some_slashes matched
      rw [shape] at matched ⊢
      refine firstMatch?_at 4 rfl ?_ matched
      simp only [table, List.take_succ_cons, List.take_zero, List.forall_mem_cons]
      exact ⟨rfl, rfl, rfl, rfl, List.forall_mem_nil _⟩
  | symbol text kind =>
      exact (noSymbol text kind rfl).elim

/--
A symbol that matches, but is not the first to match, goes on as what is.  Else the
first match would be part of the symbol, and the text of the symbol on its own would be
matched by an earlier rule.
-/
theorem size_lt_of_symbol
    (found : firstMatch? characters = some (rule, lexeme))
    (member : symbol text kind ∈ table)
    (other : symbol text kind ≠ rule)
    (front : text.toList <+: characters) :
    Text.byteSize text.toList < Text.byteSize lexeme := by
  obtain ⟨ruleMember, matched⟩ := firstMatch?_eq_some found
  have isFront := (lexeme?_eq_some ruleMember matched).2
  apply Decidable.byContradiction
  intro notLonger
  have inside : lexeme <+: text.toList :=
    Text.prefix_of_byteSize_le isFront front (Nat.le_of_not_lt notLonger)
  obtain ⟨earlier, tried, later, listed, triedFound, missed⟩ :=
    List.findSome?_eq_some_iff.mp found
  obtain ⟨triedLexeme, triedMatched, sameRule⟩ := Option.map_eq_some_iff.mp triedFound
  obtain ⟨rfl, rfl⟩ := Prod.mk.inj sameRule
  -- On the text of the symbol alone the same rule is the first to match.
  obtain ⟨longer, alone⟩ := exists_lexeme_of_prefix ruleMember matched inside
  have unmatched (skipped : LexicalRule) (isEarlier : skipped ∈ earlier) :
      skipped.lexeme? text.toList = none := by
    have skippedMember : skipped ∈ table := by
      rw [listed]
      exact List.mem_append_left _ isEarlier
    apply Option.eq_none_iff_forall_ne_some.mpr
    intro part skippedMatched
    have partFront := (lexeme?_eq_some skippedMember skippedMatched).2
    obtain ⟨whole, wholeMatched⟩ :=
      exists_lexeme_of_prefix skippedMember skippedMatched (partFront.trans front)
    have missedHere := missed skipped isEarlier
    rw [wholeMatched] at missedHere
    contradiction
  have foundAlone : firstMatch? text.toList = some (tried, longer) := by
    rw [firstMatch?, List.findSome?_eq_some_iff]
    refine ⟨earlier, tried, later, listed, by rw [alone]; rfl, ?_⟩
    intro skipped isEarlier
    rw [unmatched skipped isEarlier]
    rfl
  have foundSymbol : firstMatch? (text.toList ++ []) =
      some (.symbol text kind, text.toList) :=
    firstMatch?_symbol member fun _ _ never => by cases never
  rw [List.append_nil, foundAlone] at foundSymbol
  exact other (Prod.mk.inj (Option.some.inj foundSymbol)).1.symm

/-- The first match is longer than that of every other rule. -/
theorem longestMatch_of_firstMatch?
    (found : firstMatch? (character :: rest) = some (rule, lexeme)) :
    LongestMatch table (character :: rest) rule lexeme := by
  obtain ⟨member, matched⟩ := firstMatch?_eq_some found
  refine ⟨member, matched, ?_⟩
  intro other otherMember distinct otherLexeme otherMatched
  by_cases isSymbol : ∃ text kind, other = .symbol text kind
  · obtain ⟨text, kind, rfl⟩ := isSymbol
    simp only [lexeme?, symbol?] at otherMatched
    split at otherMatched
    · rename_i front
      obtain rfl := Option.some.inj otherMatched
      exact size_lt_of_symbol found otherMember distinct
        (List.isPrefixOf_iff_prefix.mp front)
    · contradiction
  · have foundOther : firstMatch? (character :: rest) = some (other, otherLexeme) :=
      firstMatch?_of_no_symbol (fun text kind same => isSymbol ⟨text, kind, same⟩)
        otherMatched
    rw [found] at foundOther
    exact (distinct (Prod.mk.inj (Option.some.inj foundOther)).1.symm).elim

/-- Nothing matches what opens nothing, and what a quote opens that nothing closes. -/
theorem unmatched_iff :
    (∀ rule ∈ table, rule.lexeme? (character :: rest) = none) ↔
      OpensNothing character ∨ character = '"' ∧ '"' ∉ rest := by
  rw [← firstMatch?_eq_none_iff_forall, firstMatch?_eq_none_iff]
  constructor
  · rintro ⟨nothing, unclosed⟩
    by_cases quote : character = '"'
    · exact .inr ⟨quote, unclosed quote⟩
    · refine .inl fun rule member others => ?_
      have unmatched : firstMatch? (character :: others) = none :=
        firstMatch?_eq_none_iff.mpr ⟨nothing, fun same => (quote same).elim⟩
      exact firstMatch?_eq_none_iff_forall.mp unmatched rule member
  · rintro (nothing | ⟨rfl, unclosed⟩)
    · rw [← firstMatch?_eq_none_iff, firstMatch?_eq_none_iff_forall]
      exact fun rule member => nothing rule member rest
    · exact ⟨by unfold StartsNothing; decide, fun _ => unclosed⟩

end Matching

section Longest

variable
  {rules : List LexicalRule}
  {rule : LexicalRule}
  {characters lexeme : List Char}

theorem mem_matchesOf :
    (rule, lexeme) ∈ matchesOf rules characters ↔
      rule ∈ rules ∧ rule.lexeme? characters = some lexeme := by
  simp [matchesOf, List.mem_filterMap]

/-- Where one match is longer than all others, it is the longest one. -/
theorem LongestMatch.longestMatch?_eq
    (longest : LongestMatch rules characters rule lexeme) :
    longestMatch? rules characters = some (rule, lexeme) := by
  have isMatch := mem_matchesOf.mpr ⟨longest.member, longest.matched⟩
  cases found : longestMatch? rules characters with
  | none =>
      rw [List.argmax_eq_none.mp found] at isMatch
      contradiction
  | some best =>
      obtain ⟨bestRule, bestLexeme⟩ := best
      obtain ⟨member, matched⟩ := mem_matchesOf.mp (List.argmax_mem found)
      have notLonger : Text.byteSize lexeme ≤ Text.byteSize bestLexeme :=
        List.le_of_mem_argmax
          (f := fun found : LexicalRule × List Char => Text.byteSize found.2)
          isMatch found
      have same : bestRule = rule := by
        apply Decidable.byContradiction
        intro distinct
        have shorter := longest.longer bestRule member distinct bestLexeme matched
        omega
      subst same
      rw [longest.matched] at matched
      rw [Option.some.inj matched]

/-- In whatever order the rules stand, their longest match is the first of the table. -/
theorem longestMatch?_of_perm
    (order : rules.Perm table)
    (characters : List Char) :
    longestMatch? rules characters = firstMatch? characters := by
  cases found : firstMatch? characters with
  | none =>
      rw [firstMatch?_eq_none_iff_forall] at found
      have none : matchesOf rules characters = [] := by
        rw [matchesOf, List.filterMap_eq_nil_iff]
        intro rule member
        rw [found rule (order.mem_iff.mp member)]
        rfl
      rw [longestMatch?, none, List.argmax_nil]
  | some best =>
      obtain ⟨rule, lexeme⟩ := best
      cases characters with
      | nil =>
          obtain ⟨member, matched⟩ := firstMatch?_eq_some found
          obtain ⟨nonempty, front⟩ := lexeme?_eq_some member matched
          exact (nonempty (List.prefix_nil.mp front)).elim
      | cons character rest =>
          obtain ⟨member, matched, longer⟩ := longestMatch_of_firstMatch? found
          exact LongestMatch.longestMatch?_eq ⟨order.mem_iff.mpr member, matched,
            fun other isOther => longer other (order.mem_iff.mp isOther)⟩

end Longest

end LexicalRule

/-- Cut a piece off a text at a byte offset by the longest match of the rules. -/
def Piece.cutLongest?
    (rules : List LexicalRule)
    (offset : Nat) :
    List Char → Option (Piece × List Char)
  | [] =>
      none
  | character :: rest =>
      match LexicalRule.longestMatch? rules (character :: rest) with
      | some (rule, lexeme) =>
          some (⟨offset, lexeme, rule.reading? lexeme⟩,
            (character :: rest).drop lexeme.length)
      | none =>
          some (⟨offset, [character], some (.illegal, character.toString)⟩, rest)

/--
What scanning by longest match hands out from a text at a byte offset: the first token,
the offset at which it stops, and the text behind it.  Pieces that stand for no token
are passed over.
-/
inductive Munches
    (rules : List LexicalRule)
    (file : String) :
    Nat → List Char → Token → Nat → List Char → Prop where
  | finish
      {offset : Nat} :
      Munches rules file offset []
        (Token.endOfInput (Span.ofOffset file offset 0)) offset []
  | skip
      {offset stop : Nat}
      {characters others rest : List Char}
      {piece : Piece}
      {token : Token}
      (cut : Piece.cutLongest? rules offset characters = some (piece, others))
      (silent : piece.token? file = none)
      (later : Munches rules file piece.stop others token stop rest) :
      Munches rules file offset characters token stop rest
  | token
      {offset : Nat}
      {characters rest : List Char}
      {piece : Piece}
      {token : Token}
      (cut : Piece.cutLongest? rules offset characters = some (piece, rest))
      (made : piece.token? file = some token) :
      Munches rules file offset characters token piece.stop rest

section Scanning

variable
  {rules : List LexicalRule}
  {file : String}
  {offset stop count : Nat}
  {characters others rest : List Char}
  {piece : Piece}
  {token made : Token}

/-- In whatever order the rules stand, the longest match cuts off the first piece. -/
theorem Piece.cutLongest?_of_perm
    (order : rules.Perm LexicalRule.table) :
    cutLongest? rules offset characters = cut? offset characters := by
  cases characters with
  | nil =>
      rfl
  | cons character rest =>
      rw [cutLongest?, cut?, first, LexicalRule.longestMatch?_of_perm order]
      cases LexicalRule.firstMatch? (character :: rest) with
      | none =>
          rfl
      | some found =>
          rfl

theorem munches_nil_iff :
    Munches rules file offset [] token stop rest ↔
      token = Token.endOfInput (Span.ofOffset file offset 0) ∧
        stop = offset ∧
        rest = [] := by
  constructor
  · intro munches
    cases munches with
    | finish =>
        exact ⟨rfl, rfl, rfl⟩
    | skip cut silent later =>
        contradiction
    | token cut made =>
        contradiction
  · rintro ⟨rfl, rfl, rfl⟩
    exact .finish

theorem munches_iff_of_silent
    (cut : Piece.cutLongest? rules offset characters = some (piece, others))
    (silent : piece.token? file = none) :
    Munches rules file offset characters token stop rest ↔
      Munches rules file piece.stop others token stop rest := by
  constructor
  · intro munches
    cases munches with
    | finish =>
        contradiction
    | skip otherCut otherSilent later =>
        obtain ⟨rfl, rfl⟩ := Prod.mk.inj (Option.some.inj (cut.symm.trans otherCut))
        exact later
    | token otherCut made =>
        obtain ⟨rfl, rfl⟩ := Prod.mk.inj (Option.some.inj (cut.symm.trans otherCut))
        rw [silent] at made
        contradiction
  · exact .skip cut silent

theorem munches_iff_of_token
    (cut : Piece.cutLongest? rules offset characters = some (piece, others))
    (isMade : piece.token? file = some made) :
    Munches rules file offset characters token stop rest ↔
      token = made ∧ stop = piece.stop ∧ rest = others := by
  constructor
  · intro munches
    cases munches with
    | finish =>
        contradiction
    | skip otherCut silent later =>
        obtain ⟨rfl, rfl⟩ := Prod.mk.inj (Option.some.inj (cut.symm.trans otherCut))
        rw [silent] at isMade
        contradiction
    | token otherCut otherMade =>
        obtain ⟨rfl, rfl⟩ := Prod.mk.inj (Option.some.inj (cut.symm.trans otherCut))
        exact ⟨Option.some.inj (otherMade.symm.trans isMade), rfl, rfl⟩
  · rintro ⟨rfl, rfl, rfl⟩
    exact .token cut isMade

/-- The first token of a text is the only one that the longest matches lead to. -/
theorem exists_munched
    (order : rules.Perm LexicalRule.table)
    (enough : characters.length ≤ count) :
    ∃ token stop rest bound,
      Scanner.firstToken file count offset characters =
          (token, ⟨rest, bound, 0, stop, file⟩) ∧
        ∀ munched munchedStop munchedRest,
          Munches rules file offset characters munched munchedStop munchedRest ↔
            munched = token ∧ munchedStop = stop ∧ munchedRest = rest := by
  induction count generalizing offset characters with
  | zero =>
      obtain rfl := List.length_eq_zero_iff.mp (Nat.le_zero.mp enough)
      exact ⟨_, _, _, _, rfl, fun _ _ _ => munches_nil_iff⟩
  | succ count inductionHypothesis =>
      cases found : Piece.cut? offset characters with
      | none =>
          cases characters with
          | nil =>
              exact ⟨_, _, _, _, rfl, fun _ _ _ => munches_nil_iff⟩
          | cons character others =>
              contradiction
      | some cutOff =>
          obtain ⟨piece, others⟩ := cutOff
          have cut := (Piece.cutLongest?_of_perm order).trans found
          have shorter := (Piece.cut?_eq_some found).2
          simp only [Scanner.firstToken, found]
          cases made : piece.token? file with
          | none =>
              obtain ⟨token, stop, rest, bound, first, only⟩ :=
                inductionHypothesis (show others.length ≤ count by omega)
              exact ⟨token, stop, rest, bound, first, fun munched _ _ =>
                (munches_iff_of_silent cut made).trans (only munched _ _)⟩
          | some token =>
              exact ⟨token, _, _, _, rfl, fun _ _ _ => munches_iff_of_token cut made⟩

end Scanning

namespace Scanner

/-- The scanner of the text after any calls that ask for a token or move it on. -/
inductive Reached (source file : String) : Scanner → Prop where
  | start :
      Reached source file (ofSource source file)
  | next
      {before after : Scanner}
      {token : Token}
      (earlier : Reached source file before)
      (handed : before.next? = some (token, after)) :
      Reached source file after
  | advance
      {before : Scanner}
      (earlier : Reached source file before)
      (count : Nat) :
      Reached source file (before.advance count)

/-- The scanner has the characters behind a front part of the text, and no more. -/
structure Within
    (source file : String)
    (scanner : Scanner) :
    Prop where
  file : scanner.file = file
  length_le : scanner.ahead.length ≤ scanner.bound
  split :
    ∃ front,
      front ++ scanner.ahead = source.toList ∧
        scanner.offset = Text.byteSize front + scanner.moved

variable {source file : String} {scanner after : Scanner} {token : Token}

/-- What is left of the text is what the scanner has left. -/
theorem Within.dropBytes?
    (within : scanner.Within source file) :
    Text.dropBytes? source.toList scanner.offset =
      Text.dropBytes? scanner.ahead scanner.moved := by
  obtain ⟨front, whole, offset⟩ := within.split
  rw [← whole, offset, Text.dropBytes?_append_add]

theorem Within.next
    (within : scanner.Within source file)
    (handed : scanner.next? = some (token, after)) :
    after.Within source file := by
  rw [next?] at handed
  cases cut : Text.dropBytes? scanner.ahead scanner.moved with
  | none =>
      simp only [cut] at handed
      split at handed
      · obtain ⟨-, rfl⟩ := Prod.mk.inj (Option.some.inj handed)
        exact within
      · contradiction
  | some characters =>
      simp only [cut] at handed
      obtain ⟨isFile, length_le, front, whole, offset⟩ := within
      obtain ⟨passed, rest, size⟩ := Text.dropBytes?_eq_some cut
      have short : characters.length ≤ scanner.bound := by
        rw [← rest, List.length_append] at length_le
        omega
      rw [← rest, ← List.append_assoc] at whole
      have hands :
          Hands scanner.file scanner.offset characters
            (firstToken scanner.file scanner.bound scanner.offset characters) :=
        hands_firstToken short
      rw [Option.some.inj handed, isFile, offset, ← size, ← Text.byteSize_append] at hands
      cases hands with
      | token before wholeCharacters stops tokens =>
          rename_i stop read behind
          refine ⟨before.file, by rw [before.ahead]; exact before.length_le,
            front ++ passed ++ read, ?_, ?_⟩
          · rw [before.ahead, List.append_assoc, wholeCharacters, whole]
          · rw [before.offset, before.moved, stops, Text.byteSize_append _ read,
              Nat.add_zero]
      | finish before tokens =>
          refine ⟨before.file, by rw [before.ahead]; exact before.length_le,
            front ++ passed ++ characters, ?_, ?_⟩
          · rw [before.ahead, List.append_nil, whole]
          · rw [before.offset, before.moved, Text.byteSize_append _ characters,
              Nat.add_zero]

/-- However it is used, a scanner stays within its text. -/
theorem Reached.within
    (reached : Reached source file scanner) :
    scanner.Within source file := by
  induction reached with
  | start =>
      exact ⟨rfl, Nat.le_of_eq String.length_toList, [], rfl, rfl⟩
  | next earlier handed inductionHypothesis =>
      exact inductionHypothesis.next handed
  | advance earlier count inductionHypothesis =>
      obtain ⟨isFile, length_le, front, whole, offset⟩ := inductionHypothesis
      refine ⟨isFile, length_le, front, whole, ?_⟩
      simp only [Scanner.advance, offset]
      omega

end Scanner

/--
A text is scanned by longest match.  Where rules of the table match, the first of them
has the longest match, and every other one a shorter; none matches exactly where the
text starts with a character that opens nothing, or with a quote that is not closed.
So in whatever order the rules are tried for the longest match, there is one token that
this leads to from anywhere in a text, and the scanner hands out that one.
-/
theorem scanned_by_longest_match :
    (∀ character rest,
      ((∃ rule ∈ LexicalRule.table,
          ∃ lexeme, rule.lexeme? (character :: rest) = some lexeme) →
        ∃ rule lexeme,
          LexicalRule.firstMatch? (character :: rest) = some (rule, lexeme) ∧
            LexicalRule.LongestMatch LexicalRule.table (character :: rest) rule
              lexeme) ∧
        ((∀ rule ∈ LexicalRule.table, rule.lexeme? (character :: rest) = none) ↔
          LexicalRule.OpensNothing character ∨ character = '"' ∧ '"' ∉ rest)) ∧
      ∀ rules source file scanner characters,
        rules.Perm LexicalRule.table →
          Scanner.Reached source file scanner →
            Text.dropBytes? source.toList scanner.offset = some characters →
              ∃ token stop rest bound,
                scanner.next? = some (token, ⟨rest, bound, 0, stop, file⟩) ∧
                  ∀ munched munchedStop munchedRest,
                    Munches rules file scanner.offset characters munched munchedStop
                        munchedRest ↔
                      munched = token ∧ munchedStop = stop ∧ munchedRest = rest := by
  refine ⟨fun character rest => ⟨?_, LexicalRule.unmatched_iff⟩, ?_⟩
  · rintro ⟨rule, member, lexeme, matched⟩
    have found : LexicalRule.firstMatch? (character :: rest) ≠ none := by
      intro unmatched
      have missed :=
        LexicalRule.firstMatch?_eq_none_iff_forall.mp unmatched rule member
      rw [matched] at missed
      contradiction
    obtain ⟨⟨first, firstLexeme⟩, isFirst⟩ := Option.ne_none_iff_exists'.mp found
    exact ⟨first, firstLexeme, isFirst, LexicalRule.longestMatch_of_firstMatch? isFirst⟩
  · intro rules source file scanner characters order reached cut
    have within := reached.within
    obtain rfl := within.file
    rw [within.dropBytes?] at cut
    obtain ⟨front, whole, -⟩ := Text.dropBytes?_eq_some cut
    have enough : characters.length ≤ scanner.bound := by
      have bounded := within.length_le
      rw [← whole, List.length_append] at bounded
      omega
    simp only [Scanner.next?, cut, Option.some.injEq]
    exact exists_munched order enough

/-- A word, a comment, and symbols of which one is longer than another. -/
def crowdedText : String :=
  "x//\n==="

/-- The scanner of the text, moved on to the comment. -/
def crowdedScanner : Scanner :=
  (Scanner.ofSource crowdedText "munch").advance 1

theorem scanned_by_longest_match_backwards :
    (∃ rule ∈ LexicalRule.table, ∃ lexeme,
      rule.lexeme? ('/' :: "/\n===".toList) = some lexeme) ∧
      (∃ rule lexeme,
        LexicalRule.firstMatch? ('/' :: "/\n===".toList) = some (rule, lexeme) ∧
          LexicalRule.LongestMatch LexicalRule.table ('/' :: "/\n===".toList) rule
            lexeme) ∧
      LexicalRule.table.reverse.Perm LexicalRule.table ∧
      Scanner.Reached crowdedText "munch" crowdedScanner ∧
      Text.dropBytes? crowdedText.toList crowdedScanner.offset =
        some "//\n===".toList ∧
      ∃ token stop rest bound,
        crowdedScanner.next? = some (token, ⟨rest, bound, 0, stop, "munch"⟩) ∧
          ∀ munched munchedStop munchedRest,
            Munches LexicalRule.table.reverse "munch" 1 "//\n===".toList munched
                munchedStop munchedRest ↔
              munched = token ∧ munchedStop = stop ∧ munchedRest = rest := by
  have matched :
      ∃ rule ∈ LexicalRule.table, ∃ lexeme,
        rule.lexeme? ('/' :: "/\n===".toList) = some lexeme :=
    ⟨.comment, by decide, ['/', '/'], by decide⟩
  have order : LexicalRule.table.reverse.Perm LexicalRule.table :=
    List.reverse_perm _
  have reached : Scanner.Reached crowdedText "munch" crowdedScanner :=
    .advance .start 1
  have cut :
      Text.dropBytes? crowdedText.toList crowdedScanner.offset =
        some "//\n===".toList := by
    decide
  exact ⟨matched, (scanned_by_longest_match.1 '/' "/\n===".toList).1 matched, order,
    reached, cut, scanned_by_longest_match.2 _ _ _ _ _ order reached cut⟩

end Scriptlet
