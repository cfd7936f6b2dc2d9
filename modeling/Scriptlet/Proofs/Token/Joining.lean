import Scriptlet.Proofs.Parse.Respaced

namespace Scriptlet

/-!
# Scanning lines that follow each other

A line end stops every piece but two: blanks go on over it, which makes no
difference to the tokens, and so does a string.  A line whose quotes are all
closed is therefore scanned on its own, and what follows it is scanned as if it
came first.
-/

namespace LexicalRule

variable {character : Char} {text rest : List Char}

/-- A test that a line end fails stops there. -/
theorem takeWhile_append_newline
    {test : Char → Bool}
    (stops : test '\n' = false) :
    (text ++ '\n' :: rest).takeWhile test = text.takeWhile test := by
  induction text with
  | nil =>
      simp [stops]
  | cons first others inductionHypothesis =>
      rw [List.cons_append, List.takeWhile_cons, List.takeWhile_cons,
        inductionHypothesis]

theorem word?_append_newline :
    word? (character :: text ++ '\n' :: rest) = word? (character :: text) := by
  simp only [word?, List.cons_append]
  rw [takeWhile_append_newline (by decide)]

theorem run?_append_newline
    {test : Char → Bool}
    (stops : test '\n' = false) :
    run? test (text ++ '\n' :: rest) = run? test text := by
  unfold run?
  rw [takeWhile_append_newline stops]

/-- Blanks do not start with a visible character. -/
theorem run?_of_visible
    {test : Char → Bool}
    (visible : test character = false) :
    run? test (character :: text) = none :=
  run?_cons_eq_none_iff.mpr visible

/-- A string whose second quote is on its line ends there; one without is none. -/
theorem string?_append_newline
    (closed : character = '"' → '"' ∈ text ∨ '"' ∉ rest) :
    string? (character :: text ++ '\n' :: rest) =
      string? (character :: text) := by
  by_cases opens : character = '"'
  · by_cases quoted : '"' ∈ text
    · obtain ⟨inside, after, rfl, unquoted⟩ :=
        List.eq_append_cons_of_mem quoted
      have passes : ∀ other ∈ inside, (other != '"') = true := by
        intro other member
        rw [bne_iff_ne]
        rintro rfl
        exact unquoted member
      simp [string?, opens, List.takeWhile_append_of_pos passes,
        List.dropWhile_append_of_pos passes]
    · have never := (closed opens).resolve_left quoted
      rw [List.cons_append, string?_cons_eq_none_iff.mpr fun _ => quoted,
        string?_cons_eq_none_iff.mpr fun _ => by simp [quoted, never]]
  · simp [string?, opens]

theorem comment?_append_newline :
    comment? (character :: text ++ '\n' :: rest) =
      comment? (character :: text) := by
  cases text with
  | nil =>
      simp [comment?]
  | cons second others =>
      simp only [comment?, List.cons_append]
      rw [takeWhile_append_newline (by decide)]

/-- No symbol of the table has a line end in it. -/
theorem symbol?_append_newline
    {sign : String}
    (oneLine : '\n' ∉ sign.toList) :
    symbol? sign (text ++ '\n' :: rest) = symbol? sign text := by
  have same :
      sign.toList <+: text ++ '\n' :: rest ↔ sign.toList <+: text := by
    constructor
    · intro front
      rcases Nat.lt_or_ge text.length sign.toList.length with longer | shorter
      · have whole : text ++ ['\n'] <+: sign.toList := by
          refine List.prefix_of_prefix_length_le ⟨rest, by simp⟩ front ?_
          rw [List.length_append]
          exact longer
        exact (oneLine (whole.subset (by simp))).elim
      · exact List.prefix_of_prefix_length_le front (List.prefix_append _ _)
          shorter
    · intro front
      exact front.trans (List.prefix_append _ _)
  unfold symbol?
  simp only [List.isPrefixOf_iff_prefix, same]

theorem lexeme?_append_newline
    {rule : LexicalRule}
    (member : rule ∈ table)
    (visible : Text.isBlank character = false)
    (closed : character = '"' → '"' ∈ text ∨ '"' ∉ rest) :
    rule.lexeme? (character :: text ++ '\n' :: rest) =
      rule.lexeme? (character :: text) := by
  cases rule with
  | word =>
      exact word?_append_newline
  | number =>
      exact run?_append_newline (by decide)
  | blanks =>
      exact (run?_of_visible visible).trans (run?_of_visible visible).symm
  | string =>
      exact string?_append_newline closed
  | comment =>
      exact comment?_append_newline
  | symbol sign kind =>
      have oneLine :
          ∀ rule ∈ table,
            (match rule with
              | .symbol sign _ => !sign.toList.contains '\n'
              | _ => true) = true := by
        decide
      exact symbol?_append_newline (by simpa using oneLine _ member)

/-- What a visible character starts on a line is not changed by what follows. -/
theorem firstMatch?_append_newline
    (visible : Text.isBlank character = false)
    (closed : character = '"' → '"' ∈ text ∨ '"' ∉ rest) :
    firstMatch? (character :: text ++ '\n' :: rest) =
      firstMatch? (character :: text) := by
  have tried
      (characters : List Char) :
      firstMatch? characters =
        (table.map fun rule =>
          (rule.lexeme? characters).map fun lexeme =>
            (rule, lexeme)).findSome? id := by
    rw [List.findSome?_map]
    rfl
  rw [tried, tried]
  congr 1
  apply List.map_congr_left
  intro rule member
  rw [lexeme?_append_newline member visible closed]

end LexicalRule

/-- A quote that no later one closes. -/
def unclosedQuote : TokenKind × String :=
  (.illegal, "\"")

/-- A quote at the start of a line whose quotes are closed has its second one. -/
theorem quote_closed
    {character : Char}
    {text : List Char}
    (closed : unclosedQuote ∉ readings (character :: text)) :
    character = '"' → '"' ∈ text := by
  rintro rfl
  refine Decidable.byContradiction fun unquoted => closed ?_
  have unmatched : LexicalRule.firstMatch? ('"' :: text) = none := by
    rw [LexicalRule.firstMatch?_eq_none_iff]
    have nothing : LexicalRule.StartsNothing '"' := by
      unfold LexicalRule.StartsNothing
      decide
    exact ⟨nothing, fun _ => unquoted⟩
  rw [readings_of_unmatched unmatched]
  exact List.mem_cons_self

namespace Piece

variable
  {file : String}
  {offset : Nat}
  {character : Char}
  {text rest : List Char}

/-- What a visible character starts is cut off a line, whatever follows. -/
theorem cut?_append_newline
    {piece : Piece}
    {after : List Char}
    (visible : Text.isBlank character = false)
    (closed : character = '"' → '"' ∈ text ∨ '"' ∉ rest)
    (found : cut? offset (character :: text) = some (piece, after)) :
    cut? offset (character :: text ++ '\n' :: rest) =
      some (piece, after ++ '\n' :: rest) := by
  have same := LexicalRule.firstMatch?_append_newline visible closed
  have whole := (cut?_eq_some found).1
  simp only [cut?, first, Option.some.injEq, Prod.mk.injEq] at found
  obtain ⟨isPiece, isAfter⟩ := found
  rw [List.cons_append] at same ⊢
  simp only [cut?, first, same, isPiece, Option.some.injEq, Prod.mk.injEq,
    true_and]
  rw [← List.cons_append, ← whole, List.append_assoc, List.drop_left]

theorem tokensFrom_blank_run
    (blank : Text.isBlank character = true) :
    tokensFrom file offset (character :: text) =
      tokensFrom file
        (offset + Text.byteSize (character :: text.takeWhile Text.isBlank))
        (text.dropWhile Text.isBlank) := by
  have found :
      cut? offset (character :: text) =
        some (⟨offset, character :: text.takeWhile Text.isBlank, none⟩,
          text.dropWhile Text.isBlank) := by
    have whole :
        text.takeWhile Text.isBlank ++ text.dropWhile Text.isBlank = text :=
      List.takeWhile_append_dropWhile
    have back :
        text.drop (text.takeWhile Text.isBlank).length =
          text.dropWhile Text.isBlank :=
      calc
        _ = (text.takeWhile Text.isBlank ++ text.dropWhile Text.isBlank).drop
              (text.takeWhile Text.isBlank).length := by
          rw [whole]
        _ = text.dropWhile Text.isBlank :=
          List.drop_left
    simp [cut?, first, LexicalRule.firstMatch?_blanks blank,
      LexicalRule.reading?, back]
  rw [tokensFrom_of_cut file found]
  rfl

/-- A blank is skipped, and the tokens behind it stay where they are. -/
theorem tokensFrom_blank
    (blank : Text.isBlank character = true) :
    tokensFrom file offset (character :: text) =
      tokensFrom file (offset + character.utf8Size) text := by
  rw [tokensFrom_blank_run blank]
  cases text with
  | nil =>
      rfl
  | cons next others =>
      by_cases alsoBlank : Text.isBlank next = true
      · rw [tokensFrom_blank_run alsoBlank, List.takeWhile_cons_of_pos alsoBlank,
          List.dropWhile_cons_of_pos alsoBlank, Text.byteSize_cons, Nat.add_assoc]
      · rw [List.takeWhile_cons_of_neg alsoBlank,
          List.dropWhile_cons_of_neg alsoBlank, Text.byteSize_cons,
          Text.byteSize_nil, Nat.add_zero]

/--
A line whose quotes are closed is scanned on its own, and then what follows it;
so is any line that no quote follows.  The lines are taken piece by piece, blanks
one at a time.
-/
theorem tokensFrom_append_newline
    (closed : unclosedQuote ∉ readings text ∨ '"' ∉ rest) :
    tokensFrom file offset (text ++ '\n' :: rest) =
      tokensFrom file offset text ++
        tokensFrom file (offset + Text.byteSize text + 1) rest := by
  induction length : text.length using Nat.strongRecOn
    generalizing offset text with
  | ind count inductionHypothesis =>
      subst length
      cases text with
      | nil =>
          exact tokensFrom_blank (by decide)
      | cons character others =>
          by_cases blank : Text.isBlank character = true
          · rw [readings_blank blank] at closed
            rw [List.cons_append, tokensFrom_blank blank, tokensFrom_blank blank,
              inductionHypothesis _ (Nat.lt_succ_self _) closed rfl,
              Text.byteSize_cons, Nat.add_assoc offset]
          · have visible : Text.isBlank character = false := by
              simpa using blank
            have closes : character = '"' → '"' ∈ others ∨ '"' ∉ rest :=
              fun opens => closed.imp_left fun none => quote_closed none opens
            obtain ⟨⟨piece, after⟩, found⟩ :
                ∃ cutOff, cut? offset (character :: others) = some cutOff :=
              ⟨_, rfl⟩
            have shorter := (cut?_eq_some found).2
            have closedAfter : unclosedQuote ∉ readings after ∨ '"' ∉ rest := by
              rw [readings_of_cut found] at closed
              exact closed.imp_left fun none member =>
                none (List.mem_append_right _ member)
            rw [tokensFrom_of_cut file (cut?_append_newline visible closes found),
              tokensFrom_of_cut file found,
              inductionHypothesis _ shorter closedAfter rfl, stop_of_cut found,
              List.append_assoc]

theorem map_reading_tokensFrom
    (file : String)
    (offset : Nat)
    (characters : List Char) :
    (tokensFrom file offset characters).map Token.reading =
      readings characters := by
  have pieces :
      readings characters =
        (cutUpTo characters.length offset characters).filterMap reading? :=
    filterMap_cutUpTo (Nat.le_refl _) (Nat.le_refl _)
  rw [tokensFrom, List.map_filterMap, pieces]
  congr 1
  funext piece
  cases made : piece.reading? with
  | none =>
      simp [token?, made]
  | some reading =>
      simp [token?, made, Token.reading]

end Piece

/-- What a line and what follows it are scanned as, without regard to places. -/
theorem readings_append_newline
    {text rest : List Char}
    (closed : unclosedQuote ∉ readings text ∨ '"' ∉ rest) :
    readings (text ++ '\n' :: rest) = readings text ++ readings rest := by
  have joined :
      Piece.tokensFrom "" 0 (text ++ '\n' :: rest) =
        Piece.tokensFrom "" 0 text ++
          Piece.tokensFrom "" (0 + Text.byteSize text + 1) rest :=
    Piece.tokensFrom_append_newline closed
  have same := congrArg (List.map Token.reading) joined
  simpa only [List.map_append, Piece.map_reading_tokensFrom] using same

/-- Lines whose quotes are closed are scanned one after the other. -/
theorem readings_lines
    {lines : List String}
    (ended : ∀ line ∈ lines, ∃ text, line.toList = text ++ ['\n'])
    (closed : ∀ line ∈ lines, unclosedQuote ∉ readings line.toList) :
    readings (lines.flatMap String.toList) =
      lines.flatMap fun line => readings line.toList := by
  induction lines with
  | nil =>
      rfl
  | cons line others inductionHypothesis =>
      obtain ⟨⟨text, isText⟩, endedOthers⟩ := List.forall_mem_cons.mp ended
      obtain ⟨closedLine, closedOthers⟩ := List.forall_mem_cons.mp closed
      have alone : readings (text ++ ['\n']) = readings text := by
        rw [readings_append_newline (.inr List.not_mem_nil), readings_nil,
          List.append_nil]
      rw [isText, alone] at closedLine
      rw [List.flatMap_cons, List.flatMap_cons, isText, alone, List.append_assoc,
        List.singleton_append, readings_append_newline (.inl closedLine),
        inductionHypothesis endedOthers closedOthers]

end Scriptlet
