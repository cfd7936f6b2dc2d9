import Scriptlet.Proofs.Canonical.Texts
import Scriptlet.Proofs.Canonical.Wording

namespace Scriptlet

/-!
# Texts that render trees

A text renders a tree when it is scanned as a wording of the tree.  What renders
the parts of a tree, put together as in canonical forms, renders the tree.
-/

/-- The text is scanned as a wording of the tree, also right after a symbol. -/
def Renders (phrase : Phrase) (text : String) (tree : phrase.Tree) : Prop :=
  Clear text.toList ∧
    ∃ words, Scans text.toList words ∧ Words phrase words tree

/-- Reserved words are words, of the kind they are reserved for. -/
theorem TokenKind.word_of_reserved
    {text : String}
    {kind : TokenKind}
    (member : (text, kind) ∈ reservedWords) :
    ofWord text = kind ∧
      ∃ first others,
        text.toList = first :: others ∧
          LexicalRule.startsWord first = true ∧
          ∀ other ∈ others, LexicalRule.continuesWord other = true := by
  simp only [reservedWords, List.mem_cons, Prod.mk.injEq, List.not_mem_nil,
    or_false] at member
  rcases member with
    ⟨rfl, rfl⟩ | ⟨rfl, rfl⟩ | ⟨rfl, rfl⟩ | ⟨rfl, rfl⟩ | ⟨rfl, rfl⟩ |
    ⟨rfl, rfl⟩ | ⟨rfl, rfl⟩ <;>
    exact ⟨rfl, _, _, rfl, by decide, List.all_eq_true.mp (by decide)⟩

theorem clear_reserved
    {text : String}
    {kind : TokenKind}
    (member : (text, kind) ∈ TokenKind.reservedWords) :
    Clear text.toList := by
  obtain ⟨-, first, others, shape, starts, -⟩ :=
    TokenKind.word_of_reserved member
  rw [shape]
  exact clear_of_continuesWord (LexicalRule.continuesWord_of_startsWord starts)

namespace Scans

variable
  {text : List Char}
  {words : List (TokenKind × String)}
  {sign : String}
  {kind : TokenKind}

theorem reserved
    (member : (sign, kind) ∈ TokenKind.reservedWords) :
    Scans sign.toList [(kind, sign)] := by
  obtain ⟨same, first, others, shape, starts, continues⟩ :=
    TokenKind.word_of_reserved member
  have scanned := word shape starts continues
  rw [same] at scanned
  exact scanned

/-- A blank keeps a symbol apart from every text. -/
theorem spaced
    (member : LexicalRule.symbol sign kind ∈ LexicalRule.table)
    (inner : Scans text words) :
    Scans (sign.toList ++ (" ".toList ++ text)) ((kind, sign) :: words) :=
  inner.blank.symbol member (clear_cons (by decide))

/-- A symbol that closes a text stands apart from it. -/
theorem closed
    (inner : Scans text words)
    (member : LexicalRule.symbol sign kind ∈ LexicalRule.table)
    (apart : Apart sign.toList) :
    Scans (text ++ sign.toList) (words ++ [(kind, sign)]) := by
  have last : Scans (sign.toList ++ []) [(kind, sign)] :=
    nil.symbol member (by simp [Clear])
  rw [List.append_nil] at last
  exact inner.append last apart

theorem parenthesised
    (inner : Scans text words)
    (clear : Clear text) :
    Scans ("(".toList ++ (text ++ ")".toList))
      ((.openParen, "(") :: (words ++ [(.closeParen, ")")])) := by
  have closing : Apart ")".toList :=
    apart_cons (by decide) (by decide)
  exact (inner.closed (by decide) closing).symbol (by decide)
    (clear.append closing.clear)

/-- A text in parentheses, and what stands behind it after a blank. -/
theorem headed
    {bodyText : List Char}
    {bodyWords : List (TokenKind × String)}
    (inner : Scans text words)
    (clear : Clear text)
    (body : Scans bodyText bodyWords) :
    Scans ("(".toList ++ (text ++ (") ".toList ++ bodyText)))
      ((.openParen, "(") :: (words ++ (.closeParen, ")") :: bodyWords)) := by
  have closing : Apart (")".toList ++ (" ".toList ++ bodyText)) :=
    apart_cons (by decide) (by decide)
  have followed :
      Scans (")".toList ++ (" ".toList ++ bodyText))
        ((.closeParen, ")") :: bodyWords) :=
    spaced (by decide) body
  exact (inner.append followed closing).symbol (by decide)
    (clear.append closing.clear)

end Scans

section Lists

/-- What follows the first text of a list that is separated by commas. -/
def furtherTexts (texts : List String) : String :=
  String.join (texts.map (", " ++ ·))

theorem furtherTexts_nil : furtherTexts [] = "" :=
  rfl

theorem furtherTexts_cons
    {first : String}
    {rest : List String} :
    furtherTexts (first :: rest) = ", " ++ first ++ furtherTexts rest := by
  rw [furtherTexts, List.map_cons, String.join_cons]
  rfl

theorem intercalate_cons
    {first : String}
    {rest : List String} :
    String.intercalate ", " (first :: rest) = first ++ furtherTexts rest := by
  induction rest generalizing first with
  | nil =>
      rw [String.intercalate_singleton, furtherTexts_nil, String.append_empty]
  | cons next others inductionHypothesis =>
      rw [String.intercalate_cons_cons, inductionHypothesis, furtherTexts_cons,
        String.append_assoc, String.append_assoc]

theorem apart_furtherTexts
    {texts : List String} :
    Apart (furtherTexts texts).toList := by
  cases texts with
  | nil =>
      simp [furtherTexts_nil, Apart]
  | cons first rest =>
      rw [furtherTexts_cons, String.append_assoc, String.toList_append]
      exact apart_cons (by decide) (by decide)

theorem Scans.furtherNames
    {names : List Name}
    (named : ∀ name ∈ names, TokenKind.IsName name.value) :
    Scans (furtherTexts (names.map Name.value)).toList
      (Words.furtherNames names) := by
  induction names with
  | nil =>
      exact nil
  | cons first rest inductionHypothesis =>
      have others := inductionHypothesis fun name member =>
        named name (by simp [member])
      have scanned :=
        (Scans.name (named first (by simp))).append others apart_furtherTexts
      rw [List.map_cons, furtherTexts_cons, String.toList_append,
        String.toList_append, List.append_assoc]
      exact spaced (by decide : LexicalRule.symbol "," .comma ∈ _) scanned

theorem Scans.names
    {names : List Name}
    (named : ∀ name ∈ names, TokenKind.IsName name.value) :
    Scans (Name.canonicalList names).toList (Words.names names) := by
  cases names with
  | nil =>
      exact nil
  | cons first rest =>
      have others := Scans.furtherNames fun name member =>
        named name (List.mem_cons_of_mem first member)
      rw [Name.canonicalList, List.map_cons, intercalate_cons,
        String.toList_append]
      exact (Scans.name (named first (by simp))).append others
        apart_furtherTexts

theorem TokenKind.IsName.clear
    {value : String}
    (named : TokenKind.IsName value) :
    Clear value.toList := by
  obtain ⟨-, first, others, shape, starts, -⟩ := named
  rw [shape]
  exact clear_of_continuesWord (LexicalRule.continuesWord_of_startsWord starts)

theorem clear_names
    {names : List Name}
    (named : ∀ name ∈ names, TokenKind.IsName name.value) :
    Clear (Name.canonicalList names).toList := by
  cases names with
  | nil =>
      simp [Name.canonicalList, Clear]
  | cons first rest =>
      rw [Name.canonicalList, List.map_cons, intercalate_cons,
        String.toList_append]
      exact (named first (by simp)).clear.append apart_furtherTexts.clear

end Lists

/-- Operators are symbols of the table. -/
theorem symbol_of_operator
    {kind : TokenKind}
    {text : String}
    (operates : kind = .not ∨ kind.operatorForm? = some .binary)
    (admitted : kind.Admits text) :
    LexicalRule.symbol text kind ∈ LexicalRule.table := by
  cases kind <;> simp [TokenKind.operatorForm?] at operates <;>
    (obtain rfl := Option.some.inj admitted; decide)

namespace Renders

section Expressions

variable
  {token : Token}
  {operator text rightText : String}
  {tree left right : Expression}

theorem identifier
    {name : Name}
    (named : TokenKind.IsName name.value) :
    Renders (.expression .call) name.value (Expression.identifier name) :=
  ⟨named.clear, _, Scans.name named, Words.identifier⟩

theorem integer
    {value : Int64}
    (positive : 0 ≤ value.toInt) :
    Renders (.expression .call) (toString value.toInt)
      (Expression.integer token value) := by
  have digits : TokenKind.IsNumeral (toString value.toInt) := by
    obtain ⟨number, same⟩ := Int.eq_ofNat_of_zero_le positive
    rw [same]
    exact isNumeral_toString_natCast
  refine ⟨?_, _, Scans.numeral digits,
    Words.integer (readInteger?_toString positive)⟩
  obtain ⟨first, others, shape, digit, -⟩ := digits
  rw [shape]
  exact clear_of_continuesWord (LexicalRule.continuesWord_of_isDigit digit)

theorem string
    {value : String}
    (unquoted : '"' ∉ value.toList) :
    Renders (.expression .call) ("\"" ++ value ++ "\"")
      (Expression.string token value) := by
  rw [Renders, String.toList_append, String.toList_append, List.append_assoc]
  exact ⟨clear_cons (by decide), _, Scans.quoted unquoted, Words.string⟩

theorem boolean
    {value : Bool} :
    Renders (.expression .call) (if value then "true" else "false")
      (Expression.boolean token value) := by
  have worded :
      Words (.expression .call)
        [if value then (.trueWord, "true") else (.falseWord, "false")]
        (Expression.boolean token value) :=
    Words.boolean
  cases value with
  | false =>
      exact ⟨clear_cons (by decide), _, Scans.reserved (by decide), worded⟩
  | true =>
      exact ⟨clear_cons (by decide), _, Scans.reserved (by decide), worded⟩

theorem prefixed
    (kind : token.kind = .dash ∨ token.kind = .not)
    (admitted : token.kind.Admits operator)
    (rendered : Renders (.expression .call) text right) :
    Renders (.expression .call) ("(" ++ operator ++ text ++ ")")
      (Expression.prefixed token operator right) := by
  obtain ⟨clear, words, scanned, worded⟩ := rendered
  have operates :
      token.kind = .not ∨ token.kind.operatorForm? = some .binary := by
    rcases kind with isDash | isNot
    · rw [isDash]
      decide
    · exact .inl isNot
  have operatorClear : Clear operator.toList := by
    rcases kind with isDash | isNot
    · rw [isDash] at admitted
      obtain rfl := Option.some.inj admitted
      exact clear_cons (by decide)
    · rw [isNot] at admitted
      obtain rfl := Option.some.inj admitted
      exact clear_cons (by decide)
  have enclosed :=
    (scanned.symbol (symbol_of_operator operates admitted) clear).parenthesised
      (operatorClear.append clear)
  refine ⟨?_, _, ?_, Words.prefixed kind worded⟩
  · simp only [String.toList_append, List.append_assoc]
    exact clear_cons (by decide)
  · simpa only [String.toList_append, List.append_assoc] using enclosed

theorem binary
    {stratum : Stratum}
    (kind : token.kind ∈ stratum.operators)
    (admitted : token.kind.Admits operator)
    (leftRendered : Renders (.expression .call) text left)
    (rightRendered : Renders (.expression .call) rightText right) :
    Renders (.expression .call)
      ("(" ++ text ++ " " ++ operator ++ " " ++ rightText ++ ")")
      (Expression.binary token left operator right) := by
  obtain ⟨clear, words, scanned, worded⟩ := leftRendered
  obtain ⟨rightClear, rightWords, rightScanned, rightWorded⟩ := rightRendered
  have member :=
    symbol_of_operator (.inr (Stratum.precedence_of_mem kind).1) admitted
  have applied := (Scans.spaced member rightScanned).blank
  have enclosed :=
    (scanned.append applied (apart_cons (by decide) (by decide))).parenthesised
      (clear.append (clear_cons (by decide)))
  refine ⟨?_, _, ?_, Words.binary kind worded rightWorded⟩
  · simp only [String.toList_append, List.append_assoc]
    exact clear_cons (by decide)
  · simpa only [String.toList_append, List.append_assoc] using enclosed

theorem call
    {callee : Expression}
    {values : List Expression}
    (calleeRendered : Renders (.expression .call) text callee)
    (valuesRendered : Renders .arguments rightText values) :
    Renders (.expression .call) (text ++ "(" ++ rightText ++ ")")
      (Expression.call token callee values) := by
  obtain ⟨clear, words, scanned, worded⟩ := calleeRendered
  obtain ⟨valuesClear, valuesWords, valuesScanned, valuesWorded⟩ :=
    valuesRendered
  have opening : Apart ("(".toList ++ (rightText.toList ++ ")".toList)) :=
    apart_cons (by decide) (by decide)
  have whole :=
    scanned.append (valuesScanned.parenthesised valuesClear) opening
  simp only [Renders, String.toList_append, List.append_assoc]
  exact ⟨clear.append opening.clear, _, whole, Words.call worded valuesWorded⟩

theorem noArguments : Renders .arguments "" [] :=
  ⟨by simp [Clear], [], Scans.nil, Words.noArguments⟩

theorem lastArgument : Renders .furtherArguments "" [] :=
  ⟨by simp [Clear], [], Scans.nil, Words.lastArgument⟩

theorem someArguments
    {first : Expression}
    {rest : List Expression}
    {restTexts : List String}
    (firstRendered : Renders (.expression .call) text first)
    (restRendered : Renders .furtherArguments (furtherTexts restTexts) rest) :
    Renders .arguments (String.intercalate ", " (text :: restTexts))
      (first :: rest) := by
  obtain ⟨clear, words, scanned, worded⟩ := firstRendered
  obtain ⟨restClear, restWords, restScanned, restWorded⟩ := restRendered
  rw [Renders, intercalate_cons, String.toList_append]
  exact ⟨clear.append restClear, _,
    scanned.append restScanned apart_furtherTexts,
    Words.someArguments worded restWorded⟩

theorem nextArgument
    {first : Expression}
    {rest : List Expression}
    {restTexts : List String}
    (firstRendered : Renders (.expression .call) text first)
    (restRendered : Renders .furtherArguments (furtherTexts restTexts) rest) :
    Renders .furtherArguments (furtherTexts (text :: restTexts))
      (first :: rest) := by
  obtain ⟨clear, words, scanned, worded⟩ := firstRendered
  obtain ⟨restClear, restWords, restScanned, restWorded⟩ := restRendered
  have whole := scanned.append restScanned apart_furtherTexts
  refine ⟨apart_furtherTexts.clear, _, ?_,
    Words.nextArgument worded restWorded⟩
  rw [furtherTexts_cons, String.toList_append, String.toList_append,
    List.append_assoc]
  exact Scans.spaced (by decide : LexicalRule.symbol "," .comma ∈ _) whole

end Expressions

section Blocks

variable
  {token : Token}
  {text bodyText alternativeText : String}
  {body : Block}

theorem noAlternative : Renders .alternative "" none :=
  ⟨by simp [Clear], [], Scans.nil, Words.noAlternative⟩

theorem someAlternative
    (rendered : Renders .block text body) :
    Renders .alternative (" else " ++ text) (some body) := by
  obtain ⟨-, words, scanned, worded⟩ := rendered
  have reserved : Scans "else".toList [(.elseWord, "else")] :=
    Scans.reserved (by decide)
  rw [Renders, String.toList_append]
  exact ⟨clear_cons (by decide), _,
    (reserved.append scanned.blank (apart_cons (by decide) (by decide))).blank,
    Words.someAlternative worded⟩

theorem conditional
    {condition : Expression}
    {alternative? : Option Block}
    (word : token.value = "if")
    (conditionRendered : Renders (.expression .call) text condition)
    (bodyRendered : Renders .block bodyText body)
    (alternativeRendered : Renders .alternative alternativeText alternative?)
    (apart : Apart alternativeText.toList) :
    Renders (.expression .call)
      (token.value ++ " (" ++ text ++ ") " ++ bodyText ++ alternativeText)
      (Expression.conditional token condition body alternative?) := by
  obtain ⟨clear, words, scanned, worded⟩ := conditionRendered
  obtain ⟨-, bodyWords, bodyScanned, bodyWorded⟩ := bodyRendered
  obtain ⟨-, alternativeWords, alternativeScanned, alternativeWorded⟩ :=
    alternativeRendered
  have reserved : (token.value, .ifWord) ∈ TokenKind.reservedWords := by
    rw [word]
    decide
  have headed :=
    scanned.headed clear (bodyScanned.append alternativeScanned apart)
  have whole :=
    (Scans.reserved reserved).append headed.blank
      (apart_cons (by decide) (by decide))
  simp only [Renders, String.toList_append, List.append_assoc]
  exact ⟨(clear_reserved reserved).append (clear_cons (by decide)), _,
    whole, Words.conditional worded bodyWorded alternativeWorded⟩

theorem function
    {parameters : List Name}
    (word : token.value = "fn")
    (named : ∀ name ∈ parameters, TokenKind.IsName name.value)
    (bodyRendered : Renders .block bodyText body) :
    Renders (.expression .call)
      (token.value ++ "(" ++ Name.canonicalList parameters ++ ") " ++ bodyText)
      (Expression.function token parameters body) := by
  obtain ⟨-, bodyWords, bodyScanned, bodyWorded⟩ := bodyRendered
  have reserved : (token.value, .fnWord) ∈ TokenKind.reservedWords := by
    rw [word]
    decide
  have headed :=
    (Scans.names named).headed (clear_names named) bodyScanned
  have whole :=
    (Scans.reserved reserved).append headed (apart_cons (by decide) (by decide))
  simp only [Renders, String.toList_append, List.append_assoc]
  exact ⟨(clear_reserved reserved).append (clear_cons (by decide)), _,
    whole, Words.function bodyWorded⟩

theorem emptyBlock :
    Renders .block "\x7b \x7d" ⟨token, []⟩ := by
  have closing : Scans ("\x7d".toList ++ []) [(.closeCurly, "\x7d")] :=
    Scans.nil.symbol (by decide) (by simp [Clear])
  have whole :
      Scans ("\x7b".toList ++ (" ".toList ++ ("\x7d".toList ++ [])))
        [(.openCurly, "\x7b"), (.closeCurly, "\x7d")] :=
    Scans.spaced (by decide) closing
  exact ⟨clear_cons (by decide), _, whole, Words.block Words.noStatements⟩

theorem block
    {statements : List Statement}
    (rendered : Renders .statements text statements) :
    Renders .block ("\x7b " ++ text ++ " \x7d") ⟨token, statements⟩ := by
  obtain ⟨-, words, scanned, worded⟩ := rendered
  have closing : Scans ("\x7d".toList ++ []) [(.closeCurly, "\x7d")] :=
    Scans.nil.symbol (by decide) (by simp [Clear])
  have inside :=
    scanned.append closing.blank (apart_cons (by decide) (by decide))
  have whole :
      Scans
        ("\x7b".toList ++
          (" ".toList ++ (text.toList ++ (" ".toList ++ ("\x7d".toList ++ [])))))
        ((.openCurly, "\x7b") :: (words ++ [(.closeCurly, "\x7d")])) :=
    Scans.spaced (by decide) inside
  simp only [Renders, String.toList_append, List.append_assoc]
  exact ⟨clear_cons (by decide), _, whole, Words.block worded⟩

end Blocks

section Statements

variable
  {token : Token}
  {text restText : String}
  {value : Expression}
  {first : Statement}
  {rest : List Statement}

theorem binding
    {name : Name}
    (word : token.value = "let")
    (named : TokenKind.IsName name.value)
    (rendered : Renders (.expression .call) text value) :
    Renders .statement (token.value ++ " " ++ name.value ++ " = " ++ text)
      (Statement.binding token name value) := by
  obtain ⟨-, words, scanned, worded⟩ := rendered
  have reserved : (token.value, .letWord) ∈ TokenKind.reservedWords := by
    rw [word]
    decide
  have assigned :
      Scans ("=".toList ++ (" ".toList ++ text.toList))
        ((.assignment, "=") :: words) :=
    Scans.spaced (by decide) scanned
  have target :=
    (Scans.name named).append assigned.blank
      (apart_cons (by decide) (by decide))
  have whole :=
    (Scans.reserved reserved).append target.blank
      (apart_cons (by decide) (by decide))
  simp only [Renders, String.toList_append, List.append_assoc]
  exact ⟨(clear_reserved reserved).append (clear_cons (by decide)), _,
    whole, Words.binding worded⟩

theorem returning
    (word : token.value = "return")
    (rendered : Renders (.expression .call) text value) :
    Renders .statement (token.value ++ " " ++ text)
      (Statement.returning token value) := by
  obtain ⟨-, words, scanned, worded⟩ := rendered
  have reserved : (token.value, .returnWord) ∈ TokenKind.reservedWords := by
    rw [word]
    decide
  have whole :=
    (Scans.reserved reserved).append scanned.blank
      (apart_cons (by decide) (by decide))
  simp only [Renders, String.toList_append, List.append_assoc]
  exact ⟨(clear_reserved reserved).append (clear_cons (by decide)), _,
    whole, Words.returning worded⟩

theorem expressionStatement
    (rendered : Renders (.expression .call) text value) :
    Renders .statement text (Statement.expression token value) := by
  obtain ⟨clear, words, scanned, worded⟩ := rendered
  exact ⟨clear, words, scanned, Words.expressionStatement worded⟩

theorem noStatements : Renders .statements "" [] :=
  ⟨by simp [Clear], [], Scans.nil, Words.noStatements⟩

theorem lastStatement
    (rendered : Renders .statement text first) :
    Renders .statements text [first] := by
  obtain ⟨clear, words, scanned, worded⟩ := rendered
  exact ⟨clear, words, scanned, Words.lastStatement worded⟩

theorem closedStatement
    (rendered : Renders .statement text first) :
    Renders .statements (text ++ ";") [first] := by
  obtain ⟨clear, words, scanned, worded⟩ := rendered
  have semicolon : Apart ";".toList :=
    apart_cons (by decide) (by decide)
  rw [Renders, String.toList_append]
  exact ⟨clear.append semicolon.clear, _,
    scanned.closed (by decide) semicolon,
    Words.someStatements worded Words.noStatements⟩

theorem nextStatement
    (firstRendered : Renders .statement text first)
    (restRendered : Renders .statements restText rest) :
    Renders .statements (text ++ "; " ++ restText) (first :: rest) := by
  obtain ⟨clear, words, scanned, worded⟩ := firstRendered
  obtain ⟨-, restWords, restScanned, restWorded⟩ := restRendered
  have semicolon : Apart (";".toList ++ (" ".toList ++ restText.toList)) :=
    apart_cons (by decide) (by decide)
  have followed :
      Scans (";".toList ++ (" ".toList ++ restText.toList))
        ((.semicolon, ";") :: restWords) :=
    Scans.spaced (by decide) restScanned
  simp only [Renders, String.toList_append, List.append_assoc]
  exact ⟨clear.append semicolon.clear, _, scanned.append followed semicolon,
    Words.someStatements worded restWorded⟩

end Statements

end Renders

end Scriptlet
