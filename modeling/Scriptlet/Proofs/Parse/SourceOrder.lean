import Scriptlet.Proofs.Parse.Pointing
import Scriptlet.Proofs.Token.Ordered

namespace Scriptlet

/-!
# Diagnostics come in the order of the text

What a parse records points at tokens from front to back, and the tokens of a text
stand in its order.  So a reader meets the diagnostics in the order in which the
text goes on, each at the token that it tells of.
-/

/-- Every token of a stream is one of the list that it reads, or the end of it. -/
theorem TokenStream.tokenAt_mem
    (stream : TokenStream)
    (index : Nat) :
    stream.tokenAt index ∈ stream.ahead ∨ stream.tokenAt index = stream.last := by
  rw [tokenAt, List.getD_eq_getElem?_getD]
  cases found : stream.ahead[index]? with
  | none =>
      exact .inr rfl
  | some token =>
      exact .inl (List.mem_of_getElem? found)

section Texts

variable {content file : String}

theorem TokenStream.mem_tokenize_of_mem_beforeEnd
    {token : Token}
    (member : token ∈ beforeEnd (tokenize content file)) :
    token ∈ tokenize content file :=
  (List.takeWhile_sublist _).subset member

theorem TokenStream.tokenAt_mem_tokenize
    (index : Nat) :
    (ofTokens (tokenize content file)).tokenAt index ∈ tokenize content file := by
  rcases tokenAt_mem (ofTokens (tokenize content file)) index with ahead | last
  · exact mem_tokenize_of_mem_beforeEnd ahead
  · rw [last, last_tokenize, tokenize_eq]
    simp

/-- A replay of the tokens of a text leaves none out. -/
theorem TokenStream.append_last_tokenize (content file : String) :
    (ofTokens (tokenize content file)).ahead ++
        [(ofTokens (tokenize content file)).last] =
      tokenize content file := by
  have ahead :
      (ofTokens (tokenize content file)).ahead =
        Piece.tokensFrom file 0 content.toList :=
    Token.beforeEnd_tokenize content file
  rw [ahead, last_tokenize, ← tokenize_eq]

/-- Tokens further on start at larger offsets, the end of input being repeated. -/
theorem TokenStream.start_tokenAt_le
    {index next : Nat}
    (small : content.utf8ByteSize < UInt32.size)
    (le : index ≤ next) :
    ((ofTokens (tokenize content file)).tokenAt index).start.offset ≤
      ((ofTokens (tokenize content file)).tokenAt next).start.offset := by
  have ordered :
      (tokenize content file).Pairwise fun earlier later =>
        earlier.start.offset < later.start.offset :=
    pairwise_tokenize small
  rw [← append_last_tokenize, List.pairwise_append] at ordered
  generalize ofTokens (tokenize content file) = stream at ordered ⊢
  obtain ⟨ahead, -, before⟩ := ordered
  by_cases inside : next < stream.ahead.length
  · have insideToo : index < stream.ahead.length := Nat.lt_of_le_of_lt le inside
    simp only [tokenAt, List.getD_eq_getElem?_getD, List.getElem?_eq_getElem inside,
      List.getElem?_eq_getElem insideToo, Option.getD_some]
    rcases Nat.lt_or_eq_of_le le with earlier | rfl
    · exact UInt32.le_of_lt (List.pairwise_iff_getElem.mp ahead _ _ _ _ earlier)
    · exact UInt32.le_refl _
  · have last : stream.tokenAt next = stream.last := by
      simp [tokenAt, List.getElem?_eq_none (Nat.le_of_not_lt inside)]
    rw [last]
    rcases stream.tokenAt_mem index with member | alsoLast
    · exact UInt32.le_of_lt (before _ member _ (List.mem_singleton_self _))
    · rw [alsoLast]
      exact UInt32.le_refl _

/-- Diagnostics from front to back have offsets that do not decrease. -/
theorem Marked.pairwise
    {stream : TokenStream}
    {diagnostics : List Diagnostic}
    {lower upper : Nat}
    (ordered :
      ∀ index next, index ≤ next →
        (stream.tokenAt index).start.offset ≤
          (stream.tokenAt next).start.offset)
    (marked : Marked stream lower diagnostics upper) :
    diagnostics.Pairwise fun earlier later =>
      earlier.position.offset ≤ later.position.offset := by
  induction marked with
  | none le =>
      exact .nil
  | next le points later inductionHypothesis =>
      refine .cons ?_ inductionHypothesis
      intro diagnostic member
      obtain ⟨index, behind, pointsLater⟩ := later.points_from diagnostic member
      rw [points.position, pointsLater.position]
      exact ordered _ _ behind

/--
The diagnostics come in the order of the text: their offsets do not decrease, and
each is the start of a token of the text, of the kind that the diagnostic tells of.
-/
structure InSourceOrder
    (content file : String)
    (diagnostics : List Diagnostic) :
    Prop where
  ordered :
    diagnostics.Pairwise fun earlier later =>
      earlier.position.offset ≤ later.position.offset
  points :
    ∀ diagnostic ∈ diagnostics,
      ∃ token ∈ tokenize content file, diagnostic.PointsAt token

/-- What is wrong with a text is reported in the order of the text. -/
theorem Parsed.diagnostics_in_source_order
    (content file : String)
    (small : content.utf8ByteSize < UInt32.size)
    (strictBlocks : Bool) :
    InSourceOrder content file
      (ofSource strictBlocks content file).diagnostics := by
  have marked := marked_ofTokens strictBlocks (tokenize content file)
  constructor
  · exact marked.pairwise fun _ _ => TokenStream.start_tokenAt_le small
  · intro diagnostic member
    obtain ⟨index, -, points⟩ := marked.points_from diagnostic member
    exact ⟨_, TokenStream.tokenAt_mem_tokenize index, points⟩

end Texts

/--
A number out of range, a binding without its name and a product without its right
operand in a block, and the end of input before the block is closed.
-/
def brokenText : String :=
  "9223372036854775808;\nlet f = fn(x) \x7b\n  let = 1; x *;\n"

theorem Parsed.diagnostics_in_source_order_block :
    brokenText.utf8ByteSize < UInt32.size ∧
      (ofSource true brokenText "broken").diagnostics =
        [ ⟨.integerLiteral "9223372036854775808", ⟨0, "broken"⟩⟩,
          ⟨.noExpression .semicolon, ⟨19, "broken"⟩⟩,
          ⟨.expectedToken .identifier .assignment, ⟨43, "broken"⟩⟩,
          ⟨.noExpression .assignment, ⟨43, "broken"⟩⟩,
          ⟨.noExpression .semicolon, ⟨51, "broken"⟩⟩,
          ⟨.expectedToken .closeCurly .endOfInput, ⟨53, "broken"⟩⟩ ] ∧
      InSourceOrder brokenText "broken"
        (ofSource true brokenText "broken").diagnostics := by
  have small : brokenText.utf8ByteSize < UInt32.size := by
    decide +kernel
  exact ⟨small, by decide +kernel,
    diagnostics_in_source_order brokenText "broken" small true⟩

end Scriptlet
