import Scriptlet.Proofs.Token.Joining

namespace Scriptlet

/-!
# The same tokens further on

Where a text stands decides the spans of its tokens and nothing else about them.
A text that follows a line is therefore scanned as it is alone, with its tokens
moved on by the bytes of the line and of the line end, modulo the width of
offsets.  The line itself is scanned as it is alone, unless one of its quotes is
left open: a string is the only token that goes on over a line end.
-/

/-- The position so many bytes further on, modulo the width of offsets. -/
def Position.shift (position : Position) (count : Nat) : Position :=
  { position with offset := position.offset + UInt32.ofNat count }

/-- The span so many bytes further on. -/
def Span.shift (span : Span) (count : Nat) : Span :=
  ⟨span.start.shift count, span.stop.shift count⟩

/-- The token so many bytes further on. -/
def Token.shift (token : Token) (count : Nat) : Token :=
  { token with span := token.span.shift count }

/-- The piece so many bytes further on. -/
def Piece.shift (piece : Piece) (count : Nat) : Piece :=
  { piece with offset := piece.offset + count }

theorem Position.shift_ofOffset (file : String) (offset count : Nat) :
    (ofOffset file offset).shift count = ofOffset file (offset + count) := by
  simp [shift, ofOffset, UInt32.ofNat_add]

theorem Span.shift_ofOffset (file : String) (offset size count : Nat) :
    (ofOffset file offset size).shift count =
      ofOffset file (offset + count) size := by
  rw [shift, ofOffset, Position.shift_ofOffset, Position.shift_ofOffset, ofOffset,
    Nat.add_right_comm]

section Pieces

variable {file : String} {characters : List Char}

theorem Piece.token?_shift (piece : Piece) (count : Nat) :
    (piece.shift count).token? file =
      (piece.token? file).map fun token => token.shift count := by
  cases read : piece.reading? with
  | none =>
      simp [token?, shift, read]
  | some reading =>
      simp [token?, shift, read, Token.shift, Span.shift_ofOffset, size]

/-- The pieces of a text are the same wherever it stands. -/
theorem Piece.cutUpTo_shift (pieces offset count : Nat) :
    cutUpTo pieces (offset + count) characters =
      (cutUpTo pieces offset characters).map fun piece => piece.shift count := by
  induction pieces generalizing offset characters with
  | zero =>
      rfl
  | succ pieces inductionHypothesis =>
      cases characters with
      | nil =>
          rfl
      | cons character others =>
          have moved :
              first (offset + count) character others =
                (first offset character others).shift count := by
            rw [first_eq, first_eq offset]
            rfl
          have behind :
              ((first offset character others).shift count).stop =
                (first offset character others).stop + count :=
            Nat.add_right_comm _ _ _
          simp only [cutUpTo, cut?, withStackFor_eq, moved, behind, List.map_cons,
            inductionHypothesis]
          rfl

/-- The tokens of a text are the same wherever it stands, but for their spans. -/
theorem Piece.tokensFrom_shift (offset count : Nat) :
    tokensFrom file (offset + count) characters =
      (tokensFrom file offset characters).map fun token => token.shift count := by
  rw [tokensFrom, tokensFrom, cutUpTo_shift, List.filterMap_map,
    List.map_filterMap]
  congr 1
  funext piece
  exact piece.token?_shift count

/-- A text behind others has its end of input so much further on. -/
theorem Piece.endFrom_shift (offset count : Nat) :
    endFrom file (offset + count) characters =
      (endFrom file offset characters).shift count := by
  simp only [endFrom, Token.endOfInput, Token.shift, Span.shift_ofOffset,
    Nat.add_right_comm]

end Pieces

/--
Scanning joins at line ends.  In front of a line end, a text without an open quote
has the tokens that it has alone, and behind it any text has the tokens that it has
alone, its end of input included, each moved on by what stands in front of it.
-/
theorem tokenize_joins_at_newline
    (front back file : String)
    (closed :
      ∀ token ∈ tokenize front file,
        ¬ (token.kind = .illegal ∧ token.value = "\"")) :
    tokenize (front ++ "\n" ++ back) file =
      (tokenize front file).dropLast ++
        (tokenize back file).map fun token =>
          token.shift (front.utf8ByteSize + 1) := by
  have characters :
      (front ++ "\n" ++ back).toList = front.toList ++ '\n' :: back.toList := by
    simp
  have closedReadings : unclosedQuote ∉ readings front.toList := by
    rw [← Piece.map_reading_tokensFrom file 0]
    intro member
    obtain ⟨token, inside, reading⟩ := List.mem_map.mp member
    obtain ⟨illegal, quote⟩ := Prod.mk.inj reading
    refine closed token ?_ ⟨illegal, quote⟩
    rw [tokenize_eq]
    exact List.mem_append_left _ inside
  have size :
      0 + Text.byteSize front.toList + 1 = 0 + (front.utf8ByteSize + 1) := by
    rw [Text.byteSize_toList, Nat.add_assoc]
  have ending :
      Piece.endFrom file 0 (front.toList ++ '\n' :: back.toList) =
        Piece.endFrom file (0 + (front.utf8ByteSize + 1)) back.toList := by
    have one : '\n'.utf8Size = 1 := rfl
    rw [Piece.endFrom, Piece.endFrom, ← size, Text.byteSize_append,
      Text.byteSize_cons, one]
    congr 2
    omega
  rw [tokenize_eq, tokenize_eq front, tokenize_eq back, characters,
    Piece.tokensFrom_append_newline (.inl closedReadings), size, ending,
    Piece.tokensFrom_shift, Piece.endFrom_shift, List.dropLast_concat,
    List.map_append, List.append_assoc]
  rfl

/-- A string, a comment with a quote in it, and blanks at the end of the line. -/
def quotedLine : String :=
  "s = \"é\" // \" \t"

/-- Blanks, and a string that goes on over a line end. -/
def quotedText : String :=
  "  x\"\n\""

theorem tokenize_joins_at_newline_comment :
    (∀ token ∈ tokenize quotedLine "text",
        ¬ (token.kind = .illegal ∧ token.value = "\"")) ∧
      (tokenize (quotedLine ++ "\n" ++ quotedText) "text").length = 6 ∧
      tokenize (quotedLine ++ "\n" ++ quotedText) "text" =
        (tokenize quotedLine "text").dropLast ++
          (tokenize quotedText "text").map fun token =>
            token.shift (quotedLine.utf8ByteSize + 1) := by
  have closed :
      ∀ token ∈ tokenize quotedLine "text",
        ¬ (token.kind = .illegal ∧ token.value = "\"") := by
    decide +kernel
  exact ⟨closed, by decide +kernel,
    tokenize_joins_at_newline quotedLine quotedText "text" closed⟩

/-- An open quote goes on over the line end, up to the next quote. -/
example :
    (tokenize ("\"" ++ "\n" ++ "\"") "text").map Token.reading =
      [(.string, "\n"), (.endOfInput, "EOF")] := by
  decide +kernel

end Scriptlet
