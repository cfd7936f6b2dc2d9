namespace Scriptlet.Text

/-!
# Byte offsets in a text

Offsets count the bytes of the UTF-8 form of a text, while the scanner works on
its characters.  An offset that falls inside a character has no text of its
own, which is why cutting a text at an offset can fail.
-/

/-- The number of bytes of a text in UTF-8. -/
def byteSize (characters : List Char) : Nat :=
  characters.foldl (fun size character => size + character.utf8Size) 0

/--
Cut off the given number of bytes from the front of a text.  There is no
result when the offset lies inside a character or past the end.
-/
def dropBytes? : List Char → Nat → Option (List Char)
  | characters, 0 =>
      some characters
  | [], _ + 1 =>
      none
  | first :: rest, count + 1 =>
      if first.utf8Size ≤ count + 1 then
        dropBytes? rest (count + 1 - first.utf8Size)
      else
        none

/-- A count of bytes can start from any number. -/
theorem foldl_utf8Size
    (characters : List Char)
    (start : Nat) :
    characters.foldl (fun size character => size + character.utf8Size) start =
      start + byteSize characters := by
  unfold byteSize
  induction characters generalizing start with
  | nil =>
      simp
  | cons first rest inductionHypothesis =>
      rw [List.foldl_cons, List.foldl_cons, inductionHypothesis,
        inductionHypothesis (0 + first.utf8Size)]
      omega

@[simp]
theorem byteSize_nil : byteSize [] = 0 :=
  rfl

@[simp]
theorem byteSize_cons
    (first : Char)
    (rest : List Char) :
    byteSize (first :: rest) = first.utf8Size + byteSize rest := by
  simpa [byteSize] using foldl_utf8Size rest first.utf8Size

@[simp]
theorem byteSize_append
    (front back : List Char) :
    byteSize (front ++ back) = byteSize front + byteSize back := by
  induction front with
  | nil =>
      simp
  | cons first rest inductionHypothesis =>
      simp [inductionHypothesis, Nat.add_assoc]

/-- The size of a text in bytes is that of its UTF-8 form. -/
theorem byteSize_toList (text : String) :
    byteSize text.toList = text.utf8ByteSize := by
  have size (characters : List Char) :
      byteSize characters = (String.ofList characters).utf8ByteSize := by
    induction characters with
    | nil =>
        rfl
    | cons first rest inductionHypothesis =>
        rw [byteSize_cons, inductionHypothesis, String.ofList_cons,
          String.utf8ByteSize_append, String.utf8ByteSize_singleton]
  rw [size, String.ofList_toList]

/-- Bytes behind a front part are cut off the rest. -/
theorem dropBytes?_append_add
    (front back : List Char)
    (count : Nat) :
    dropBytes? (front ++ back) (byteSize front + count) = dropBytes? back count := by
  induction front with
  | nil =>
      simp
  | cons first rest inductionHypothesis =>
      have positive := first.utf8Size_pos
      obtain ⟨before, size⟩ :
          ∃ before, byteSize (first :: rest) + count = before + 1 :=
        ⟨byteSize (first :: rest) + count - 1, by simp; omega⟩
      rw [byteSize_cons] at size
      have fits : first.utf8Size ≤ before + 1 := by
        omega
      have remaining : before + 1 - first.utf8Size = byteSize rest + count := by
        omega
      rw [List.cons_append, byteSize_cons, size, dropBytes?, if_pos fits, remaining,
        inductionHypothesis]

/-- Cutting off exactly the bytes of a front part leaves the back part. -/
theorem dropBytes?_append
    (front back : List Char) :
    dropBytes? (front ++ back) (byteSize front) = some back := by
  have cut := dropBytes?_append_add front back 0
  rwa [Nat.add_zero, dropBytes?] at cut

/-- Only the empty text has no bytes. -/
theorem byteSize_pos_iff {characters : List Char} :
    0 < byteSize characters ↔ characters ≠ [] := by
  cases characters with
  | nil =>
      simp
  | cons first rest =>
      have positive := first.utf8Size_pos
      simp only [byteSize_cons, ne_eq, reduceCtorEq, not_false_eq_true, iff_true]
      omega

/-- Cutting bytes off a text takes away a front part of that many bytes. -/
theorem dropBytes?_eq_some
    {characters rest : List Char}
    {count : Nat}
    (found : dropBytes? characters count = some rest) :
    ∃ front, front ++ rest = characters ∧ byteSize front = count := by
  induction characters generalizing count with
  | nil =>
      cases count with
      | zero =>
          exact ⟨[], Option.some.inj found.symm, rfl⟩
      | succ count =>
          contradiction
  | cons first others inductionHypothesis =>
      cases count with
      | zero =>
          exact ⟨[], Option.some.inj found.symm, rfl⟩
      | succ count =>
          simp only [dropBytes?] at found
          split at found
          · rename_i fits
            obtain ⟨front, whole, size⟩ := inductionHypothesis found
            refine ⟨first :: front, by rw [List.cons_append, whole], ?_⟩
            rw [byteSize_cons, size]
            omega
          · contradiction

/-- Of two front parts of a text, the one of fewer bytes is part of the other. -/
theorem prefix_of_byteSize_le
    {characters front other : List Char}
    (isFront : front <+: characters)
    (isOther : other <+: characters)
    (fewer : byteSize front ≤ byteSize other) :
    front <+: other := by
  rcases List.prefix_or_prefix_of_prefix isFront isOther with inside | ⟨rest, rfl⟩
  · exact inside
  · have empty : rest = [] := by
      apply Decidable.byContradiction
      intro nonempty
      have positive := byteSize_pos_iff.mpr nonempty
      rw [byteSize_append] at fewer
      omega
    simp [empty]

end Scriptlet.Text
