import Scriptlet.Proofs.Token.Tiling

namespace Scriptlet

/-!
# Tokens stand in the order of their text

The tokens that tile a text start at places of it, each further on than the one
before.  Offsets tell these places apart as long as the text is shorter than their
width allows.
-/

/-- The tokens of a tiled text start inside it, each behind the one before. -/
theorem Tiles.exists_places
    {file : String}
    {offset : Nat}
    {characters : List Char}
    {tokens : List Token}
    (tiles : Tiles file offset characters tokens) :
    ∃ places : List Nat,
      tokens.map Token.start = places.map (Position.ofOffset file) ∧
        places.Pairwise (· < ·) ∧
        ∀ place ∈ places,
          offset ≤ place ∧ place ≤ offset + Text.byteSize characters := by
  induction tiles with
  | finish skipped =>
      exact ⟨[_], rfl, List.pairwise_singleton _ _, by simp⟩
  | token skipped starts kind nonempty span later inductionHypothesis =>
      rename_i start gap rest token tokens
      obtain ⟨places, same, ordered, within⟩ := inductionHypothesis
      refine ⟨start :: places, ?_, List.pairwise_cons.mpr ⟨?_, ordered⟩, ?_⟩
      · rw [List.map_cons, List.map_cons, same]
        exact congrArg (· :: _) (congrArg Span.start span)
      · intro place member
        have behind := (within place member).1
        omega
      · simp only [Text.byteSize_append]
        intro place member
        rcases List.mem_cons.mp member with rfl | among
        · omega
        · have bounds := within place among
          omega

section Texts

variable {content file : String}

theorem exists_places_tokenize (content file : String) :
    ∃ places : List Nat,
      (tokenize content file).map Token.start =
          places.map (Position.ofOffset file) ∧
        places.Pairwise (· < ·) ∧
        ∀ place ∈ places, place ≤ content.utf8ByteSize := by
  have tiles := tiles_tokensFrom file 0 content.toList
  rw [← tokenize_eq] at tiles
  obtain ⟨places, same, ordered, within⟩ := tiles.exists_places
  refine ⟨places, same, ordered, fun place member => ?_⟩
  have bound := (within place member).2
  rwa [Nat.zero_add, Text.byteSize_toList] at bound

/-- A token of a text starts in its file, at an offset of the text. -/
theorem Token.start_of_mem_tokenize
    {token : Token}
    (small : content.utf8ByteSize < UInt32.size)
    (member : token ∈ tokenize content file) :
    token.start.file = file ∧
      token.start.offset.toNat ≤ content.utf8ByteSize := by
  obtain ⟨places, same, -, within⟩ := exists_places_tokenize content file
  have inside : token.start ∈ places.map (Position.ofOffset file) := by
    rw [← same]
    exact List.mem_map_of_mem member
  obtain ⟨place, among, start⟩ := List.mem_map.mp inside
  have le := within place among
  rw [← start, Position.toNat_offset_ofOffset (Nat.lt_of_le_of_lt le small)]
  exact ⟨rfl, le⟩

/-- The tokens of a text start at larger and larger offsets. -/
theorem pairwise_tokenize
    (small : content.utf8ByteSize < UInt32.size) :
    (tokenize content file).Pairwise fun earlier later =>
      earlier.start.offset < later.start.offset := by
  obtain ⟨places, same, ordered, within⟩ := exists_places_tokenize content file
  have starts :
      ((tokenize content file).map Token.start).Pairwise fun earlier later =>
        earlier.offset < later.offset := by
    rw [same, List.pairwise_map]
    refine ordered.imp_of_mem fun {place next} member nextMember before => ?_
    have offset
        {place : Nat}
        (member : place ∈ places) :
        (Position.ofOffset file place).offset.toNat = place :=
      Position.toNat_offset_ofOffset
        (Nat.lt_of_le_of_lt (within place member) small)
    rwa [UInt32.lt_iff_toNat_lt, offset member, offset nextMember]
  rwa [List.pairwise_map] at starts

end Texts

end Scriptlet
