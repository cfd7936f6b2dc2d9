namespace Scriptlet

/-!
# Positions and spans

A position names a byte offset in a named source text, a span the bytes between
two positions.  Offsets are thirty-two bits wide: those of larger texts are
taken modulo `UInt32.size`.
-/

/-- A byte offset in the source text with the given file name. -/
structure Position where
  offset : UInt32
  file : String
  deriving Repr, DecidableEq

/-- The bytes from one position up to another. -/
structure Span where
  start : Position
  stop : Position
  deriving Repr, DecidableEq

namespace Position

/-- The position of what stands in no source text. -/
def null : Position :=
  ⟨0, "<null>"⟩

/-- The position of a byte offset, modulo the width of offsets. -/
def ofOffset (file : String) (offset : Nat) : Position :=
  ⟨UInt32.ofNat offset, file⟩

/-- Offsets below the width limit are kept as they are. -/
theorem toNat_offset_ofOffset
    {file : String}
    {offset : Nat}
    (small : offset < UInt32.size) :
    (ofOffset file offset).offset.toNat = offset := by
  simpa [ofOffset] using small

end Position

namespace Span

/-- The empty span of what stands in no source text. -/
def null : Span :=
  ⟨Position.null, Position.null⟩

/-- The span of `size` bytes from a byte offset on. -/
def ofOffset (file : String) (offset size : Nat) : Span :=
  ⟨Position.ofOffset file offset, Position.ofOffset file (offset + size)⟩

end Span

end Scriptlet
