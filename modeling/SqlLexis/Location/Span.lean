/-!
# Spans

A place in one of several texts: a range of bytes and the line and column at which it
starts. Lines and columns count from one and are 32-bit numbers; line zero means that no
place is known.
-/

namespace SqlLexis

/-- The number of a text among those of a run. -/
structure TextId where
  index : Nat
  deriving Repr, DecidableEq

structure Span where
  /-- First byte. -/
  start : Nat
  /-- Byte after the last one. -/
  stop : Nat
  line : UInt32
  column : UInt32
  text : TextId
  deriving Repr, DecidableEq

namespace Span

/-- No known place. -/
def unknown : Span := ⟨0, 0, 0, 0, ⟨0⟩⟩

/-- The empty range at a byte. -/
def point (offset : Nat) (line column : UInt32) : Span :=
  ⟨offset, offset, line, column, ⟨0⟩⟩

/-- The same place in another text. -/
def inText (s : Span) (id : TextId) : Span := { s with text := id }

end Span

end SqlLexis
