/-!
# Byte spans

A span says which bytes of a source text a token covers. Offsets count UTF-8 bytes
from the start of the text, and the end is exclusive.
-/

namespace SelectQuery

/-- A range of byte offsets, end exclusive. Nothing requires `start ≤ stop`: a span may be
built by hand. -/
structure Span where
  start : Nat
  stop : Nat
  deriving DecidableEq, Repr

namespace Span

/-- The span of a text of `size` bytes that begins at `start`. -/
def ofSize (start size : Nat) : Span := ⟨start, start + size⟩

/-- A span is written as its two ends in brackets. -/
instance : ToString Span where
  toString s := "[" ++ toString s.start ++ "," ++ toString s.stop ++ "]"

end Span

end SelectQuery
