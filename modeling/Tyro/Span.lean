/-!
# Spans

A span is a range of byte offsets into a source text. `Span.cover` is the smallest span over two.
-/

namespace Tyro

/-- The bytes of a source text from `start` up to, but not including, `stop`. -/
structure Span where
  start : Nat
  stop : Nat
  deriving DecidableEq, Repr

/-- The smallest span that covers both. -/
def Span.cover (a b : Span) : Span := ⟨min a.start b.start, max a.stop b.stop⟩

end Tyro
