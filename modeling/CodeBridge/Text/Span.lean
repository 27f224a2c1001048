/-! # Spans of code points

A table of characters is a list of spans, each with a step: many alphabets alternate capital and small
letters, so every second code point of a stretch belongs to the table. -/

namespace CodeBridge.Text

/-- The code points from `first` to `last`, taking every `step`-th. -/
structure Span where
  first : Nat
  last : Nat
  step : Nat

def Span.holds (s : Span) (n : Nat) : Bool :=
  s.first ≤ n && n ≤ s.last && (n - s.first) % s.step == 0

def Span.anyHolds (spans : List Span) (n : Nat) : Bool :=
  spans.any (·.holds n)

end CodeBridge.Text
