/-!
# Byte spans

A span is a range of byte offsets into a UTF-8 text. Nothing forces its ends to be in order or
inside a text, so the operations are total on every pair of offsets.
-/

namespace ScriptLint

/-- The byte offsets from `start` up to, but not including, `stop`. -/
structure Span where
  start : Nat
  stop : Nat
deriving DecidableEq, Repr

namespace Span

/-- The number of bytes in a span; an inverted span has none. -/
def length (span : Span) : Nat :=
  span.stop - span.start

/-- Whether a span holds no byte. -/
def isEmpty (span : Span) : Bool :=
  span.length == 0

/-- The span from the earlier start to the later stop of two spans. -/
def hull (first second : Span) : Span :=
  ⟨min first.start second.start, max first.stop second.stop⟩

/-- The span moved `amount` bytes to the right. -/
def shift (amount : Nat) (span : Span) : Span :=
  ⟨span.start + amount, span.stop + amount⟩

@[simp] theorem hull_start (first second : Span) :
    (first.hull second).start = min first.start second.start := rfl

@[simp] theorem hull_stop (first second : Span) :
    (first.hull second).stop = max first.stop second.stop := rfl

end Span

end ScriptLint
