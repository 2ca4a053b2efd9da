/-!
# Spans of a source text

Positions in a source are byte offsets into its UTF-8 form. A `Span` is a half-open range of them.
Characters are the unit of every text that is cut out: a range that starts or ends inside a
character, or outside the source, has no text.

## Main definitions

* `Span`, `Span.length`, `Span.contains`: ranges and their order by inclusion.
* `dropBytes?`, `takeBytes?`: cutting a list of characters at a byte offset.
* `slice?`, `Span.textIn`: the text under a range.
-/

namespace TsxLint

namespace Text

/-- What follows the first `n` bytes, if they end at a character boundary. -/
def dropBytes? : List Char → Nat → Option (List Char)
  | cs, 0 => some cs
  | [], _ + 1 => none
  | c :: cs, n + 1 => if c.utf8Size ≤ n + 1 then dropBytes? cs (n + 1 - c.utf8Size) else none

/-- The first `n` bytes, if they end at a character boundary. -/
def takeBytes? : List Char → Nat → Option (List Char)
  | _, 0 => some []
  | [], _ + 1 => none
  | c :: cs, n + 1 =>
    if c.utf8Size ≤ n + 1 then (takeBytes? cs (n + 1 - c.utf8Size)).map (c :: ·) else none

/-- The characters from byte `start` to byte `stop`, if both are boundaries in this order. -/
def slice? (cs : List Char) (start stop : Nat) : Option (List Char) :=
  if start ≤ stop then (dropBytes? cs start).bind (takeBytes? · (stop - start)) else none

end Text

/-- The bytes from `start` up to `stop`. -/
structure Span where
  start : Nat
  stop : Nat
  deriving DecidableEq, Repr, Inhabited

namespace Span

/-- The number of bytes covered; a reversed range covers none. -/
def length (s : Span) : Nat := s.stop - s.start

/-- Whether a range covers nothing. -/
def isEmpty (s : Span) : Bool := s.length == 0

/-- Whether `t` starts and ends inside `s`. -/
def contains (s t : Span) : Bool := s.start ≤ t.start && t.stop ≤ s.stop

/-- The text under a span, empty when the span does not cut the source at characters. -/
def textIn (s : Span) (source : String) : String :=
  String.ofList ((Text.slice? source.toList s.start s.stop).getD [])

end Span

end TsxLint
