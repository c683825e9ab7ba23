/-!
# Character classes as ranges

A class of characters is given by closed ranges of code points.
-/

namespace Thoroughfare
namespace Text

/-- Whether a code point lies in one of the ranges. -/
def inRanges (ranges : List (Nat × Nat)) (code : Nat) : Bool :=
  ranges.any fun range => range.1 ≤ code && code ≤ range.2

end Text
end Thoroughfare
