/-!
This module contains sorted tables of code point ranges and the search in them. The tables of
character properties are lists of such ranges.
-/

namespace TokenGrammar
namespace Text

/--
A table of code point ranges, both ends included, in ascending order.
-/
abbrev Ranges := List (Nat × Nat)

/--
Whether some range of the table holds the code point. The search stops at the first range that ends
at or after it, which decides the question because the table ascends.
-/
def Ranges.contains : Ranges → Nat → Bool
  | [], _ => false
  | (first, last) :: rest, n => if n ≤ last then first ≤ n else Ranges.contains rest n

end Text
end TokenGrammar
