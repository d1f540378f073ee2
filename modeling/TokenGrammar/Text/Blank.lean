/-!
This module contains the characters that separate words in running text and the function `words`
that cuts a text at them. A word is never empty and never holds a blank.
-/

namespace TokenGrammar
namespace Text

/--
The characters that count as blank: the separators and line breaks of ASCII and its four
information separators, and every space and line separator beyond ASCII.
-/
def isBlank (c : Char) : Bool :=
  let n := c.toNat
  (9 ≤ n && n ≤ 13) || (28 ≤ n && n ≤ 32) || n == 0x85 || n == 0xA0 || n == 0x1680
    || (0x2000 ≤ n && n ≤ 0x200A) || n == 0x2028 || n == 0x2029 || n == 0x202F || n == 0x205F
    || n == 0x3000

/--
Cut a list of characters at its blanks, keeping the non-empty pieces.
-/
def wordsOf (cs : List Char) : List (List Char) :=
  match _h : cs.dropWhile isBlank with
  | [] => []
  | c :: rest =>
    (c :: rest.takeWhile (fun d => !isBlank d)) :: wordsOf (rest.dropWhile (fun d => !isBlank d))
termination_by cs.length
decreasing_by
  have hdrop := (List.dropWhile_sublist isBlank (l := cs)).length_le
  have hrest := (List.dropWhile_sublist (fun d => !isBlank d) (l := rest)).length_le
  rw [_h] at hdrop
  simp only [List.length_cons] at hdrop
  omega

/--
The words of a text, in order.
-/
def words (text : String) : List String :=
  (wordsOf text.toList).map String.ofList

/--
The characters without those at the two ends for which `isMargin` holds.
-/
def trimmed (isMargin : Char → Bool) (cs : List Char) : List Char :=
  ((cs.dropWhile isMargin).reverse.dropWhile isMargin).reverse

/--
The text without the blanks at its two ends.
-/
def trimBlanks (text : String) : String :=
  String.ofList (trimmed isBlank text.toList)

end Text
end TokenGrammar
