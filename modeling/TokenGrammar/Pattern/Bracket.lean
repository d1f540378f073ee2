import TokenGrammar.Pattern.Escape

/-!
This module contains the notation of sets of characters between square brackets.
-/

namespace TokenGrammar
namespace Pattern

namespace Bracket

/--
The part of a set that a lexeme begins: a code point, which may be the end of a range, or a class.
-/
def member (ascii : Bool) : Lexeme → Reading (Sum Nat ClassItem)
  | .plain c => pure (.inl c.toNat)
  | .dangling => .refuse
  | .escaped c => do
    match ← Escape.readInClass c with
    | .code n => return .inl n
    | .named category negated => return .inr (.named category ascii negated)
    | _ => .refuse

/--
A part of a set as an item of it.
-/
def item : Sum Nat ClassItem → ClassItem
  | .inl n => .range n n
  | .inr item => item

/--
Read one part of a set, which the given lexeme begins, with the end of the range if a range follows.
The second answer says whether the closing bracket has been read too, as it is when it follows a
minus sign.
-/
def part (ascii : Bool) (lexeme : Lexeme) : Reading (List ClassItem × Bool) := do
  let first ← member ascii lexeme
  if !(← Reading.accept '-') then return ([item first], false)
  let other ← Reading.expect
  if other == .plain ']' then return ([item first, .range 45 45], true)
  match first, ← member ascii other with
  | .inl m, .inl n => if m ≤ n then return ([.range m n], false) else .refuse
  | _, _ => .refuse

/--
Read the parts of a set up to the closing bracket. A closing bracket right at the start is a member.
-/
def parts (ascii : Bool) (found : List ClassItem) : Reading (List ClassItem)
  | [] => .error .malformed
  | lexeme :: rest =>
    if lexeme == .plain ']' && !found.isEmpty then .ok ⟨found, rest, Nat.le_succ _⟩
    else match part ascii lexeme rest with
      | .error fault => .error fault
      | .ok ⟨(items, closed), rest', rest'_le⟩ =>
        if closed then .ok ⟨found ++ items, rest', Nat.le_succ_of_le rest'_le⟩
        else match parts ascii (found ++ items) rest' with
          | .error fault => .error fault
          | .ok ⟨items, rest'', rest''_le⟩ =>
            .ok ⟨items, rest'', Nat.le_succ_of_le (Nat.le_trans rest''_le rest'_le)⟩
termination_by input => input.length
decreasing_by
  simp only [List.length_cons]
  omega

/--
Read a set of characters behind its opening bracket.
-/
def read (flags : Flags) : Reading CharSet := do
  let negated ← Reading.accept '^'
  let items ← parts flags.ascii []
  return ⟨items, negated, flags.folding⟩

end Bracket

end Pattern
end TokenGrammar
