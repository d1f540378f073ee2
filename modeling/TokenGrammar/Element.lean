import TokenGrammar.Fault
import TokenGrammar.Pattern.Matching
import TokenGrammar.Pattern.Notation

/-!
This module contains the elements that an option is made of. An element is written as a text: behind a
double quote stands a literal, between slashes a pattern, and anything else names a rule.
-/

namespace TokenGrammar

/--
What an element asks for: a certain token, a token that a pattern matches, or what a rule matches.
-/
inductive Element where
  | literal (text : String)
  | pattern (regex : Pattern.Regex)
  | reference (name : String)
  deriving DecidableEq, Repr

namespace Element

/--
Whether an element is written as a literal.
-/
def writesLiteral (element : String) : Bool :=
  element.toList.head? == some '\x22'

/--
Whether an element is written as a pattern: two different slashes are its ends.
-/
def writesPattern (element : String) : Bool :=
  match element.toList with
  | '/' :: rest => rest.getLast? == some '/'
  | _ => false

/--
The text between the ends of a pattern element.
-/
def patternBody (element : String) : String :=
  String.ofList (element.toList.drop 1).dropLast

/--
The pattern that an element writes. It needs a body, and the body must be well formed.
-/
def readPattern (element : String) : Except Fault Pattern.Regex :=
  if (patternBody element).isEmpty then .error (.emptyPattern element)
  else match Pattern.Regex.ofText (patternBody element) with
    | .ok regex => .ok regex
    | .error fault => .error (.badPattern element fault)

/--
The element that a text writes.
-/
def ofText (element : String) : Except Fault Element :=
  if writesLiteral element then .ok (.literal (String.ofList (element.toList.drop 1)))
  else if writesPattern element then .pattern <$> readPattern element
  else .ok (.reference element)

/--
How deep the groups of a pattern may nest that is read while rules are matched.
-/
def groupLimit : Nat := 450

/--
The element that a text writes, as the matcher reads it. A pattern whose groups nest too deeply uses up
the nesting limit.
-/
def read (element : String) : Except Fault Element :=
  if writesPattern element && Pattern.nestsDeeper groupLimit (patternBody element) then
    .error .exhausted
  else ofText element

/--
Whether a token, or the lack of one, is what a pattern asks for. A pattern that matches the empty text
accepts that no token is left.
-/
def regexAccepts (regex : Pattern.Regex) (token : Option String) : Bool :=
  regex.matchesWhole (token.getD "")

/--
Whether an element accepts a token by itself. A reference accepts none.
-/
def accepts (element : Element) (token : Option String) : Bool :=
  match element with
  | .literal text => token == some text
  | .pattern regex => regexAccepts regex token
  | .reference _ => false

/--
Whether an element is a literal that accepts the token.
-/
def literalAccepts (element : String) (token : Option String) : Except Fault Bool := do
  if !writesLiteral element then return false
  return (← ofText element).accepts token

/--
Whether an element is a pattern that accepts the token.
-/
def patternAccepts (element : String) (token : Option String) : Except Fault Bool := do
  if !writesPattern element then return false
  return (← ofText element).accepts token

end Element
end TokenGrammar
