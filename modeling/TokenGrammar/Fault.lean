import TokenGrammar.Fault.Family
import TokenGrammar.Numeral
import TokenGrammar.Pattern.Reading
import TokenGrammar.Value.Written

/-!
This module contains everything that can go wrong, by its cause, with the kind it is reported under
and its wording.
-/

namespace TokenGrammar

/--
The kinds that errors are reported under: the family of the grammar, and general kinds.
-/
inductive FaultKind where
  | grammar (family : Family)
  | type
  | value
  | decoding
  | index
  | zeroDivision
  | overflow
  | recursion
  deriving DecidableEq, Repr

/--
What is wrong with the text of a scalar.
-/
inductive ScalarProblem where
  | controlCharacter
  | invalidEscape
  | invalidUnicodeEscape
  | extraData
  deriving DecidableEq, Repr

/--
The wording of a problem with the text of a scalar.
-/
def ScalarProblem.message : ScalarProblem → String
  | .controlCharacter => "Invalid control character at"
  | .invalidEscape => "Invalid \\escape"
  | .invalidUnicodeEscape => "Invalid \\uXXXX escape"
  | .extraData => "Extra data"

/--
The causes of errors.
-/
inductive Fault where
  /-- A parse of an empty rule set. -/
  | emptyRules
  /-- A rule name that is no text, or an empty one. -/
  | badRuleName (given : Value)
  /-- A list of options with a member that is no text. -/
  | nonTextOption (rule : String)
  /-- Options that are neither a text nor a list. -/
  | badOptions (rule : String) (typeName : String)
  /-- An action that cannot be called. -/
  | badAction (rule : String)
  /-- A default action that cannot be called. -/
  | badDefaultAction
  /-- A name that no rule has. -/
  | unknownRule (name : Value)
  /-- A change of the rule set while a run is under way. -/
  | sealed (name : Value)
  /-- A pattern element without a body. -/
  | emptyPattern (element : String)
  /-- A pattern element whose body is refused. -/
  | badPattern (element : String) (fault : Pattern.PatternFault)
  /-- A source that yields no tokens. -/
  | badSource (typeName : String)
  /-- A token that is no text. -/
  | badToken (typeName : String) (index : Nat)
  /-- A run that exceeded its nesting limit. -/
  | nesting (rule : String) (position : Int)
  /-- A nesting limit used up, inside the run that has it. -/
  | exhausted
  /-- Rules that are not given as a mapping. -/
  | badRules (typeName : String)
  /-- A node factory that cannot be called. -/
  | badFactory
  /-- A product of a node factory that cannot serve as a node. -/
  | badProduct (typeName : String)
  | notIterable (typeName : String)
  | notCallable (typeName : String)
  | unhashable (typeName : String)
  /-- An operand of a type that the operation does not take. -/
  | badOperand (typeName : String)
  /-- A stream read from before its first token. -/
  | beforeStart
  /-- A look at tokens before the cursor. -/
  | lookBack
  | indexOutOfRange
  | badIndex (typeName : String)
  | zeroStep
  | numeral (fault : NumeralFault)
  | arithmetic (fault : ArithmeticFault)
  | scalar (problem : ScalarProblem) (offset : Nat)
  /-- A text that is no arithmetic expression. -/
  | notArithmetic (text : String)
  /-- A text that is no document. -/
  | notDocument (text : String)
  /-- Input left over behind the given tokens. -/
  | trailing (tokens : List String)
  /-- An error that an action, a node factory, a splitter or a source comes up with by itself. -/
  | raised (kind : FaultKind) (text : String)
  deriving Inhabited

namespace Fault

/--
The kind that an error is reported under.
-/
def kind : Fault → FaultKind
  | .emptyRules => .grammar .emptyRuleset
  | .badRuleName _ | .nonTextOption _ | .badOptions .. | .badAction _ | .badDefaultAction =>
    .grammar .ruleset
  | .unknownRule _ => .grammar .unknownRule
  | .sealed _ => .grammar .sealedRuleset
  | .emptyPattern _ | .badPattern _ .malformed => .grammar .token
  | .badPattern _ .countTooLarge => .overflow
  | .badPattern _ (.countTooLong _) | .badPattern _ .incompatibleFlags => .value
  | .badSource _ => .grammar .tokenStream
  | .badToken .. => .grammar .nonstringToken
  | .nesting .. => .grammar .nestingDepth
  | .exhausted => .recursion
  | .badRules _ | .badFactory | .badProduct _ | .notIterable _ | .notCallable _ | .unhashable _
  | .badOperand _ | .badIndex _ => .type
  | .beforeStart | .indexOutOfRange => .index
  | .lookBack | .zeroStep | .numeral _ | .notArithmetic _ | .notDocument _ | .trailing _ => .value
  | .arithmetic .divisionByZero | .arithmetic .floatDivisionByZero => .zeroDivision
  | .arithmetic .quotientTooLarge | .arithmetic .integerTooLarge => .overflow
  | .scalar .. => .decoding
  | .raised kind _ => kind

/--
An error whose wording shows a value. Where the value cannot be written, that is the error instead.
-/
def showing (value : Value) (fault : Fault) : Fault :=
  if value.unwritable then .numeral .unwritable else fault

/--
What an error says behind the headline of its kind, or all it says if its kind has no headline.
-/
def detail : Fault → String
  | .emptyRules => ""
  | .badRuleName given => "rule names must be non-empty strings, got " ++ given.written
  | .nonTextOption rule => s!"rule '{rule}': a list of options must contain only strings"
  | .badOptions rule typeName =>
    s!"rule '{rule}': expected a string or a list of strings, got {typeName}"
  | .badAction rule => s!"rule '{rule}': actions must be callable"
  | .badDefaultAction => "default_action must be callable"
  | .unknownRule name => name.written
  | .sealed name => "can't change rule '" ++ name.plain ++ "'"
  | .emptyPattern element => "empty pattern " ++ Text.quoted element
  | .badPattern element .malformed => "invalid pattern " ++ Text.quoted element
  | .badPattern _ .countTooLarge => "the repetition number is too large"
  | .badPattern _ (.countTooLong fault) => fault.message
  | .badPattern _ .incompatibleFlags => "ASCII and UNICODE flags are incompatible"
  | .badSource typeName => s!"cannot build a token stream from {typeName}"
  | .badToken typeName index => s!"{typeName} at position {index}"
  | .nesting rule position => s!"while matching rule '{rule}' at token {position}"
  | .exhausted => "maximum recursion depth exceeded"
  | .badRules typeName => s!"cannot form a grammar from a {typeName}"
  | .badFactory => "node_factory must be callable"
  | .badProduct typeName =>
    s!"node_factory produced a {typeName}, which lacks append() or iteration"
  | .notIterable typeName => s!"'{typeName}' object is not iterable"
  | .notCallable typeName => s!"'{typeName}' object is not callable"
  | .unhashable typeName => s!"unhashable type: '{typeName}'"
  | .badOperand typeName => s!"unsupported operand type: '{typeName}'"
  | .beforeStart => "tuple index out of range"
  | .lookBack => "can't look back in the token stream"
  | .indexOutOfRange => "list index out of range"
  | .badIndex typeName => s!"list indices must be integers or slices, not {typeName}"
  | .zeroStep => "slice step cannot be zero"
  | .numeral fault => fault.message
  | .arithmetic fault => fault.message
  | .scalar problem offset =>
    let column := offset + 1
    s!"{problem.message}: line 1 column {column} (char {offset})"
  | .notArithmetic text => "not an arithmetic expression: " ++ Text.quoted text
  | .notDocument text => "not a JSON document: " ++ Text.quoted text
  | .trailing tokens => "trailing input after " ++ Text.quoted (" ".intercalate tokens)
  | .raised _ text => text

/--
The wording of an error.
-/
def message (fault : Fault) : String :=
  match fault.kind with
  | .grammar family => family.describe fault.detail
  | _ => fault.detail

end Fault
end TokenGrammar
