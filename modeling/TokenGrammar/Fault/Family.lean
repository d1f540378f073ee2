/-!
This module contains the family of errors that belong to grammars: the headline of each member and
its place in the family.
-/

namespace TokenGrammar

/--
The errors that belong to grammars. Every member but the first is a special case of another one.
-/
inductive Family where
  | parse
  | ruleset
  | emptyRuleset
  | unknownRule
  | sealedRuleset
  | token
  | tokenStream
  | nonstringToken
  | nestingDepth
  deriving DecidableEq, Repr

namespace Family

/--
All members of the family.
-/
def all : List Family :=
  [.parse, .ruleset, .emptyRuleset, .unknownRule, .sealedRuleset, .token, .tokenStream,
    .nonstringToken, .nestingDepth]

/--
The name that a member is reported under.
-/
def name : Family → String
  | .parse => "ParseError"
  | .ruleset => "RulesetError"
  | .emptyRuleset => "EmptyRulesetError"
  | .unknownRule => "UnknownRuleError"
  | .sealedRuleset => "SealedRulesetError"
  | .token => "TokenError"
  | .tokenStream => "TokenStreamError"
  | .nonstringToken => "NonstringTokenError"
  | .nestingDepth => "NestingDepthError"

/--
What a member says about the error before any detail.
-/
def headline : Family → String
  | .parse => "Parse error"
  | .ruleset => "Problem with ruleset definition"
  | .emptyRuleset => "Problem with ruleset definition: empty ruleset not allowed"
  | .unknownRule => "Problem with ruleset definition: reference to an undefined rule"
  | .sealedRuleset =>
    "Problem with ruleset definition: rules cannot change while a parse is running"
  | .token => "Malformed token or grammar element"
  | .tokenStream => "Source can't be turned into a token sequence"
  | .nonstringToken => "Token not a string"
  | .nestingDepth => "Grammar nesting exceeds the interpreter recursion limit"

/--
A member and the more and more general ones it is a special case of.
-/
def ancestry : Family → List Family
  | .parse => [.parse]
  | .ruleset => [.ruleset, .parse]
  | .emptyRuleset => [.emptyRuleset, .ruleset, .parse]
  | .unknownRule => [.unknownRule, .ruleset, .parse]
  | .sealedRuleset => [.sealedRuleset, .ruleset, .parse]
  | .token => [.token, .parse]
  | .tokenStream => [.tokenStream, .token, .parse]
  | .nonstringToken => [.nonstringToken, .tokenStream, .token, .parse]
  | .nestingDepth => [.nestingDepth, .parse]

/--
The member with the given name.
-/
def ofName? (name : String) : Option Family :=
  all.find? (·.name == name)

/--
The headline with a detail behind it, if there is one.
-/
def describe (family : Family) (detail : String) : String :=
  if detail.isEmpty then family.headline else family.headline ++ ": " ++ detail

end Family
end TokenGrammar
