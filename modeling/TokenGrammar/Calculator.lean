import TokenGrammar.Matcher
import TokenGrammar.Text.Scan

/-!
This module contains a calculator as an example of a grammar with actions: sums and products of
integers, with brackets and signs. The rules of sums and products nest to the right; their actions
flatten the nest to a chain of operands and operators, which is then evaluated from the left.
-/

namespace TokenGrammar
namespace Calculator

/--
The marks that are tokens by themselves.
-/
def marks : List Char := ['-', '+', '*', '/', '(', ')']

/--
A token is a run of digits that is as long as possible, or a mark.
-/
def lexer : Text.Lexer
  | [] => 0
  | c :: rest =>
    if Text.isDigit c then (rest.takeWhile Text.isDigit).length + 1
    else if marks.contains c then 1 else 0

/--
The tokens of a text.
-/
def tokens (text : String) : List String :=
  (Text.lexemes lexer text.toList).map String.ofList

/--
The operations of the calculator.
-/
inductive Operator where
  | add
  | sub
  | mul
  | div
  deriving DecidableEq, Repr

namespace Operator

/--
The operation that a token stands for.
-/
def ofToken? : String → Option Operator
  | "+" => some .add
  | "-" => some .sub
  | "*" => some .mul
  | "/" => some .div
  | _ => none

/--
Carry out an operation.
-/
def apply : Operator → Number → Number → Except ArithmeticFault Number
  | .add => Number.add
  | .sub => Number.sub
  | .mul => Number.mul
  | .div => Number.div

end Operator

/--
The number that a value is.
-/
def number : Value → Except Fault Number
  | .number n => .ok n
  | value => .error (.badOperand value.typeName)

/--
The items of the list that a value is.
-/
def listItems : Value → Except Fault (List Value)
  | .list items => .ok items
  | value => .error (.badOperand value.typeName)

/--
The value with an operator and an operand applied to it.
-/
def applyTo (value operator operand : Value) : Except Fault Value :=
  match operator.text?.bind Operator.ofToken? with
  | none => .error (.badOperand operator.typeName)
  | some operator => do
    match operator.apply (← number value) (← number operand) with
    | .ok result => return .number result
    | .error fault => throw (.arithmetic fault)

/--
Apply operators and operands, in turns, to a value. An operator without an operand is left out.
-/
def applyChain (value : Value) : List Value → Except Fault Value
  | operator :: operand :: chain => do applyChain (← applyTo value operator operand) chain
  | _ => .ok value

/--
The value of a chain of operands with operators between them, from left to right.
-/
def chainValue : List Value → Except Fault Value
  | [] => .error .indexOutOfRange
  | value :: chain => applyChain value chain

/--
The chain of a sum or product: an operand, or an operand and an operator in front of another chain.
-/
def toChain (node : Node) : Except Fault Value :=
  match node.items with
  | [operand, operator, rest] => do return .list (operand :: operator :: (← listItems rest))
  | _ => do return .list [← node.item 0]

/--
The value of a factor: of an expression in brackets, of the opposite of a factor, or of a number.
-/
def factorValue (node : Node) : Except Fault Value :=
  match node.items with
  | [_, value, _] => .ok value
  | [_, value] => do return .number (← number value).neg
  | _ => node.item 0

/--
The integer that a token writes.
-/
def numberValue (node : Node) : Except Fault Value := do
  match ← node.item 0 with
  | .text token => match Numeral.readInteger token with
    | .ok n => return .int n
    | .error fault => throw (.numeral fault)
  | value => throw (.badOperand value.typeName)

/--
The value of the chain that is the only item of a node.
-/
def chainItemValue (node : Node) : Except Fault Value := do
  chainValue (← listItems (← node.item 0))

/--
Declare a rule of the calculator.
-/
def rule (name : String) (options : List String) (action : Node → Except Fault Value) : Run Unit :=
  Grammar.declare (.text name) (.texts options) (.function (.onNode action))

/--
Declare the rules of the calculator.
-/
def declareRules : Run Unit := do
  rule "calc" ["expr"] (·.item 0)
  rule "expr" ["sum"] chainItemValue
  rule "sum" ["term /[+-]/ sum", "term"] toChain
  rule "term" ["product"] chainItemValue
  rule "product" ["factor /[*/]/ product", "factor"] toChain
  rule "factor" ["\x22( expr \x22)", "\x22- factor", "number"] factorValue
  rule "number" ["/\\d+/"] numberValue

/--
The grammar of the calculator.
-/
def grammar : Grammar :=
  let bare : Grammar := { splitter := .function fun text => .ok (.texts (tokens text)) }
  (declareRules { grammar := bare }).2.grammar

/--
Match a text against the grammar. Input may be left over.
-/
def parse (settings : Settings) (text : String) : Except Fault (Option Match) :=
  (Grammar.parse settings (.text text) { grammar := grammar }).1

/--
The value of an arithmetic expression, which has to be the whole text.
-/
def evaluate (settings : Settings) (text : String) : Except Fault Value := do
  match ← parse settings text with
  | none => throw (.notArithmetic text)
  | some found =>
    if found.tokens.length != (tokens text).length then throw (.trailing found.tokens)
    return found.result

end Calculator
end TokenGrammar
