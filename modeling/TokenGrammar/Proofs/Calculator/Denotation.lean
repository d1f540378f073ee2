import TokenGrammar.Calculator
import TokenGrammar.Proofs.DigitRun
import TokenGrammar.Proofs.Ranked

/-!
This module contains what arithmetic expressions denote, and the productions of the calculator. Its rules
come in two levels, of sums and of products, that differ in nothing but their operators and operands.
-/

namespace TokenGrammar
namespace Calculator

/--
The operators of products bind tighter than those of sums.
-/
inductive Level where
  | sum
  | product
  deriving DecidableEq

/--
A chain of sums is an expression, a chain of products is a term.
-/
inductive Phrase where
  | chain (level : Level)
  | factor

def Level.operand : Level → Phrase
  | .sum => .chain .product
  | .product => .factor

namespace Operator

def level : Operator → Level
  | .add | .sub => .sum
  | .mul | .div => .product

def mark : Operator → String
  | .add => "+"
  | .sub => "-"
  | .mul => "*"
  | .div => "/"

/--
The integer that an operation comes to. A quotient is no integer here.
-/
def denote : Operator → Int → Int → Option Int
  | .add, m, n => some (m + n)
  | .sub, m, n => some (m - n)
  | .mul, m, n => some (m * n)
  | .div, _, _ => none

end Operator

/--
A number is written with decimal digits.
-/
def IsNumber (token : String) : Prop :=
  token.toList ≠ [] ∧ ∀ c ∈ token.toList, Text.isDigit c = true

instance (token : String) : Decidable (IsNumber token) :=
  decidable_of_iff (token.toList ≠ [] ∧ token.toList.all Text.isDigit = true)
    (and_congr_right fun _ => List.all_eq_true)

/--
The tokens are derivable from a phrase, and the derivation denotes an integer unless it has a quotient.
-/
inductive Denotes : Phrase → List String → Option Int → Prop where
  | number {token} (h : IsNumber token) : Denotes .factor [token] (some (Numeral.decimal token))
  | opposite {tokens value} (h : Denotes .factor tokens value)
      : Denotes .factor ("-" :: tokens) (value.map Int.neg)
  | brackets {tokens value} (h : Denotes (.chain .sum) tokens value)
      : Denotes .factor ("(" :: (tokens ++ [")"])) value
  | operand {level tokens value} (h : Denotes level.operand tokens value)
      : Denotes (.chain level) tokens value
  | operation {left right m n} (operator : Operator)
      (hleft : Denotes (.chain operator.level) left m)
      (hright : Denotes operator.level.operand right n)
      : Denotes (.chain operator.level) (left ++ operator.mark :: right)
          (do operator.denote (← m) (← n))

/--
The rules of the calculator. A chain is a list of operands with the operators between them, and the rule
of the whole has its value.
-/
inductive Symbol where
  | start
  | whole (level : Level)
  | chain (level : Level)
  | factor
  | number

namespace Symbol

def all : List Symbol :=
  [.start, .whole .sum, .chain .sum, .whole .product, .chain .product, .factor, .number]

def name : Symbol → String
  | .start => "calc"
  | .whole .sum => "expr"
  | .chain .sum => "sum"
  | .whole .product => "term"
  | .chain .product => "product"
  | .factor => "factor"
  | .number => "number"

def rank : Symbol → Nat
  | .start => 7
  | .whole .sum => 6
  | .chain .sum => 5
  | .whole .product => 4
  | .chain .product => 3
  | .factor => 2
  | .number => 1

end Symbol

def Phrase.symbol : Phrase → Symbol
  | .chain level => .whole level
  | .factor => .factor

def Level.marks : Level → Pattern.CharSet
  | .sum => ⟨[.range 43 43, .range 45 45], false, .exact⟩
  | .product => ⟨[.range 42 42, .range 47 47], false, .exact⟩

def digits : Pattern.CharSet := ⟨[.named .digit false false], false, .exact⟩

def Symbol.production : Symbol → Production
  | .start => .onNode [[.reference (Symbol.whole .sum).name]] (·.item 0)
  | .whole level => .onNode [[.reference (Symbol.chain level).name]] chainItemValue
  | .chain level =>
    .onNode
      [[.reference level.operand.symbol.name, .pattern (.one level.marks),
          .reference (Symbol.chain level).name],
        [.reference level.operand.symbol.name]]
      toChain
  | .factor =>
    .onNode
      [[.literal "(", .reference (Symbol.whole .sum).name, .literal ")"],
        [.literal "-", .reference Symbol.factor.name], [.reference Symbol.number.name]]
      factorValue
  | .number => .onNode [[.pattern (.rounds .greedy 1 none (.one digits))]] numberValue

/--
The rules with the number of levels that they nest before a token is consumed.
-/
def ranked : Ranked Symbol where
  name := Symbol.name
  production := Symbol.production
  symbols := Symbol.all
  rank := Symbol.rank
  levels := 7
  rank_pos := by
    intro symbol
    unfold Symbol.rank
    split <;> omega
  rank_le := by
    intro symbol
    unfold Symbol.rank
    split <;> omega
  lookup := by
    intro symbol
    cases symbol with
    | whole level =>
      cases level with
      | _ => rfl
    | chain level =>
      cases level with
      | _ => rfl
    | _ => rfl

theorem grammar_eq
    : grammar
        =
      { splitter := .function fun text => .ok (.texts (tokens text))
        rules := ⟨[
          ⟨"calc", ["expr"], [["expr"]], some (.onNode (·.item 0))⟩,
          ⟨"expr", ["sum"], [["sum"]], some (.onNode chainItemValue)⟩,
          ⟨"sum", ["term /[+-]/ sum", "term"], [["term", "/[+-]/", "sum"], ["term"]],
            some (.onNode toChain)⟩,
          ⟨"term", ["product"], [["product"]], some (.onNode chainItemValue)⟩,
          ⟨"product", ["factor /[*/]/ product", "factor"],
            [["factor", "/[*/]/", "product"], ["factor"]], some (.onNode toChain)⟩,
          ⟨"factor", ["\x22( expr \x22)", "\x22- factor", "number"],
            [["\x22(", "expr", "\x22)"], ["\x22-", "factor"], ["number"]],
            some (.onNode factorValue)⟩,
          ⟨"number", ["/\\d+/"], [["/\\d+/"]], some (.onNode numberValue)⟩]⟩ } := by
  with_unfolding_all rfl

theorem read_marks
    : Element.read "/[+-]/" = .ok (.pattern (.one Level.sum.marks))
      ∧ Element.read "/[*/]/" = .ok (.pattern (.one Level.product.marks))
      ∧ Element.read "/\\d+/" = .ok (.pattern (.rounds .greedy 1 none (.one digits))) := by
  refine ⟨?_, ?_, ?_⟩
  . exact eq_ok_of_toOption (by decide +kernel)
  . exact eq_ok_of_toOption (by decide +kernel)
  . exact eq_ok_of_toOption (by decide +kernel)

theorem grammar_pursues : grammar.Pursues ranked.productions := by
  rcases read_marks with ⟨hsum, hproduct, hnumber⟩
  rw [grammar_eq]
  refine ⟨rfl, ?_⟩
  unfold Ranked.productions ranked Symbol.all
  rw [List.forall₂_map_right_iff]
  dsimp only
  refine .cons ⟨rfl, ?_⟩ (.cons ⟨rfl, ?_⟩ (.cons ⟨rfl, ?_⟩ (.cons ⟨rfl, ?_⟩ (.cons ⟨rfl, ?_⟩
    (.cons ⟨rfl, ?_⟩ (.cons ⟨rfl, ?_⟩ .nil))))))
  . rw [Symbol.production]
    apply Production.reads_onNode rfl
    exact .cons (.cons rfl .nil) .nil
  . rw [Symbol.production]
    apply Production.reads_onNode rfl
    exact .cons (.cons rfl .nil) .nil
  . rw [Symbol.production]
    apply Production.reads_onNode rfl
    exact .cons (.cons rfl (.cons hsum (.cons rfl .nil))) (.cons (.cons rfl .nil) .nil)
  . rw [Symbol.production]
    apply Production.reads_onNode rfl
    exact .cons (.cons rfl .nil) .nil
  . rw [Symbol.production]
    apply Production.reads_onNode rfl
    exact .cons (.cons rfl (.cons hproduct (.cons rfl .nil))) (.cons (.cons rfl .nil) .nil)
  . rw [Symbol.production]
    apply Production.reads_onNode rfl
    exact .cons (.cons rfl (.cons rfl (.cons rfl .nil)))
      (.cons (.cons rfl (.cons rfl .nil)) (.cons (.cons rfl .nil) .nil))
  . rw [Symbol.production]
    apply Production.reads_onNode rfl
    exact .cons (.cons hnumber .nil) .nil

end Calculator
end TokenGrammar
