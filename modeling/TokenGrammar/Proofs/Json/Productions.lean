import TokenGrammar.Json.Reader
import TokenGrammar.Proofs.DigitRun
import TokenGrammar.Proofs.Json.Document
import TokenGrammar.Proofs.Ranked

/-!
This module contains the productions of JSON documents. The rules of arrays and objects differ in nothing
but their marks, their items and the value that they make of these.
-/

namespace TokenGrammar
namespace Json

open Pattern

namespace ScalarKind

def character (code : Nat) : ClassItem := .range code code

def positive (items : List ClassItem) : Regex := .one ⟨items, false, .exact⟩

def negative (items : List ClassItem) : Regex := .one ⟨items, true, .exact⟩

def digit : Regex := positive [.named .digit false false]

/--
A quote, characters of which those behind a backslash are no line feeds, and a quote.
-/
def stringRegex : Regex :=
  .cat (positive [character 34])
    (.cat (.rounds .greedy 0 none
        (.alt (negative [character 34, character 92])
          (.cat (positive [character 92]) (negative [character 10]))))
      (positive [character 34]))

/--
Perhaps a minus, a zero or digits after one from 1 to 9, perhaps a fraction, and perhaps an exponent.
-/
def numberRegex : Regex :=
  .cat (.rounds .greedy 0 (some 1) (positive [character 45]))
    (.cat (.alt (positive [character 48])
        (.cat (positive [.range 49 57]) (.rounds .greedy 0 none digit)))
      (.cat (.rounds .greedy 0 (some 1)
          (.cat (positive [character 46]) (.rounds .greedy 1 none digit)))
        (.rounds .greedy 0 (some 1)
          (.cat (positive [character 101, character 69])
            (.cat (.rounds .greedy 0 (some 1) (positive [character 43, character 45]))
              (.rounds .greedy 1 none digit))))))

def elements : ScalarKind → List Element
  | .string => [.pattern stringRegex]
  | .number => [.pattern numberRegex]
  | .constant => [.literal "true", .literal "false", .literal "null"]

theorem reads (kind : ScalarKind)
    : List.Forall₂ (fun written element => Element.read written = .ok element) kind.written
        kind.elements := by
  cases kind with
  | string => exact .cons (eq_ok_of_toOption (by decide +kernel)) .nil
  | number => exact .cons (eq_ok_of_toOption (by decide +kernel)) .nil
  | constant => exact .cons rfl (.cons rfl (.cons rfl .nil))

theorem accepts_iff {kind : ScalarKind} {token : String}
    : kind.Accepts token ↔ kind.elements.any (·.accepts (some token)) = true := by
  have hreads := kind.reads
  unfold Accepts
  generalize kind.written = written at hreads
  generalize kind.elements = elements at hreads
  induction hreads with
  | nil => simp
  | cons hread _ ih => simp [hread, ih]

instance (kind : ScalarKind) (token : String) : Decidable (kind.Accepts token) :=
  decidable_of_iff (kind.elements.any (·.accepts (some token)) = true) accepts_iff.symm

theorem not_reference_mem (kind : ScalarKind) (name : String) : .reference name ∉ kind.elements := by
  cases kind with
  | _ => simp [elements]

theorem accepts_none (kind : ScalarKind) : ∀ element ∈ kind.elements, element.accepts none = false := by
  cases kind with
  | _ => decide +kernel

/--
No bracket and no brace is a scalar.
-/
theorem accepts_mark (kind : ScalarKind)
    : ∀ mark ∈ ["[", "]", "\x7b", "\x7d"], kind.elements.any (·.accepts (some mark)) = false := by
  cases kind with
  | _ => decide +kernel

theorem toList_of_string {token : String} (h : string.Accepts token)
    : ∃ rest, token.toList = '\x22' :: rest := by
  have hmatches : stringRegex.matchesWhole token = true := by
    simpa [accepts_iff, elements, Element.accepts, Element.regexAccepts] using h
  rcases matchesWhole_cat_one hmatches with ⟨c, rest, hrest, hcontains⟩
  have hcode : c.toNat = '\x22'.toNat := by
    simp [character, CharSet.contains, ClassItem.contains, Folding.variants] at hcontains
    simp
    omega
  rw [Char.toNat_inj] at hcode
  exact ⟨rest, by rw [hrest, hcode]⟩

end ScalarKind

theorem scalarValue_quote (rest : List Char)
    : scalarValue ('\x22' :: rest)
        =
      (stringChars 1 rest).map fun found => (.text (String.ofList found.1), found.2) := by
  rfl

theorem decodeScalar_of_quote {token : String} {rest : List Char} {value : Value}
    (htoken : token.toList = '\x22' :: rest) (h : decodeScalar token = .ok value)
    : ∃ name, value = .text name := by
  unfold decodeScalar at h
  rw [htoken] at h
  dsimp only at h
  rw [scalarValue_quote] at h
  cases hchars : stringChars 1 rest with
  | error fault =>
    rw [hchars] at h
    cases h
  | ok found =>
    rw [hchars] at h
    simp only [Except.map, bind, Except.bind] at h
    split at h
    . cases h
    . cases h
      exact ⟨_, rfl⟩

/--
What is decoded of a string is a text.
-/
def Decoder.ReadsTexts (decode : Decoder) : Prop :=
  ∀ token value, ScalarKind.string.Accepts token → decode token = .ok value →
    ∃ name, value = .text name

theorem decodeScalar_readsTexts : Decoder.ReadsTexts decodeScalar := by
  intro token value haccepts hvalue
  rcases ScalarKind.toList_of_string haccepts with ⟨rest, hrest⟩
  exact decodeScalar_of_quote hrest hvalue

theorem Decoder.ReadsTexts.exists_key {decode : Decoder} (h : decode.ReadsTexts)
    (scalar : Scalar decode .string)
    : ∃ key : Key decode, key.toScalar = scalar := by
  rcases h scalar.token scalar.value scalar.accepts scalar.decodes with ⟨name, hname⟩
  exact ⟨⟨scalar, name, hname⟩, rfl⟩

/--
Arrays list elements, objects list members.
-/
inductive Kind where
  | array
  | object

/--
The rules of documents. A listing is a list of at least one item.
-/
inductive Symbol where
  | value
  | scalar (kind : ScalarKind)
  | container (kind : Kind)
  | listing (kind : Kind)
  | pair

namespace Symbol

def all : List Symbol :=
  [.value, .scalar .string, .scalar .number, .scalar .constant, .container .object, .listing .object,
    .pair, .container .array, .listing .array]

def name : Symbol → String
  | .value => "value"
  | .scalar .string => "string"
  | .scalar .number => "number"
  | .scalar .constant => "constant"
  | .container .array => "array"
  | .container .object => "object"
  | .listing .array => "elements"
  | .listing .object => "members"
  | .pair => "pair"

def rank : Symbol → Nat
  | .listing _ => 3
  | .value | .pair => 2
  | .scalar _ | .container _ => 1

/--
The rules that a value is a choice of.
-/
def choices : List Symbol :=
  [.container .object, .container .array, .scalar .string, .scalar .number, .scalar .constant]

end Symbol

namespace Kind

def opening : Kind → String
  | .array => "["
  | .object => "\x7b"

def closing : Kind → String
  | .array => "]"
  | .object => "\x7d"

def item : Kind → Symbol
  | .array => .value
  | .object => .pair

def action : Kind → Node → Except Fault Value
  | .array => Json.array
  | .object => Json.object

end Kind

def Symbol.production (decode : Decoder) : Symbol → Production
  | .value =>
    .onNode ((choices.map Symbol.name).map fun name => [.reference name]) (·.item 0)
  | .scalar kind => .onNode (kind.elements.map fun element => [element]) decode.scalar
  | .container kind =>
    .onNode
      [[.literal kind.opening, .literal kind.closing],
        [.literal kind.opening, .reference (Symbol.listing kind).name, .literal kind.closing]]
      kind.action
  | .listing kind =>
    .onNode
      [[.reference kind.item.name, .literal ",", .reference (Symbol.listing kind).name],
        [.reference kind.item.name]]
      flatten
  | .pair =>
    .onNode
      [[.reference (Symbol.scalar .string).name, .literal ":", .reference Symbol.value.name]]
      Json.pair

/--
The rules with the number of levels that they nest before a token is consumed.
-/
def Decoder.ranked (decode : Decoder) : Ranked Symbol where
  name := Symbol.name
  production := Symbol.production decode
  symbols := Symbol.all
  rank := Symbol.rank
  levels := 3
  rank_pos := by
    intro symbol
    cases symbol with
    | _ => exact Nat.succ_pos _
  rank_le := by
    intro symbol
    cases symbol with
    | _ => simp [Symbol.rank]
  lookup := by
    intro symbol
    cases symbol with
    | value => rfl
    | pair => rfl
    | _ kind =>
      cases kind with
      | _ => rfl

section

variable {g : Grammar} {name : String} {options : List String} {action : Node → Except Fault Value}

theorem rule_apply (hg : g.running = 0) (words : List (List String))
    (hmake : Rule.make (.text name) (.texts options) (.function (.onNode action))
      = (none, .ok ⟨name, options, words, some (.onNode action)⟩))
    (hnew : g.rules.names.contains name = false) (journal : Array Event)
    : rule name options action ⟨g, journal⟩
        =
      (.ok (), ⟨{ g with
        rules := ⟨g.rules.toList ++ [⟨name, options, words, some (.onNode action)⟩]⟩ }, journal⟩) :=
  Run.declare_new hg hmake hnew journal

theorem rule_bind (hg : g.running = 0) (words : List (List String))
    (hmake : Rule.make (.text name) (.texts options) (.function (.onNode action))
      = (none, .ok ⟨name, options, words, some (.onNode action)⟩))
    (hnew : g.rules.names.contains name = false) (rest : Unit → Run Unit) (journal : Array Event)
    : (rule name options action >>= rest) ⟨g, journal⟩
        =
      rest () ⟨{ g with
        rules := ⟨g.rules.toList ++ [⟨name, options, words, some (.onNode action)⟩]⟩ }, journal⟩ := by
  rw [Run.bind_apply, rule_apply hg words hmake hnew]

end

theorem grammar_eq (decode : Decoder)
    : decode.grammar
        =
      { splitter := .function fun text => .ok (.texts (tokens text))
        rules := ⟨[
          ⟨"value", ["object", "array", "string", "number", "constant"],
            [["object"], ["array"], ["string"], ["number"], ["constant"]], some (.onNode (·.item 0))⟩,
          ⟨"string", ScalarKind.string.written, ScalarKind.string.written.map fun written => [written],
            some (.onNode decode.scalar)⟩,
          ⟨"number", ScalarKind.number.written, ScalarKind.number.written.map fun written => [written],
            some (.onNode decode.scalar)⟩,
          ⟨"constant", ScalarKind.constant.written,
            ScalarKind.constant.written.map fun written => [written], some (.onNode decode.scalar)⟩,
          ⟨"object", ["\x22\x7b \x22\x7d", "\x22\x7b members \x22\x7d"],
            [["\x22\x7b", "\x22\x7d"], ["\x22\x7b", "members", "\x22\x7d"]],
            some (.onNode Json.object)⟩,
          ⟨"members", ["pair \x22, members", "pair"], [["pair", "\x22,", "members"], ["pair"]],
            some (.onNode flatten)⟩,
          ⟨"pair", ["string \x22: value"], [["string", "\x22:", "value"]],
            some (.onNode Json.pair)⟩,
          ⟨"array", ["\x22[ \x22]", "\x22[ elements \x22]"],
            [["\x22[", "\x22]"], ["\x22[", "elements", "\x22]"]], some (.onNode Json.array)⟩,
          ⟨"elements", ["value \x22, elements", "value"], [["value", "\x22,", "elements"], ["value"]],
            some (.onNode flatten)⟩]⟩ } := by
  -- one rule after another, as the words of all options at once take long to compute
  unfold Decoder.grammar Decoder.declareRules
  dsimp only
  rw [
    rule_bind rfl [["object"], ["array"], ["string"], ["number"], ["constant"]]
      (by with_unfolding_all rfl) rfl,
    rule_bind rfl (ScalarKind.string.written.map fun written => [written])
      (by with_unfolding_all rfl) rfl,
    rule_bind rfl (ScalarKind.number.written.map fun written => [written])
      (by with_unfolding_all rfl) rfl,
    rule_bind rfl (ScalarKind.constant.written.map fun written => [written])
      (by with_unfolding_all rfl) rfl,
    rule_bind rfl [["\x22\x7b", "\x22\x7d"], ["\x22\x7b", "members", "\x22\x7d"]]
      (by with_unfolding_all rfl) rfl,
    rule_bind rfl [["pair", "\x22,", "members"], ["pair"]]
      (by with_unfolding_all rfl) rfl,
    rule_bind rfl [["string", "\x22:", "value"]]
      (by with_unfolding_all rfl) rfl,
    rule_bind rfl [["\x22[", "\x22]"], ["\x22[", "elements", "\x22]"]]
      (by with_unfolding_all rfl) rfl,
    rule_apply rfl [["value", "\x22,", "elements"], ["value"]]
      (by with_unfolding_all rfl) rfl]
  rfl

theorem ScalarKind.reads_options (kind : ScalarKind)
    : List.Forall₂ (List.Forall₂ fun written element => Element.read written = .ok element)
        (kind.written.map fun written => [written]) (kind.elements.map fun element => [element]) := by
  rw [List.forall₂_map_left_iff, List.forall₂_map_right_iff]
  exact kind.reads.imp fun _ _ hread => .cons hread .nil

theorem grammar_pursues (decode : Decoder)
    : decode.grammar.Pursues decode.ranked.productions := by
  rw [grammar_eq]
  refine ⟨rfl, ?_⟩
  unfold Ranked.productions Decoder.ranked Symbol.all
  rw [List.forall₂_map_right_iff]
  dsimp only
  refine .cons ⟨rfl, ?_⟩ (.cons ⟨rfl, ?_⟩ (.cons ⟨rfl, ?_⟩ (.cons ⟨rfl, ?_⟩ (.cons ⟨rfl, ?_⟩
    (.cons ⟨rfl, ?_⟩ (.cons ⟨rfl, ?_⟩ (.cons ⟨rfl, ?_⟩ (.cons ⟨rfl, ?_⟩ .nil))))))))
  . rw [Symbol.production]
    apply Production.reads_onNode rfl
    exact .cons (.cons rfl .nil) (.cons (.cons rfl .nil) (.cons (.cons rfl .nil)
      (.cons (.cons rfl .nil) (.cons (.cons rfl .nil) .nil))))
  . exact Production.reads_onNode rfl (ScalarKind.reads_options .string)
  . exact Production.reads_onNode rfl (ScalarKind.reads_options .number)
  . exact Production.reads_onNode rfl (ScalarKind.reads_options .constant)
  . rw [Symbol.production]
    apply Production.reads_onNode rfl
    exact .cons (.cons rfl (.cons rfl .nil)) (.cons (.cons rfl (.cons rfl (.cons rfl .nil))) .nil)
  . rw [Symbol.production]
    apply Production.reads_onNode rfl
    exact .cons (.cons rfl (.cons rfl (.cons rfl .nil))) (.cons (.cons rfl .nil) .nil)
  . rw [Symbol.production]
    apply Production.reads_onNode rfl
    exact .cons (.cons rfl (.cons rfl (.cons rfl .nil))) .nil
  . rw [Symbol.production]
    apply Production.reads_onNode rfl
    exact .cons (.cons rfl (.cons rfl .nil)) (.cons (.cons rfl (.cons rfl (.cons rfl .nil))) .nil)
  . rw [Symbol.production]
    apply Production.reads_onNode rfl
    exact .cons (.cons rfl (.cons rfl (.cons rfl .nil))) (.cons (.cons rfl .nil) .nil)

end Json
end TokenGrammar
