import TokenGrammar.Proofs.Invariant
import TokenGrammar.Proofs.Lockstep

/-!
This module contains the results of rules whose actions return the node. Such a result is a tree with the
tokens of the match at its leaves; and with labelled nodes it is the tree that there is with lists, apart
from the labels.
-/

namespace TokenGrammar
namespace Value

mutual

/--
The texts at the leaves of a tree, from left to right.
-/
def leaves : Value → List String
  | .text token => [token]
  | .list items | .node _ items => leavesOf items
  | _ => []

/--
The texts at the leaves of trees that stand side by side.
-/
def leavesOf : List Value → List String
  | [] => []
  | item :: items => item.leaves ++ leavesOf items

end

mutual

/--
The tree with lists in the place of its labelled nodes.
-/
def unlabelled : Value → Value
  | .list items | .node _ items => .list (unlabelledItems items)
  | value => value

/--
Trees with lists in the place of their labelled nodes.
-/
def unlabelledItems : List Value → List Value
  | [] => []
  | item :: items => item.unlabelled :: unlabelledItems items

end

theorem leavesOf_append (items more : List Value)
    : leavesOf (items ++ more) = leavesOf items ++ leavesOf more := by
  induction items with
  | nil => rfl
  | cons item items ih => simp [leavesOf, ih]

theorem unlabelledItems_append (items more : List Value)
    : unlabelledItems (items ++ more) = unlabelledItems items ++ unlabelledItems more := by
  induction items with
  | nil => rfl
  | cons item items ih => simp [unlabelledItems, ih]

end Value

/--
The shapes of nodes that take any item behind the others.
-/
def NodeShape.Plain : NodeShape → Prop
  | .list | .labelled _ => True
  | .front | .other .. => False

theorem Node.add_of_plain {node : Node} (h : node.shape.Plain) (item : Value)
    : node.add item = .ok { node with items := node.items ++ [item] } := by
  unfold add
  cases hshape : node.shape with
  | list => rfl
  | labelled kind => rfl
  | front =>
    rw [hshape] at h
    exact h.elim
  | other typeName append =>
    rw [hshape] at h
    exact h.elim

/--
The nodes of a factory of empty nodes of a shape.
-/
def NodeFactory.ofShape (shape : NodeShape) : NodeFactory := .constant (.ok (.node ⟨shape, []⟩))

/--
The actions of the rules return their nodes.
-/
def Grammar.Keeping (g : Grammar) : Prop :=
  ∀ rule ∈ g.rules.toList, ∀ node, rule.act node = .done node.toValue

/--
The node has the shape, and the tokens are at its leaves.
-/
def Node.Bears (shape : NodeShape) (tokens : List String) (node : Node) : Prop :=
  node.shape = shape ∧ Value.leavesOf node.items = tokens

/--
The value is a node of the shape with the tokens at its leaves.
-/
def Value.Bears (shape : NodeShape) (tokens : List String) (value : Value) : Prop :=
  ∃ node : Node, node.Bears shape tokens ∧ value = node.toValue

theorem Value.Bears.leaves_eq {shape : NodeShape} (hshape : shape.Plain) {tokens : List String}
    {value : Value} (h : value.Bears shape tokens)
    : value.leaves = tokens := by
  rcases h with ⟨node, ⟨rfl, htokens⟩, rfl⟩
  rw [← htokens]
  unfold Node.toValue
  cases hnode : node.shape with
  | list => rw [leaves]
  | labelled kind => rw [leaves]
  | _ =>
    rw [hnode] at hshape
    exact hshape.elim

theorem Node.Bears.add {shape : NodeShape} (hshape : shape.Plain) {tokens : List String}
    {node next : Node} {item : Value} (h : node.Bears shape tokens) (hadd : node.add item = .ok next)
    : next.Bears shape (tokens ++ item.leaves) := by
  rcases h with ⟨rfl, rfl⟩
  rw [add_of_plain hshape] at hadd
  cases hadd
  refine ⟨rfl, ?_⟩
  rw [Value.leavesOf_append]
  simp [Value.leavesOf]

theorem Matcher.invariant_bears {g : Grammar} {shape : NodeShape} (hshape : shape.Plain)
    (hfactory : g.factory = .ofShape shape) (hactions : g.Keeping)
    : Invariant g (fun tokens node => node.Bears shape tokens)
        (fun tokens value => value.Bears shape tokens) where
  newNode := by
    intro before node hnode
    rw [hfactory] at hnode
    cases hnode
    exact ⟨rfl, rfl⟩
  token := by
    intro tokens node next token hnode hadd
    exact hnode.add hshape hadd
  embed := by
    intro tokens node more value next hnode hvalue hadd
    have hleaves := hvalue.leaves_eq hshape
    rw [← hleaves]
    exact hnode.add hshape hadd
  act := by
    intro tokens node rule matcher hrule hnode
    unfold Run.act
    apply Run.Ensures.note_bind
    rw [hactions rule hrule]
    apply Run.Ensures.pure
    exact ⟨node, hnode, rfl⟩

/--
The one node is a list and the other one is labelled, with the same items apart from the labels.
-/
structure Node.Unlabels (kind : String) (node labelled : Node) : Prop where
  list : node.shape = .list
  shape : labelled.shape = .labelled kind
  items : node.items = Value.unlabelledItems labelled.items

theorem Node.Unlabels.add {kind : String} {node labelled : Node} (h : node.Unlabels kind labelled)
    {value item : Value} (hvalue : value = item.unlabelled)
    : Run.Corresponds (Unlabels kind) (node.add value) (labelled.add item) := by
  have hnode : node.shape.Plain := by
    rw [h.list]
    trivial
  have hlabelled : labelled.shape.Plain := by
    rw [h.shape]
    trivial
  have hitems : node.items ++ [value] = Value.unlabelledItems (labelled.items ++ [item]) := by
    rw [Value.unlabelledItems_append, h.items, hvalue]
    rfl
  rw [add_of_plain hnode, add_of_plain hlabelled]
  exact ⟨h.list, h.shape, hitems⟩

theorem Node.Unlabels.toValue_eq {kind : String} {node labelled : Node}
    (h : node.Unlabels kind labelled)
    : node.toValue = labelled.toValue.unlabelled := by
  unfold toValue
  rw [h.list, h.shape, h.items]
  dsimp only
  rw [Value.unlabelled]

theorem RuleSet.rel_find?_self (rules : RuleSet) (name : String)
    : Option.Rel (fun rule rule' => rule = rule' ∧ rule ∈ rules.toList) (rules.find? name)
        (rules.find? name) := by
  cases hfind : rules.find? name with
  | none => exact .none
  | some rule => exact .some ⟨rfl, mem_of_find? hfind⟩

/--
The grammar with another node factory.
-/
def Grammar.withFactory (g : Grammar) (factory : NodeFactory) : Grammar := { g with factory := factory }

namespace Matcher

variable {g : Grammar}

theorem agreement_unlabels (kind : String) (tracing : Bool)
    : Agreement (g.withFactory .list) (g.withFactory (.labelled kind)) tracing tracing Eq
        (fun value labelled => value = labelled.unlabelled) (Node.Unlabels kind) where
  text := fun _ => rfl
  add := fun hnode hvalue => hnode.add hvalue
  newNode := by
    apply Run.Parallels.newNode
    . rintro journal _ rfl
      rfl
    . intro journal journal' _
      exact ⟨rfl, rfl, rfl⟩
  trace := fun line => Run.Parallels.trace tracing (Run.push_congr (.traced line))

theorem ofDepth_unlabels (kind : String) (hactions : g.Keeping) (tracing : Bool) (depth : Nat)
    {rule : Rule} (hrule : rule ∈ g.rules.toList) (stream : TokenStream)
    : Run.Parallels (g.withFactory .list) (g.withFactory (.labelled kind)) Eq
        (Option.Rel (Match.Related fun value labelled => value = labelled.unlabelled))
        (ofDepth tracing depth rule stream) (ofDepth tracing depth rule stream) := by
  induction depth generalizing rule stream with
  | zero => exact Run.Parallels.throw .exhausted
  | succ depth ih =>
    apply matchOptions_parallels (agreement_unlabels kind tracing) rfl
    . intro _ _ _ _ name _
      refine refersAlike_of_rel (RuleSet.rel_find?_self g.rules name) ?_
      rintro target _ _ _ ⟨rfl, htarget⟩ there
      exact ih htarget there
    . intro node labelled hnode
      unfold Run.act
      rw [hactions rule hrule, hactions rule hrule]
      apply Run.Parallels.bind (Run.Parallels.note (Run.push_congr _))
      intro _ _ _
      exact Run.Parallels.pure hnode.toValue_eq

end Matcher

namespace Grammar.Entry

theorem run_unlabels {g : Grammar} (kind : String) (hactions : g.Keeping) (entry : Entry)
    (settings : Settings) (source : Source)
    : Run.Parallels (g.withFactory .list) (g.withFactory (.labelled kind)) Eq
        (Option.Rel (Match.Related fun value labelled => value = labelled.unlabelled))
        (entry.run settings source) (entry.run settings source) := by
  have hsplitter : (g.withFactory (.labelled kind)).splitter = (g.withFactory .list).splitter := rfl
  apply run_parallels hsplitter rfl (RuleSet.rel_find?_self g.rules)
  . rintro rule _ ⟨rfl, _⟩
    rfl
  . rintro rule _ ⟨rfl, hmem⟩ stream
    exact Matcher.ofDepth_unlabels (g := g.sealed) kind hactions settings.tracing _ hmem stream

theorem ensures_run_bears {g : Grammar} {shape : NodeShape} (hshape : shape.Plain)
    (hactions : g.Keeping) (entry : Entry) (settings : Settings) (source : Source)
    : Run.Ensures (g.withFactory (.ofShape shape)) (entry.run settings source)
        (Matcher.Matched fun tokens value => value.Bears shape tokens) (fun _ => True) := by
  apply ensures_run_matched
  exact Matcher.invariant_bears hshape rfl hactions

/--
Where the actions return their nodes, the texts at the leaves of a result are the tokens of the match.
This holds of nested lists as well as of labelled nodes; and a run with lists comes to what a run with
labelled nodes comes to when the labels are dropped.
-/
theorem run_leaves {g : Grammar} (hactions : g.Keeping) (kind : String) (entry : Entry)
    (settings : Settings) (source : Source) (journal : Array Event)
    : let answer := (entry.run settings source ⟨g.withFactory .list, journal⟩).1
      let labelled := (entry.run settings source ⟨g.withFactory (.labelled kind), journal⟩).1
      (∀ found, answer = .ok (some found) → found.result.leaves = found.tokens)
      ∧ (∀ found, labelled = .ok (some found) →
          ∃ children, found.result = .node kind children ∧ Value.leavesOf children = found.tokens)
      ∧ answer
        = labelled.map (Option.map fun found => ⟨found.tokens, found.result.unlabelled⟩) := by
  refine ⟨?_, ?_, ?_⟩
  . intro found hanswer
    have hplain : NodeShape.list.Plain := trivial
    have hbears := ensures_run_bears hplain hactions entry settings source
    exact (hbears.holds_of_ok hanswer found rfl).leaves_eq hplain
  . intro found hanswer
    have hplain : (NodeShape.labelled kind).Plain := trivial
    have hbears := ensures_run_bears hplain hactions entry settings source
    rcases hbears.holds_of_ok hanswer found rfl with ⟨⟨shape, children⟩, ⟨rfl, hleaves⟩, hresult⟩
    exact ⟨children, hresult, hleaves⟩
  . rcases run_unlabels kind hactions entry settings source journal journal rfl with ⟨hanswers, _⟩
    exact (hanswers.mono fun _ _ => Match.eq_map_of_related).eq_map

/--
A grammar of lists in parentheses, with an empty option and with items that may be lists again.
-/
def nesting : Grammar where
  rules := ⟨[
    { name := "list", options := [["\"(", "item", "\")", "list"], []] },
    { name := "item", options := [["\"x"], ["list"]] }]⟩

theorem run_leaves_nesting
    : nesting.Keeping
      ∧ ∃ found,
        (first.run {} (.stream ⟨#["(", "x", ")", "(", "x", ")"], 0⟩) ⟨nesting, #[]⟩).1
          = .ok (some found)
        ∧ found.tokens = ["(", "x", ")", "(", "x", ")"] ∧ found.result.leaves = found.tokens := by
  have hactions : nesting.Keeping := by
    intro rule hrule node
    simp only [nesting, List.mem_cons, List.not_mem_nil, or_false] at hrule
    rcases hrule with rfl | rfl
    . rfl
    . rfl
  have hmatch : (first.run {} (.stream ⟨#["(", "x", ")", "(", "x", ")"], 0⟩)
      ⟨nesting, #[]⟩).1.toOption.map (Option.map Match.tokens)
        = some (some ["(", "x", ")", "(", "x", ")"]) := by
    decide +kernel
  rcases exists_found hmatch with ⟨found, hfound, htokens⟩
  refine ⟨hactions, found, hfound, htokens, ?_⟩
  rcases run_leaves hactions "group" first {} (.stream ⟨#["(", "x", ")", "(", "x", ")"], 0⟩) #[]
    with ⟨hleaves, _⟩
  exact hleaves found hfound

end Grammar.Entry
end TokenGrammar
