import TokenGrammar.Fault

/-!
This module contains the nodes that a match collects its items in, and the factories that make them.
-/

namespace TokenGrammar

/--
The kinds of nodes: a plain list, a node with a label, a list whose latest item comes first, and
anything else that takes items and can be gone through.
-/
inductive NodeShape where
  | list
  | labelled (kind : String)
  | front
  /-- Something of another type, with its own way to take an item or to refuse it. -/
  | other (typeName : String) (append : List Value → Value → Except Fault (List Value))

/--
A node with its items in the order in which going through it yields them.
-/
structure Node where
  shape : NodeShape
  items : List Value := []

namespace Node

/--
A plain list.
-/
def list (items : List Value) : Node := ⟨.list, items⟩

/--
The node with one more item, unless it refuses the item.
-/
def add (node : Node) (item : Value) : Except Fault Node :=
  match node.shape with
  | .list | .labelled _ => .ok { node with items := node.items ++ [item] }
  | .front => .ok { node with items := item :: node.items }
  | .other _ append => do return { node with items := ← append node.items item }

@[simp]
theorem add_list (items : List Value) (item : Value)
    : (list items).add item = .ok (list (items ++ [item])) := rfl

/--
The node with one more token, or as it is if there is none.
-/
def addToken (node : Node) : Option String → Except Fault Node
  | some token => node.add (.text token)
  | none => .ok node

/--
The node after an item was offered to it. One that refuses the item stays as it is.
-/
def append (node : Node) (item : Value) : Node :=
  (node.add item).toOption.getD node

/--
A labelled node under a new label; other nodes have none to change.
-/
def relabel (node : Node) (kind : String) : Node :=
  match node.shape with
  | .labelled _ => { node with shape := .labelled kind }
  | _ => node

/--
The item at a place.
-/
def item (node : Node) (place : Nat) : Except Fault Value :=
  match node.items[place]? with
  | some value => .ok value
  | none => .error .indexOutOfRange

/--
The node as a value. A node of another type is labelled with the name of its type.
-/
def toValue (node : Node) : Value :=
  match node.shape with
  | .list => .list node.items
  | .labelled kind => .node kind node.items
  | .front => .front node.items
  | .other typeName _ => .node typeName node.items

end Node

/--
What a node factory makes: a node, or something of a type that cannot serve as one.
-/
inductive Product where
  | node (node : Node)
  | unfit (typeName : String)

/--
A factory of nodes. What it makes, or fails with, may depend on how often it was asked before.
-/
structure NodeFactory where
  make : (before : Nat) → Except Fault Product

namespace NodeFactory

/--
The factory that makes the same product each time, or fails each time.
-/
def constant (product : Except Fault Product) : NodeFactory := ⟨fun _ => product⟩

/--
The factory of empty lists.
-/
def list : NodeFactory := .constant (.ok (.node (.list [])))

/--
The factory of nodes with a label and no items.
-/
def labelled (kind : String) : NodeFactory := .constant (.ok (.node ⟨.labelled kind, []⟩))

/--
A new node, provided that the product of the factory is one.
-/
def newNode (factory : NodeFactory) (before : Nat := 0) : Except Fault Node :=
  match factory.make before with
  | .ok (.node node) => .ok node
  | .ok (.unfit typeName) => .error (.badProduct typeName)
  | .error fault => .error fault

/--
The factory does the same each time that it is asked.
-/
def Uniform (factory : NodeFactory) : Prop :=
  ∀ before before', factory.make before = factory.make before'

theorem uniform_constant (product : Except Fault Product) : (constant product).Uniform :=
  fun _ _ => rfl

theorem Uniform.newNode_eq {factory : NodeFactory} (h : factory.Uniform) (before before' : Nat)
    : factory.newNode before = factory.newNode before' := by
  unfold newNode
  rw [h before before']

end NodeFactory
end TokenGrammar
