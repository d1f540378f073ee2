import TokenGrammar.Json.Reader
import TokenGrammar.Proofs.Dictionary

/-!
This module contains JSON documents as trees, with the tokens that write them and the values that they
have with a decoder of single tokens.
-/

namespace TokenGrammar
namespace Json

inductive ScalarKind where
  | string
  | number
  | constant

/--
The elements that the grammar writes for scalars of a kind. Strings and numbers have a pattern, constants
are literals.
-/
def ScalarKind.written : ScalarKind → List String
  | .string => ["/\x22(?:[^\x22\\\\]|\\\\.)*\x22/"]
  | .number => ["/-?(?:0|[1-9]\\d*)(?:\\.\\d+)?(?:[eE][+-]?\\d+)?/"]
  | .constant => ["\x22true", "\x22false", "\x22null"]

def ScalarKind.Accepts (kind : ScalarKind) (token : String) : Prop :=
  ∃ written ∈ kind.written, ∃ element, Element.read written = .ok element
    ∧ element.accepts (some token) = true

/--
A token that is accepted as a scalar and can be decoded.
-/
structure Scalar (decode : Decoder) (kind : ScalarKind) where
  token : String
  value : Value
  accepts : kind.Accepts token
  decodes : decode token = .ok value

/--
A string, whose value is the key of a member.
-/
structure Key (decode : Decoder) extends Scalar decode .string where
  name : String
  value_eq : value = .text name

inductive Document (decode : Decoder) where
  | scalar {kind : ScalarKind} (leaf : Scalar decode kind)
  | array (elements : List (Document decode))
  | object (members : List (Key decode × Document decode))

namespace Document

variable {decode : Decoder}

theorem sizeOf_member {member : Key decode × Document decode}
    {members : List (Key decode × Document decode)} (h : member ∈ members)
    : sizeOf member.2 < sizeOf (object members) := by
  have hmember := List.sizeOf_lt_of_mem h
  rcases member with ⟨key, document⟩
  simp only [Prod.mk.sizeOf_spec, object.sizeOf_spec] at *
  omega

/--
The tokens that write a document.
-/
def render : Document decode → List String
  | .scalar leaf => [leaf.token]
  | .array elements =>
    "[" :: ([","].intercalate (elements.map fun element => element.render) ++ ["]"])
  | .object members =>
    "\x7b" ::
      ([","].intercalate (members.map fun member => member.1.token :: ":" :: member.2.render)
        ++ ["\x7d"])
termination_by document => sizeOf document
decreasing_by
  . have := List.sizeOf_lt_of_mem ‹_›
    simp only [array.sizeOf_spec]
    omega
  . exact sizeOf_member ‹_›

/--
The value of a document. A key that is repeated in an object keeps its first place and its last value.
-/
def value : Document decode → Value
  | .scalar leaf => leaf.value
  | .array elements => .list (elements.map fun element => element.value)
  | .object members =>
    .dict (Value.entriesOf (members.map fun member => (member.1.name, member.2.value)))
termination_by document => sizeOf document
decreasing_by
  . have := List.sizeOf_lt_of_mem ‹_›
    simp only [array.sizeOf_spec]
    omega
  . exact sizeOf_member ‹_›

end Document
end Json
end TokenGrammar
