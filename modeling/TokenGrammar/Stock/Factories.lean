import TokenGrammar.Node

/-!
This module contains ready-made node factories under names of their own, among them some whose products
cannot serve as nodes.
-/

namespace TokenGrammar
namespace NodeFactory

/--
The ready-made factory with the given name.
-/
def stock? : String → Option NodeFactory
  | "list" => some .list
  | "front" => some (.constant (.ok (.node ⟨.front, []⟩)))
  | "prefilled" => some (.constant (.ok (.node (.list [.text "^"]))))
  | "append_only" => some (.constant (.ok (.unfit "AppendOnly")))
  | "none" => some (.constant (.ok (.unfit "NoneType")))
  | "raise" => some (.constant (.error (.raised .value "factory failed")))
  | name =>
    if ["dict", "tuple", "str", "int", "set"].contains name then some (.constant (.ok (.unfit name)))
    else none

end NodeFactory
end TokenGrammar
