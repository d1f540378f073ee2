import TokenGrammar.Calculator
import TokenGrammar.Json.Token

/-!
This module contains ready-made splitters under names of their own, among them some that do not return
a list of texts.
-/

namespace TokenGrammar
namespace Splitter

/--
The pieces between the places where a character stands, empty ones included.
-/
def pieces (stop : Char) : List Char → List (List Char)
  | [] => [[]]
  | c :: rest =>
    if c == stop then [] :: pieces stop rest
    else match pieces stop rest with
      | piece :: others => (c :: piece) :: others
      | [] => [[c]]

/--
The splitter that cuts at every place where a character stands.
-/
def cuttingAt (stop : Char) : Splitter :=
  fun text => .ok (.texts ((pieces stop text.toList).map String.ofList))

/--
The ready-made splitter with the given name.
-/
def stock? : String → Option Splitter
  | "whitespace" => some words
  | "comma" => some (cuttingAt ',')
  | "lines" => some (cuttingAt '\n')
  | "chars" => some fun text => .ok (.texts (text.toList.map Char.toString))
  | "same" => some fun text => .ok (.text text)
  | "empty" => some fun _ => .ok (.list [])
  | "lengths" => some fun text => .ok (.list ((Text.words text).map fun word => .int word.length))
  | "tail_none" => some fun text => .ok (.list ((Text.words text).map .text ++ [.null]))
  | "number" => some fun _ => .ok (.int 42)
  | "none" => some fun _ => .ok .null
  | "raise" => some fun _ => .error (.raised .value "split failed")
  | "calc" => some fun text => .ok (.texts (Calculator.tokens text))
  | "json" => some fun text => .ok (.texts (Json.tokens text))
  | _ => none

end Splitter
end TokenGrammar
