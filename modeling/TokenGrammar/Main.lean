import TokenGrammar.Demonstration

/-!
This module contains the command line: the name of an example prints its demonstration.
-/

open TokenGrammar

/--
Print the demonstration of the calculator or of the reader of documents, of both without an argument.
-/
def main (args : List String) : IO UInt32 := do
  let lines := match args with
    | ["calculator"] => some Demonstration.calculatorLines
    | ["json"] => some Demonstration.documentLines
    | [] => some (Demonstration.calculatorLines ++ Demonstration.documentLines)
    | _ => none
  match lines with
  | some lines =>
    for line in lines do IO.println line
    return 0
  | none =>
    IO.eprintln "usage: demonstration [calculator | json]"
    return 2
