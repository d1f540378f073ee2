import TokenGrammar.Pattern.Reading
import TokenGrammar.Pattern.CharSet

/-!
This module contains the flags that change the meaning of the parts of a pattern and the notation
that switches them on and off.
-/

namespace TokenGrammar
namespace Pattern

/--
The flags in force at a place of a pattern.
-/
structure Flags where
  ignoreCase : Bool := false
  multiLine : Bool := false
  dotAll : Bool := false
  verbose : Bool := false
  ascii : Bool := false
  deriving DecidableEq, Repr

/--
The flags that have a letter. The last one may only be set for a whole pattern; it makes the pattern a
template, which matches as any other pattern does.
-/
inductive Flag where
  | ignoreCase
  | multiLine
  | dotAll
  | verbose
  | ascii
  | unicode
  | template
  deriving DecidableEq, Repr

/--
The flag that a letter stands for.
-/
def Flag.ofChar? : Char → Option Flag
  | 'i' => some .ignoreCase
  | 'm' => some .multiLine
  | 's' => some .dotAll
  | 'x' => some .verbose
  | 'a' => some .ascii
  | 'u' => some .unicode
  | 't' => some .template
  | _ => none

/--
Whether a flag chooses the alphabet that named classes and case refer to. Such a flag replaces the
other one and cannot be switched off.
-/
def Flag.choosesAlphabet : Flag → Bool
  | .ascii | .unicode => true
  | _ => false

namespace Flags

/--
The flags with one of them set.
-/
def set (flags : Flags) (value : Bool) : Flag → Flags
  | .ignoreCase => { flags with ignoreCase := value }
  | .multiLine => { flags with multiLine := value }
  | .dotAll => { flags with dotAll := value }
  | .verbose => { flags with verbose := value }
  | .ascii => { flags with ascii := value }
  | .unicode => { flags with ascii := !value }
  | .template => flags

/--
The flags with some of them switched on and others switched off.
-/
def change (flags : Flags) (added removed : List Flag) : Flags :=
  removed.foldl (·.set false ·) (added.foldl (·.set true ·) flags)

/--
Which characters count as equal under the flags.
-/
def folding (flags : Flags) : Folding :=
  if !flags.ignoreCase then .exact else if flags.ascii then .asciiCase else .anyCase

end Flags

/--
What a list of flag letters does: set flags for the whole pattern, or change them for one group.
-/
inductive FlagEffect where
  | forWhole (added : List Flag)
  | forGroup (added removed : List Flag)
  deriving DecidableEq, Repr

namespace FlagEffect

/--
Read the flag letters that come next.
-/
def letters : Reading (List Flag) := do
  return (← Reading.many fun c => (Flag.ofChar? c).isSome).filterMap Flag.ofChar?

/--
Whether flags may be switched on together: at most one of them may choose the alphabet.
-/
def compatible (added : List Flag) : Bool :=
  !(added.contains .ascii && added.contains .unicode)

/--
Read the letters that change the flags, from the first one, which has been read already, to the
parenthesis or colon behind them.
-/
def read (first : Char) : Reading FlagEffect := do
  if first == '-' then minus []
  else
    let some flag := Flag.ofChar? first | .refuse
    let added := flag :: (← letters)
    if !compatible added then .refuse
    match ← Reading.expect with
    | .plain ')' => return .forWhole added
    | .plain ':' => group added []
    | .plain '-' => minus added
    | _ => .refuse
where
  minus (added : List Flag) : Reading FlagEffect := do
    let removed ← letters
    if removed.isEmpty || removed.any Flag.choosesAlphabet then .refuse
    if !(← Reading.accept ':') then .refuse
    group added removed
  group (added removed : List Flag) : Reading FlagEffect := do
    if added.contains .template || removed.contains .template then .refuse
    if added.any removed.contains then .refuse
    return .forGroup added removed

end FlagEffect

end Pattern
end TokenGrammar
