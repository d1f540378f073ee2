import TokenGrammar.Text.Blank
import TokenGrammar.Text.Case

/-!
This module contains the setting that switches the trace of runs on.
-/

namespace TokenGrammar
namespace Tracing

/--
The texts that switch the trace on.
-/
def affirmatives : List String := ["1", "true", "yes", "on"]

/--
Whether a setting switches the trace on. Blanks around it and its case do not count; without a setting
the trace is off.
-/
def isOn (setting : Option String) : Bool :=
  affirmatives.contains (Text.lowerCase (Text.trimBlanks (setting.getD "")))

end Tracing
end TokenGrammar
