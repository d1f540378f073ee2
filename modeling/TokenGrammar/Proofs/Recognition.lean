import TokenGrammar.Matcher
import TokenGrammar.Proofs.Cursor

/-!
This module contains what the matcher recognises, apart from nodes, actions and the limit: a
relation between a piece of a rule, a stream and the outcome. Its rules say how the matcher keeps
its place: the cursor goes behind the token that was looked at, and behind a rule it goes by the
number of tokens that the rule reports. Where the cursor stood inside that rule is forgotten.
-/

namespace TokenGrammar
namespace Matcher

/--
What the matcher works through: an element, the elements of an option, or the options of a rule.
-/
inductive Form where
  | element (element : String)
  | sequence (elements : List String)
  | choice (options : List (List String))

/--
What comes of a form at the cursor of a stream: tokens with the stream behind them, or a failure.
Where an error is met nothing comes of the form.
-/
inductive Yields (rules : RuleSet)
    : Form → TokenStream → Option (List String × TokenStream) → Prop where
  | accepted {element terminal stream after token taken}
      (hpeek : stream.peek 0 = .ok token) (hread : Element.read element = .ok terminal)
      (haccepts : terminal.accepts token = true) (hnext : stream.next = .ok (taken, after))
      : Yields rules (.element element) stream (some (token.toList, after))
  | refused {element terminal stream token}
      (hpeek : stream.peek 0 = .ok token) (hread : Element.read element = .ok terminal)
      (hterminal : ∀ name, terminal ≠ .reference name) (haccepts : terminal.accepts token = false)
      : Yields rules (.element element) stream none
  | found {element name target stream there token tokens}
      (hpeek : stream.peek 0 = .ok token) (hread : Element.read element = .ok (.reference name))
      (hfind : rules.find? name = some target)
      (hbody : Yields rules (.choice target.options) stream (some (tokens, there)))
      : Yields rules (.element element) stream (some (tokens, stream.move (max tokens.length 1)))
  | missed {element name target stream token}
      (hpeek : stream.peek 0 = .ok token) (hread : Element.read element = .ok (.reference name))
      (hfind : rules.find? name = some target)
      (hbody : Yields rules (.choice target.options) stream none)
      : Yields rules (.element element) stream none
  | finished {stream} : Yields rules (.sequence []) stream (some ([], stream))
  | joined {element elements stream there after tokens more}
      (hfirst : Yields rules (.element element) stream (some (tokens, there)))
      (hrest : Yields rules (.sequence elements) there (some (more, after)))
      : Yields rules (.sequence (element :: elements)) stream (some (tokens ++ more, after))
  | broken {element elements stream there tokens}
      (hfirst : Yields rules (.element element) stream (some (tokens, there)))
      (hrest : Yields rules (.sequence elements) there none)
      : Yields rules (.sequence (element :: elements)) stream none
  | stopped {element elements stream}
      (hfirst : Yields rules (.element element) stream none)
      : Yields rules (.sequence (element :: elements)) stream none
  | exhausted {stream} : Yields rules (.choice []) stream none
  | chosen {option options stream there tokens}
      (hoption : Yields rules (.sequence option) stream (some (tokens, there)))
      : Yields rules (.choice (option :: options)) stream (some (tokens, there))
  | passed {option options stream out}
      (hoption : Yields rules (.sequence option) stream none)
      (hrest : Yields rules (.choice options) stream out)
      : Yields rules (.choice (option :: options)) stream out

theorem ne_reference_of_accepts {element : Element} {token : Option String}
    (h : element.accepts token = true) (name : String)
    : element ≠ .reference name := by
  intro hreference
  rw [hreference] at h
  cases h

namespace Yields

variable {rules : RuleSet} {stream there after : TokenStream} {tokens more : List String}

/--
Induction on how a form comes to tokens. What fails on the way is no part of it.
-/
theorem success_induct
    {motive : ∀ {form stream tokens after}, Yields rules form stream (some (tokens, after)) → Prop}
    (accepted : ∀ {element terminal} {stream after : TokenStream} {token taken}
      (hpeek : stream.peek 0 = .ok token) (hread : Element.read element = .ok terminal)
      (haccepts : terminal.accepts token = true) (hnext : stream.next = .ok (taken, after)),
      motive (.accepted hpeek hread haccepts hnext))
    (found : ∀ {element name target} {stream there : TokenStream} {token tokens}
      (hpeek : stream.peek 0 = .ok token) (hread : Element.read element = .ok (.reference name))
      (hfind : rules.find? name = some target)
      (hbody : Yields rules (.choice target.options) stream (some (tokens, there))),
      motive hbody → motive (.found hpeek hread hfind hbody))
    (finished : ∀ {stream : TokenStream}, motive (@finished rules stream))
    (joined : ∀ {element elements stream there after tokens more}
      (hfirst : Yields rules (.element element) stream (some (tokens, there)))
      (hrest : Yields rules (.sequence elements) there (some (more, after))),
      motive hfirst → motive hrest → motive (.joined hfirst hrest))
    (chosen : ∀ {option options stream there tokens}
      (hoption : Yields rules (.sequence option) stream (some (tokens, there))),
      motive hoption → motive (@chosen rules option options stream there tokens hoption))
    (passed : ∀ {option options stream after tokens}
      (hoption : Yields rules (.sequence option) stream none)
      (hrest : Yields rules (.choice options) stream (some (tokens, after))),
      motive hrest → motive (.passed hoption hrest))
    {form : Form} {stream : TokenStream} {tokens : List String} {after : TokenStream}
    (h : Yields rules form stream (some (tokens, after)))
    : motive h := by
  have hall {form : Form} {stream : TokenStream} {out : Option (List String × TokenStream)}
      (h : Yields rules form stream out)
      : ∀ tokens after (hout : out = some (tokens, after)), motive (hout ▸ h) := by
    induction h with
    | accepted hpeek hread haccepts hnext =>
      intro tokens after hout
      cases hout
      exact accepted hpeek hread haccepts hnext
    | found hpeek hread hfind hbody ih =>
      intro tokens after hout
      cases hout
      exact found hpeek hread hfind hbody (ih _ _ rfl)
    | finished =>
      intro tokens after hout
      cases hout
      exact finished
    | joined hfirst hrest ihfirst ihrest =>
      intro tokens after hout
      cases hout
      exact joined hfirst hrest (ihfirst _ _ rfl) (ihrest _ _ rfl)
    | chosen hoption ih =>
      intro tokens after hout
      cases hout
      exact chosen hoption (ih _ _ rfl)
    | passed hoption hrest ihoption ihrest =>
      intro tokens after hout
      subst hout
      exact passed hoption hrest (ihrest _ _ rfl)
    | _ =>
      intro tokens after hout
      cases hout
  exact hall h _ _ rfl

theorem snoc {before : List String} {element : String}
    (hbefore : Yields rules (.sequence before) stream (some (tokens, there)))
    (helement : Yields rules (.element element) there (some (more, after)))
    : Yields rules (.sequence (before ++ [element])) stream (some (tokens ++ more, after)) := by
  induction before generalizing stream tokens with
  | nil =>
    cases hbefore
    have := joined helement finished
    rw [List.append_nil] at this
    exact this
  | cons first before ih =>
    cases hbefore with
    | joined hfirst hrest =>
      rw [List.append_assoc]
      exact joined hfirst (ih hrest)

theorem advance {form : Form} (h : Yields rules form stream (some (tokens, after)))
    (hpos : 0 ≤ stream.position)
    : after.tokens = stream.tokens ∧ stream.position + tokens.length ≤ after.position := by
  induction h using success_induct with
  | @accepted _ _ _ _ token _ hpeek hread haccepts hnext =>
    rcases TokenStream.next_eq hpos with ⟨_, hnext', htokens, hposition, _⟩
    rw [hnext] at hnext'
    cases hnext'
    refine ⟨htokens, ?_⟩
    have hlength : token.toList.length ≤ 1 := by cases token <;> simp
    omega
  | found hpeek hread hfind hbody ih =>
    refine ⟨rfl, ?_⟩
    rw [TokenStream.move_position]
    omega
  | finished =>
    refine ⟨rfl, ?_⟩
    simp
  | joined hfirst hrest ihfirst ihrest =>
    rcases ihfirst hpos with ⟨htokens, hposition⟩
    rcases ihrest (by omega) with ⟨htokens', hposition'⟩
    refine ⟨htokens'.trans htokens, ?_⟩
    rw [List.length_append]
    omega
  | chosen hoption ih => exact ih hpos
  | passed hoption hrest ih => exact ih hpos

end Yields
end Matcher
end TokenGrammar
