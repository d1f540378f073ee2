import TokenGrammar.Proofs.Recognition

/-!
This module contains the meaning of rules as parsing expressions: a relation between a piece of a
rule, the list of the tokens that remain and the tokens that are consumed. It knows of no cursor.
Where no option is blank and no token is empty the matcher recognises exactly what this relation
derives.
-/

namespace TokenGrammar

/--
No option of any rule is blank.
-/
def RuleSet.BlankFree (rules : RuleSet) : Prop :=
  ∀ rule ∈ rules.toList, [] ∉ rule.options

/--
Where the form is a choice, none of its options is blank.
-/
def Matcher.Form.BlankFree : Matcher.Form → Prop
  | .choice options => [] ∉ options
  | _ => True

theorem Matcher.Form.BlankFree.tail {option : List String} {options : List (List String)}
    (h : (Form.choice (option :: options)).BlankFree)
    : (Form.choice options).BlankFree := by
  intro hmem
  exact h (List.mem_cons_of_mem _ hmem)

theorem RuleSet.BlankFree.options {rules : RuleSet} {name : String} {rule : Rule}
    (h : rules.BlankFree) (hfind : rules.find? name = some rule)
    : (Matcher.Form.choice rule.options).BlankFree :=
  h rule (mem_of_find? hfind)

namespace Peg

open Matcher (Form Yields)

/--
What a literal or a pattern takes off the remaining tokens. A pattern that matches the empty text is
content with nothing when no token remains.
-/
def take : Element → List String → Option (List String)
  | .literal text, token :: _ => if token = text then some [token] else none
  | .literal _, [] => none
  | .pattern regex, token :: _ => if regex.matchesWhole token then some [token] else none
  | .pattern regex, [] => if regex.matchesWhole "" then some [] else none
  | .reference _, _ => none

/--
A form consumes tokens off the front of the remaining ones, or it fails (`none`): a rule is the
ordered choice of its options, an option the sequence of its elements, a reference stands for its
rule.
-/
inductive Derives (rules : RuleSet) : Form → List String → Option (List String) → Prop where
  | terminal {element terminal input out} (hread : Element.read element = .ok terminal)
      (hterminal : ∀ name, terminal ≠ .reference name) (htake : take terminal input = out)
      : Derives rules (.element element) input out
  | reference {element name target input out}
      (hread : Element.read element = .ok (.reference name))
      (hfind : rules.find? name = some target)
      (hbody : Derives rules (.choice target.options) input out)
      : Derives rules (.element element) input out
  | finished {input} : Derives rules (.sequence []) input (some [])
  | joined {element elements input front rest more} (hsplit : input = front ++ rest)
      (hfirst : Derives rules (.element element) input (some front))
      (hrest : Derives rules (.sequence elements) rest (some more))
      : Derives rules (.sequence (element :: elements)) input (some (front ++ more))
  | broken {element elements input front rest} (hsplit : input = front ++ rest)
      (hfirst : Derives rules (.element element) input (some front))
      (hrest : Derives rules (.sequence elements) rest none)
      : Derives rules (.sequence (element :: elements)) input none
  | stopped {element elements input} (hfirst : Derives rules (.element element) input none)
      : Derives rules (.sequence (element :: elements)) input none
  | exhausted {input} : Derives rules (.choice []) input none
  | chosen {option options input front}
      (hoption : Derives rules (.sequence option) input (some front))
      : Derives rules (.choice (option :: options)) input (some front)
  | passed {option options input out} (hoption : Derives rules (.sequence option) input none)
      (hrest : Derives rules (.choice options) input out)
      : Derives rules (.choice (option :: options)) input out

theorem take_eq {terminal : Element} (h : ∀ name, terminal ≠ .reference name) (input : List String)
    : take terminal input
        =
      if terminal.accepts input.head? then some input.head?.toList else none := by
  cases terminal with
  | literal text =>
    cases input with
    | nil => rfl
    | cons token rest => simp [take, Element.accepts]
  | pattern regex =>
    cases input with
    | nil => rfl
    | cons token rest => rfl
  | reference name => exact (h name rfl).elim

variable {rules : RuleSet}

theorem Derives.isPrefix {form : Form} {input front : List String}
    (h : Derives rules form input (some front))
    : front <+: input := by
  generalize hout : some front = out at h
  induction h generalizing front with
  | @terminal _ _ input _ hread hterminal htake =>
    subst hout
    rw [take_eq hterminal] at htake
    split at htake
    . cases htake
      cases input with
      | nil => simp
      | cons token rest => simp
    . cases htake
  | reference hread hfind hbody ih => exact ih hout
  | finished =>
    cases hout
    simp
  | joined hsplit hfirst hrest ihfirst ihrest =>
    cases hout
    rw [hsplit, List.prefix_append_right_inj]
    exact ihrest rfl
  | chosen hoption ih => exact ih hout
  | passed hoption hrest ihoption ihrest => exact ihrest hout
  | broken => cases hout
  | stopped => cases hout
  | exhausted => cases hout

theorem Derives.functional {form : Form} {input : List String} {out out' : Option (List String)}
    (h : Derives rules form input out) (h' : Derives rules form input out')
    : out = out' := by
  induction h generalizing out' with
  | terminal hread hterminal htake =>
    cases h' with
    | terminal hread' hterminal' htake' =>
      rw [hread] at hread'
      cases hread'
      exact htake.symm.trans htake'
    | reference hread' =>
      rw [hread] at hread'
      cases hread'
      exact (hterminal _ rfl).elim
  | reference hread hfind hbody ih =>
    cases h' with
    | terminal hread' hterminal' =>
      rw [hread] at hread'
      cases hread'
      exact (hterminal' _ rfl).elim
    | reference hread' hfind' hbody' =>
      rw [hread] at hread'
      cases hread'
      rw [hfind] at hfind'
      cases hfind'
      exact ih hbody'
  | finished =>
    cases h'
    rfl
  | joined hsplit hfirst hrest ihfirst ihrest =>
    cases h' with
    | joined hsplit' hfirst' hrest' =>
      cases ihfirst hfirst'
      rw [hsplit, List.append_cancel_left_eq] at hsplit'
      subst hsplit'
      cases ihrest hrest'
      rfl
    | broken hsplit' hfirst' hrest' =>
      cases ihfirst hfirst'
      rw [hsplit, List.append_cancel_left_eq] at hsplit'
      subst hsplit'
      cases ihrest hrest'
    | stopped hfirst' => cases ihfirst hfirst'
  | broken hsplit hfirst hrest ihfirst ihrest =>
    cases h' with
    | joined hsplit' hfirst' hrest' =>
      cases ihfirst hfirst'
      rw [hsplit, List.append_cancel_left_eq] at hsplit'
      subst hsplit'
      cases ihrest hrest'
    | broken hsplit' hfirst' hrest' => rfl
    | stopped hfirst' => rfl
  | stopped hfirst ih =>
    cases h' with
    | joined hsplit' hfirst' hrest' => cases ih hfirst'
    | broken hsplit' hfirst' hrest' => rfl
    | stopped hfirst' => rfl
  | exhausted =>
    cases h'
    rfl
  | chosen hoption ih =>
    cases h' with
    | chosen hoption' => exact ih hoption'
    | passed hoption' hrest' => cases ih hoption'
  | passed hoption hrest ihoption ihrest =>
    cases h' with
    | chosen hoption' => cases ihoption hoption'
    | passed hoption' hrest' => exact ihrest hrest'

/--
What the matcher recognises at a stream is what is derived from the tokens that remain there.
Nothing is consumed only where nothing remains, so the cursor is where the number of tokens says.
-/
structure Agrees (rules : RuleSet) (form : Form) (stream : TokenStream)
    (out : Option (List String × TokenStream)) : Prop where
  derives : Derives rules form stream.rest (out.map Prod.fst)
  rest : ∀ {tokens after}, out = some (tokens, after) → after.rest = stream.rest.drop tokens.length
  progress : ∀ {after}, out = some ([], after) → form ≠ .sequence [] → stream.rest = []

theorem Agrees.of_derives {form : Form} {stream : TokenStream}
    (h : Derives rules form stream.rest none)
    : Agrees rules form stream none where
  derives := h
  rest := by
    intro tokens after h
    cases h
  progress := by
    intro after h
    cases h

theorem Agrees.split {form : Form} {stream there : TokenStream} {tokens : List String}
    (h : Agrees rules form stream (some (tokens, there)))
    : stream.rest = tokens ++ there.rest := by
  rcases h.derives.isPrefix with ⟨rest, hrest⟩
  rw [h.rest rfl, ← hrest]
  simp

-- a rule that consumes nothing moves the cursor nevertheless, but only where nothing remains
theorem Agrees.rest_move {form : Form} {stream there : TokenStream} {tokens : List String}
    (h : Agrees rules form stream (some (tokens, there))) (hform : form ≠ .sequence [])
    (hpos : 0 ≤ stream.position)
    : (stream.move (max tokens.length 1)).rest = stream.rest.drop tokens.length := by
  rw [TokenStream.rest_move_max hpos]
  cases tokens with
  | nil => rw [h.progress rfl hform, List.drop_nil, List.drop_nil]
  | cons token tokens =>
    rw [Nat.max_eq_left]
    simp

theorem behind {form : Form} {stream there : TokenStream} {tokens : List String}
    (h : Yields rules form stream (some (tokens, there))) (hpos : 0 ≤ stream.position)
    (hempty : "" ∉ stream.tokens)
    : 0 ≤ there.position ∧ "" ∉ there.tokens := by
  rcases h.advance hpos with ⟨htokens, hposition⟩
  rw [htokens]
  refine ⟨?_, hempty⟩
  omega

theorem agrees_of_yields {form : Form} {stream : TokenStream}
    {out : Option (List String × TokenStream)} (hblank : rules.BlankFree)
    (h : Yields rules form stream out) (hform : form.BlankFree)
    (hpos : 0 ≤ stream.position) (hempty : "" ∉ stream.tokens)
    : Agrees rules form stream out := by
  induction h with
  | @accepted _ terminal stream after token taken hpeek hread haccepts hnext =>
    rw [TokenStream.peek_zero_of_not_mem hpos hempty] at hpeek
    cases hpeek
    rcases TokenStream.next_of_not_mem hpos hempty with ⟨_, hnext', hafter⟩
    rw [hnext] at hnext'
    cases hnext'
    have hterminal := Matcher.ne_reference_of_accepts haccepts
    constructor
    . apply Derives.terminal hread hterminal
      rw [take_eq hterminal, if_pos haccepts]
      rfl
    . intro tokens after h
      cases h
      rw [hafter]
      cases stream.rest with
      | nil => rfl
      | cons token rest => rfl
    . intro after h _
      cases hrest : stream.rest with
      | nil => rfl
      | cons token rest =>
        rw [hrest] at h
        cases h
  | refused hpeek hread hterminal haccepts =>
    rw [TokenStream.peek_zero_of_not_mem hpos hempty] at hpeek
    cases hpeek
    apply Agrees.of_derives
    apply Derives.terminal hread hterminal
    rw [take_eq hterminal, if_neg (by simp [haccepts])]
  | found hpeek hread hfind hbody ih =>
    have hagrees := ih (hblank.options hfind) hpos hempty
    constructor
    . exact .reference hread hfind hagrees.derives
    . intro tokens after h
      cases h
      exact hagrees.rest_move (by simp) hpos
    . intro after h _
      cases h
      exact hagrees.progress rfl (by simp)
  | missed hpeek hread hfind hbody ih =>
    have hagrees := ih (hblank.options hfind) hpos hempty
    apply Agrees.of_derives
    exact .reference hread hfind hagrees.derives
  | finished =>
    constructor
    . exact .finished
    . intro tokens after h
      cases h
      rfl
    . intro after h hne
      exact (hne rfl).elim
  | joined hfirst hrest ihfirst ihrest =>
    rcases behind hfirst hpos hempty with ⟨hpos', hempty'⟩
    have hagrees := ihfirst trivial hpos hempty
    have hagrees' := ihrest trivial hpos' hempty'
    constructor
    . exact .joined hagrees.split hagrees.derives hagrees'.derives
    . intro tokens after h
      cases h
      rw [hagrees'.rest rfl, hagrees.rest rfl, List.drop_drop, List.length_append]
    . intro after h _
      injection h with h
      rw [Prod.mk.injEq, List.append_eq_nil_iff] at h
      rcases h with ⟨⟨hnil, _⟩, _⟩
      subst hnil
      exact hagrees.progress rfl (by simp)
  | broken hfirst hrest ihfirst ihrest =>
    rcases behind hfirst hpos hempty with ⟨hpos', hempty'⟩
    have hagrees := ihfirst trivial hpos hempty
    have hagrees' := ihrest trivial hpos' hempty'
    apply Agrees.of_derives
    exact .broken hagrees.split hagrees.derives hagrees'.derives
  | stopped hfirst ih =>
    apply Agrees.of_derives
    exact .stopped (ih trivial hpos hempty).derives
  | exhausted =>
    apply Agrees.of_derives
    exact .exhausted
  | @chosen option options stream there tokens hoption ih =>
    have hne : option ≠ [] := by
      intro h
      apply hform
      simp [h]
    have hagrees := ih trivial hpos hempty
    constructor
    . exact .chosen hagrees.derives
    . exact hagrees.rest
    . intro after h _
      exact hagrees.progress h (by simpa using hne)
  | passed hoption hrest ihoption ihrest =>
    have hagrees := ihoption trivial hpos hempty
    have hagrees' := ihrest hform.tail hpos hempty
    constructor
    . exact .passed hagrees.derives hagrees'.derives
    . exact hagrees'.rest
    . intro after h _
      exact hagrees'.progress h (by simp)

theorem yields_first {element : String} {stream : TokenStream} {front rest : List String}
    (hblank : rules.BlankFree) (hpos : 0 ≤ stream.position) (hempty : "" ∉ stream.tokens)
    (hsplit : stream.rest = front ++ rest)
    (h : ∃ out, Yields rules (.element element) stream out ∧ out.map Prod.fst = some front)
    : ∃ there, Yields rules (.element element) stream (some (front, there)) ∧ there.rest = rest
        ∧ 0 ≤ there.position ∧ "" ∉ there.tokens := by
  rcases h with ⟨out, hyields, hout⟩
  rcases Option.map_eq_some_iff.mp hout with ⟨⟨tokens, there⟩, rfl, rfl⟩
  have hagrees := agrees_of_yields hblank hyields trivial hpos hempty
  refine ⟨there, hyields, ?_, behind hyields hpos hempty⟩
  have hthere := hagrees.split
  rw [hsplit, List.append_cancel_left_eq] at hthere
  exact hthere.symm

theorem yields_of_derives {form : Form} {stream : TokenStream} {out : Option (List String)}
    (hblank : rules.BlankFree) (h : Derives rules form stream.rest out)
    (hform : form.BlankFree)
    (hpos : 0 ≤ stream.position) (hempty : "" ∉ stream.tokens)
    : ∃ out', Yields rules form stream out' ∧ out'.map Prod.fst = out := by
  generalize hinput : stream.rest = input at h
  induction h generalizing stream with
  | terminal hread hterminal htake =>
    subst hinput
    have hpeek := TokenStream.peek_zero_of_not_mem hpos hempty
    rw [take_eq hterminal] at htake
    split at htake
    . next haccepts =>
      rcases TokenStream.next_of_not_mem hpos hempty with ⟨after, hnext, _⟩
      exact ⟨_, .accepted hpeek hread haccepts hnext, htake⟩
    . next haccepts =>
      exact ⟨none, .refused hpeek hread hterminal (by simpa using haccepts), htake⟩
  | reference hread hfind hbody ih =>
    have hpeek := TokenStream.peek_zero_of_not_mem hpos hempty
    rcases ih (hblank.options hfind) hpos hempty hinput with ⟨out', hyields, hout⟩
    cases out' with
    | none => exact ⟨none, .missed hpeek hread hfind hyields, hout⟩
    | some result => exact ⟨_, .found hpeek hread hfind hyields, hout⟩
  | finished => exact ⟨_, .finished, rfl⟩
  | @joined _ _ _ _ rest _ hsplit hfirst hrest ihfirst ihrest =>
    rcases yields_first hblank hpos hempty (hinput.trans hsplit)
      (ihfirst trivial hpos hempty hinput) with ⟨there, hyields, hthere, hpos', hempty'⟩
    rcases ihrest trivial hpos' hempty' hthere with ⟨out', hyields', hout⟩
    rcases Option.map_eq_some_iff.mp hout with ⟨⟨more, after⟩, rfl, rfl⟩
    exact ⟨_, .joined hyields hyields', rfl⟩
  | broken hsplit hfirst hrest ihfirst ihrest =>
    rcases yields_first hblank hpos hempty (hinput.trans hsplit)
      (ihfirst trivial hpos hempty hinput) with ⟨there, hyields, hthere, hpos', hempty'⟩
    rcases ihrest trivial hpos' hempty' hthere with ⟨out', hyields', hout⟩
    rw [Option.map_eq_none_iff] at hout
    subst hout
    exact ⟨none, .broken hyields hyields', rfl⟩
  | stopped hfirst ih =>
    rcases ih trivial hpos hempty hinput with ⟨out', hyields, hout⟩
    rw [Option.map_eq_none_iff] at hout
    subst hout
    exact ⟨none, .stopped hyields, rfl⟩
  | exhausted => exact ⟨none, .exhausted, rfl⟩
  | chosen hoption ih =>
    rcases ih trivial hpos hempty hinput with ⟨out', hyields, hout⟩
    rcases Option.map_eq_some_iff.mp hout with ⟨⟨tokens, there⟩, rfl, rfl⟩
    exact ⟨_, .chosen hyields, rfl⟩
  | passed hoption hrest ihoption ihrest =>
    rcases ihoption trivial hpos hempty hinput with ⟨out', hyields, hout⟩
    rw [Option.map_eq_none_iff] at hout
    subst hout
    rcases ihrest hform.tail hpos hempty hinput with ⟨out'', hyields', hout'⟩
    exact ⟨out'', .passed hyields hyields', hout'⟩

end Peg
end TokenGrammar
