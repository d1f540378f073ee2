import TokenGrammar.Proofs.Account

/-!
This module contains the converse of the account: what a rule yields is what the matcher answers, as
soon as the limit is large enough, unless the node factory, a node or an action raises an error.
-/

namespace TokenGrammar
namespace Matcher

/--
From the attempt the matcher goes on to the next one, as the outcome says, with a node that comes from
the factory.
-/
def Attempt.Follows (g : Grammar) (attempt : Attempt) (next : Option Attempt)
    : Option (List String × TokenStream) → Prop
  | none => next = none
  | some (tokens, after) =>
    ∃ last, next = some last ∧ g.factory.Makes last.node ∧ last.tokens = attempt.tokens ++ tokens
      ∧ last.stream = after

end Matcher

namespace Course

open Matcher (Attempt Form Yields)

/--
The attempt can go on from the stream.
-/
def StandsAt (g : Grammar) (attempt : Attempt) (stream : TokenStream) : Prop :=
  attempt.stream = stream ∧ g.factory.Makes attempt.node

/--
With this depth the matcher works through the form to the given outcome. Nothing but what is raised by
the node factory, by a node or by an action with `room` levels left can keep it from that.
-/
def Performs (g : Grammar) (room depth : Nat)
    : Form → TokenStream → Option (List String × TokenStream) → Prop
  | .element element, stream, out => ∀ rule attempt, StandsAt g attempt stream →
    Ensures g room (matchElement g (ofDepth g depth) rule attempt element)
      (fun next => attempt.Follows g next out) (fun _ => False)
  | .sequence elements, stream, out => ∀ rule attempt, StandsAt g attempt stream →
    Ensures g room (matchElements g (ofDepth g depth) rule attempt elements)
      (fun next => attempt.Follows g next out) (fun _ => False)
  | .choice options, stream, out => ∀ rule ∈ g.rules.toList,
    Ensures g room (matchOptions g depth (ofDepth g depth) rule stream options)
      (fun found => found.map Match.tokens = out.map Prod.fst) (fun _ => False)

variable {g : Grammar} {room depth : Nat}

theorem performs_terminal {element : String} {terminal : Element} {stream : TokenStream}
    {token : Option String} {out : Option (List String × TokenStream)}
    (hpeek : stream.peek 0 = .ok token) (hread : Element.read element = .ok terminal)
    (hterminal : ∀ name, terminal ≠ .reference name)
    (haccepts : terminal.accepts token = true →
      ∃ taken after, stream.next = .ok (taken, after) ∧ out = some (token.toList, after))
    (hrefuses : terminal.accepts token = false → out = none)
    : Performs g room depth (.element element) stream out := by
  rintro rule attempt ⟨rfl, hnode⟩
  rw [matchElement_terminal hpeek hread hterminal]
  apply Ensures.due_bind
  split
  . next h =>
    rcases haccepts h with ⟨taken, after, hnext, rfl⟩
    have hnever (fault : Fault) (hfault : attempt.stream.next = .error fault) : False := by
      rw [hnext] at hfault
      cases hfault
    apply ((ensures_consume hnode token).mono_failing hnever).bind
    rintro next ⟨hmakes, htokens, taken', hnext'⟩
    rw [hnext] at hnext'
    cases hnext'
    exact Ensures.pure ⟨next, rfl, hmakes, htokens, rfl⟩
  . next h =>
    rw [hrefuses (by simpa using h)]
    exact Ensures.pure rfl

-- the call of the rule takes one level of the depth
theorem performs_reference {element name : String} {target : Rule} {stream : TokenStream}
    {token : Option String} {out : Option (List String × TokenStream)}
    (hpeek : stream.peek 0 = .ok token) (hread : Element.read element = .ok (.reference name))
    (hfind : g.rules.find? name = some target)
    (hbody : Performs g room depth (.choice target.options) stream out)
    : Performs g room (depth + 1) (.element element) stream
        (out.map fun (tokens, _) => (tokens, stream.move (max tokens.length 1))) := by
  rintro rule attempt ⟨rfl, hnode⟩
  rw [matchElement_reference hpeek hread]
  apply Ensures.due_bind
  rw [RuleSet.lookup_text, hfind]
  apply Ensures.bind (Ensures.call (hbody target (RuleSet.mem_of_find? hfind)))
  intro answer hanswer
  cases out with
  | none =>
    rw [Option.map_none, Option.map_eq_none_iff] at hanswer
    rw [hanswer]
    exact Ensures.pure rfl
  | some result =>
    rcases Option.map_eq_some_iff.mp hanswer with ⟨found, hfound, htokens⟩
    rw [hfound]
    apply (ensures_embed hnode found).bind
    rintro next ⟨hmakes, hmatched, hstream⟩
    rw [htokens] at hmatched hstream
    exact Ensures.pure ⟨next, rfl, hmakes, hmatched, hstream⟩

theorem performs_cons {element : String} {elements : List String} {stream there : TokenStream}
    {tokens : List String} {out : Option (List String × TokenStream)}
    (hfirst : Performs g room depth (.element element) stream (some (tokens, there)))
    (hrest : Performs g room depth (.sequence elements) there out)
    : Performs g room depth (.sequence (element :: elements)) stream
        (out.map fun (more, after) => (tokens ++ more, after)) := by
  intro rule attempt hattempt
  unfold matchElements
  apply (hfirst rule attempt hattempt).bind
  rintro answer ⟨next, rfl, hmakes, htokens, hthere⟩
  apply (hrest rule next ⟨hthere, hmakes⟩).mono_holds
  intro answer hanswer
  cases out with
  | none => exact hanswer
  | some result =>
    rcases hanswer with ⟨last, hlast, hnode, hmore, hafter⟩
    refine ⟨last, hlast, hnode, ?_, hafter⟩
    rw [hmore, htokens, List.append_assoc]

theorem performs_chosen {option : List String} {options : List (List String)}
    {stream there : TokenStream} {tokens : List String} (hroom : room ≤ depth)
    (hyields : Yields g.rules (.sequence option) stream (some (tokens, there)))
    (hoption : Performs g room depth (.sequence option) stream (some (tokens, there)))
    : Performs g room depth (.choice (option :: options)) stream (some (tokens, there)) := by
  intro rule hrule
  cases option with
  | nil =>
    cases hyields
    unfold matchOptions
    apply Ensures.due_bind
    apply Ensures.newNode.bind
    intro node hnode
    apply (Ensures.act hrule hnode hroom).bind
    intro result _
    exact Ensures.pure rfl
  | cons element elements =>
    unfold matchOptions
    apply Ensures.newNode.bind
    intro node hnode
    apply (hoption rule ⟨stream, [], node⟩ ⟨rfl, hnode⟩).bind
    rintro answer ⟨last, rfl, hmakes, htokens, _⟩
    apply Ensures.due_bind
    apply (Ensures.act hrule hmakes hroom).bind
    intro result _
    apply Ensures.pure
    rw [Option.map_some, Option.map_some, htokens]
    rfl

theorem performs_passed {option : List String} {options : List (List String)}
    {stream : TokenStream} {out : Option (List String × TokenStream)}
    (hyields : Yields g.rules (.sequence option) stream none)
    (hoption : Performs g room depth (.sequence option) stream none)
    (hrest : Performs g room depth (.choice options) stream out)
    : Performs g room depth (.choice (option :: options)) stream out := by
  intro rule hrule
  cases option with
  | nil => cases hyields
  | cons element elements =>
    unfold matchOptions
    apply Ensures.newNode.bind
    intro node hnode
    apply (hoption rule ⟨stream, [], node⟩ ⟨rfl, hnode⟩).bind
    intro answer hanswer
    rw [hanswer]
    exact hrest rule hrule

theorem performs_of_yields {form : Form} {stream : TokenStream}
    {out : Option (List String × TokenStream)} (h : Yields g.rules form stream out)
    : ∃ levels, ∀ room depth, levels + room ≤ depth → Performs g room depth form stream out := by
  induction h with
  | accepted hpeek hread haccepts hnext =>
    refine ⟨0, ?_⟩
    intro room depth _
    apply performs_terminal hpeek hread (Matcher.ne_reference_of_accepts haccepts)
    . intro _
      exact ⟨_, _, hnext, rfl⟩
    . simp [haccepts]
  | refused hpeek hread hterminal haccepts =>
    refine ⟨0, ?_⟩
    intro room depth _
    apply performs_terminal hpeek hread hterminal
    . simp [haccepts]
    . simp
  | found hpeek hread hfind hbody ih =>
    rcases ih with ⟨levels, hlevels⟩
    refine ⟨levels + 1, ?_⟩
    intro room depth hdepth
    rcases Nat.exists_eq_add_of_le' (show 1 ≤ depth by omega) with ⟨depth, rfl⟩
    exact performs_reference hpeek hread hfind (hlevels room depth (by omega))
  | missed hpeek hread hfind hbody ih =>
    rcases ih with ⟨levels, hlevels⟩
    refine ⟨levels + 1, ?_⟩
    intro room depth hdepth
    rcases Nat.exists_eq_add_of_le' (show 1 ≤ depth by omega) with ⟨depth, rfl⟩
    exact performs_reference hpeek hread hfind (hlevels room depth (by omega))
  | finished =>
    refine ⟨0, ?_⟩
    rintro room depth _ rule attempt ⟨hstream, hnode⟩
    exact Ensures.pure ⟨attempt, rfl, hnode, by simp, hstream⟩
  | joined hfirst hrest ihfirst ihrest =>
    rcases ihfirst with ⟨levels, hlevels⟩
    rcases ihrest with ⟨levels', hlevels'⟩
    refine ⟨max levels levels', ?_⟩
    intro room depth hdepth
    exact performs_cons (hlevels room depth (by omega))
      (hlevels' room depth (by omega))
  | broken hfirst hrest ihfirst ihrest =>
    rcases ihfirst with ⟨levels, hlevels⟩
    rcases ihrest with ⟨levels', hlevels'⟩
    refine ⟨max levels levels', ?_⟩
    intro room depth hdepth
    exact performs_cons (hlevels room depth (by omega))
      (hlevels' room depth (by omega))
  | stopped hfirst ih =>
    rcases ih with ⟨levels, hlevels⟩
    refine ⟨levels, ?_⟩
    intro room depth hdepth rule attempt hattempt
    unfold matchElements
    apply (hlevels room depth hdepth rule attempt hattempt).bind
    intro answer hanswer
    rw [hanswer]
    exact Ensures.pure rfl
  | exhausted =>
    refine ⟨0, ?_⟩
    intro room depth _ rule _
    unfold matchOptions
    apply Ensures.due_bind
    exact Ensures.pure rfl
  | chosen hoption ih =>
    rcases ih with ⟨levels, hlevels⟩
    refine ⟨levels, ?_⟩
    intro room depth hdepth
    exact performs_chosen (by omega) hoption (hlevels room depth hdepth)
  | passed hoption hrest ihoption ihrest =>
    rcases ihoption with ⟨levels, hlevels⟩
    rcases ihrest with ⟨levels', hlevels'⟩
    refine ⟨max levels levels', ?_⟩
    intro room depth hdepth
    exact performs_passed hoption (hlevels room depth (by omega))
      (hlevels' room depth (by omega))

end Course
end TokenGrammar
