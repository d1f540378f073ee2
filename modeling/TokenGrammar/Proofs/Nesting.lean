import TokenGrammar.Proofs.Account
import TokenGrammar.Proofs.LeftCall
import TokenGrammar.Proofs.Pattern.Depth

/-!
This module contains the bound on how deep rules nest. A call either finds fewer tokens left than
the call before, or it is a left call. Where left calls lead into no circle, the number of tokens
that are left and the rank of the rule bound the calls that are under way at once, so a limit of
that many is never used up.
-/

namespace TokenGrammar

/--
The number of tokens from the cursor on.
-/
def TokenStream.left (stream : TokenStream) : Nat := (stream.size - stream.position).toNat

theorem TokenStream.rest_of_left {stream : TokenStream} (hpos : 0 ≤ stream.position)
    (h : stream.left = 0)
    : stream.rest = [] := by
  rw [rest_of_nonneg hpos, List.drop_eq_nil_iff, Array.length_toList]
  unfold left size at h
  omega

/--
The error says that a limit was used up: as the matcher meets it, or as a run reports it.
-/
def Fault.IsNesting (fault : Fault) : Prop :=
  fault.kind = .recursion ∨ fault.kind = .grammar .nestingDepth

-- a pattern that is refused for another reason is reported under a kind of its own
theorem Element.eq_exhausted_of_read {element : String} {fault : Fault}
    (h : read element = .error fault) (hfault : fault.IsNesting)
    : fault = .exhausted := by
  unfold read at h
  split at h
  . cases h
    rfl
  . unfold ofText at h
    split at h
    . cases h
    . split at h
      . unfold readPattern at h
        split at h
        . cases h
          simp [Fault.IsNesting, Fault.kind] at hfault
        . split at h
          . cases h
          . next problem _ =>
            cases h
            cases problem with
            | _ => simp [Fault.IsNesting, Fault.kind] at hfault
      . cases h

namespace Matcher

/--
In the course of the call, or of one that it leads to, the matcher comes to the element.
-/
def Meets (rules : RuleSet) (call : Rule × TokenStream) (element : String) : Prop :=
  ∃ target there place, Relation.ReflTransGen (Calls rules) call (target, there)
    ∧ Reaches rules target there element place

theorem Meets.mem {rules : RuleSet} {rule : Rule} {stream : TokenStream} {element : String}
    (h : Meets rules (rule, stream) element) (hrule : rule ∈ rules.toList)
    : ∃ target ∈ rules.toList, ∃ option ∈ target.options, element ∈ option := by
  rcases h with ⟨target, there, _, hcalls, hreach⟩
  refine ⟨target, ?_, hreach.mem⟩
  rcases Relation.ReflTransGen.cases_tail hcalls with heq | ⟨_, _, hcall⟩
  . cases heq
    exact hrule
  . exact hcall.mem

/--
A measure of a call that falls with every call that it makes: first the tokens that are left, then
the rank of the rule.
-/
noncomputable def weight (rules : RuleSet) (rule : Rule) (stream : TokenStream) : Nat :=
  rules.size * stream.left + rules.rank rule

variable {rules : RuleSet} {rule target : Rule} {stream there after : TokenStream}
  {tokens : List String}

namespace Yields

theorem position_lt {element : String}
    (h : Yields rules (.element element) stream (some (tokens, after))) (hpos : 0 ≤ stream.position)
    : stream.position < after.position := by
  cases h with
  | accepted hpeek hread haccepts hnext =>
    rcases TokenStream.next_eq hpos with ⟨_, hnext', _, hposition, _⟩
    rw [hnext] at hnext'
    cases hnext'
    exact hposition
  | found hpeek hread hfind hbody =>
    rw [TokenStream.move_position]
    omega

theorem left_le {form : Form} (h : Yields rules form stream (some (tokens, after)))
    (hpos : 0 ≤ stream.position)
    : after.left ≤ stream.left := by
  rcases h.advance hpos with ⟨htokens, hposition⟩
  unfold TokenStream.left TokenStream.size
  rw [htokens]
  omega

theorem left_lt {element : String} {elements : List String}
    (h : Yields rules (.sequence (element :: elements)) stream (some (tokens, after)))
    (hpos : 0 ≤ stream.position) (hleft : stream.left ≠ 0)
    : after.left < stream.left := by
  cases h with
  | joined hfirst hrest =>
    have hthere := hfirst.position_lt hpos
    rcases hfirst.advance hpos with ⟨htokens, _⟩
    have hafter := hrest.left_le (by omega)
    unfold TokenStream.left TokenStream.size at *
    rw [htokens] at hafter
    omega

-- where no token is left nothing but references and patterns that match the empty text succeed
theorem not_guards {elements : List String}
    (h : Yields rules (.sequence elements) stream (some (tokens, after)))
    (hpos : 0 ≤ stream.position) (hleft : stream.left = 0)
    : ∀ element ∈ elements, ¬ Element.Guards element := by
  induction elements generalizing stream tokens with
  | nil => simp
  | cons first elements ih =>
    cases h with
    | joined hfirst hrest =>
      rcases hfirst.advance hpos with ⟨_, hposition⟩
      have hthere := hfirst.left_le hpos
      intro element helement
      cases List.mem_cons.mp helement with
      | inr hmem => exact ih hrest (by omega) (by omega) element hmem
      | inl heq =>
        subst heq
        cases hfirst with
        | found hpeek hread hfind hbody => exact Element.not_guards_of_reference hread
        | accepted hpeek hread haccepts hnext =>
          rw [TokenStream.peek_zero hpos, TokenStream.rest_of_left hpos hleft] at hpeek
          cases hpeek
          exact Element.not_guards_of_accepts hread haccepts

end Yields

theorem Calls.left_lt_or {call next : Rule × TokenStream} (h : Calls rules call next)
    (hpos : 0 ≤ call.2.position)
    : next.2.left < call.2.left ∨ next.2.left ≤ call.2.left ∧ rules.LeftCalls call.1 next.1 := by
  rcases h with ⟨element, name, ⟨before, after, tokens, hoption, hbefore⟩, hread, hfind⟩
  by_cases hleft : call.2.left = 0
  . right
    refine ⟨hbefore.left_le hpos, before, element, after, name, hoption, ?_, hread, hfind⟩
    exact hbefore.not_guards hpos hleft
  . cases before with
    | nil =>
      right
      exact ⟨hbefore.left_le hpos, [], element, after, name, hoption, by simp, hread, hfind⟩
    | cons first before =>
      left
      exact hbefore.left_lt hpos hleft

theorem weight_lt_of_calls (hacyclic : rules.Acyclic) (hpos : 0 ≤ stream.position)
    (h : Calls rules (rule, stream) (target, there))
    : weight rules target there < weight rules rule stream := by
  have htarget : rules.find? target.name = some target := by
    rcases h with ⟨_, _, _, _, hfind⟩
    rw [RuleSet.name_of_find? hfind]
    exact hfind
  unfold weight
  cases h.left_lt_or hpos with
  | inl hleft =>
    have hrank := RuleSet.rank_lt_size hacyclic htarget
    calc rules.size * there.left + rules.rank target
      _ < rules.size * (there.left + 1) := by
        rw [Nat.mul_succ]
        omega
      _ ≤ rules.size * stream.left := Nat.mul_le_mul_left _ hleft
      _ ≤ rules.size * stream.left + rules.rank rule := Nat.le_add_right _ _
  | inr hcalls =>
    have hrank := RuleSet.rank_lt_of_leftCalls hacyclic hcalls.2
    have hleft := Nat.mul_le_mul_left rules.size hcalls.1
    dsimp only at hrank hleft
    omega

theorem weight_lt (hacyclic : rules.Acyclic) (hfind : rules.find? rule.name = some rule)
    : weight rules rule stream < rules.size * (stream.left + 1) := by
  have hrank := RuleSet.rank_lt_size hacyclic hfind
  unfold weight
  rw [Nat.mul_succ]
  omega

theorem length_le_weight {calls : List (Rule × TokenStream)} (hacyclic : rules.Acyclic)
    (hpos : 0 ≤ stream.position) (h : List.IsChain (Calls rules) ((rule, stream) :: calls))
    : calls.length ≤ weight rules rule stream := by
  induction calls generalizing rule stream with
  | nil => simp
  | cons next calls ih =>
    rcases next with ⟨target, there⟩
    rw [List.isChain_cons_cons] at h
    rcases h with ⟨hcall, hcalls⟩
    have hweight := weight_lt_of_calls hacyclic hpos hcall
    rcases hcall with ⟨_, _, hreach, _⟩
    rcases hreach.advance hpos with ⟨_, hposition⟩
    have hlength := ih (by dsimp only at hposition; omega) hcalls
    rw [List.length_cons]
    omega

/--
If the error says that the limit was used up, then an element that the matcher comes to is a pattern
whose groups nest too deeply.
-/
def Overtaxed (rules : RuleSet) (rule : Rule) (stream : TokenStream) (fault : Fault) : Prop :=
  fault.IsNesting → fault = .exhausted
    ∧ ∃ element, Meets rules (rule, stream) element ∧ Element.read element = .error .exhausted

theorem overtaxed_of_causes {fault : Fault} (hpos : 0 ≤ stream.position)
    (h : Causes rules (Overtaxed rules) rule stream fault)
    : Overtaxed rules rule stream fault := by
  intro hfault
  cases h with
  | looking hreach h =>
    rcases hreach.advance hpos with ⟨_, hposition⟩
    rw [TokenStream.peek_zero (by omega)] at h
    cases h
  | reading hreach h =>
    cases Element.eq_exhausted_of_read h hfault
    exact ⟨rfl, _, ⟨rule, stream, _, .refl, hreach⟩, h⟩
  | stepping hreach h =>
    rcases hreach.advance hpos with ⟨_, hposition⟩
    rcases TokenStream.next_eq (hpos.trans hposition) with ⟨_, hnext, _⟩
    rw [h] at hnext
    cases hnext
  | unknown => simp [Fault.IsNesting, Fault.kind] at hfault
  | calling hcall h =>
    rcases h hfault with ⟨hexhausted, element, ⟨target, there, place, hcalls, hreach⟩, hread⟩
    exact ⟨hexhausted, element, ⟨target, there, place, .head hcall hcalls, hreach⟩, hread⟩

-- by induction on the depth, of which a call leaves as much as its weight falls
theorem overtaxed_ofDepth {g : Grammar} {room depth : Nat} (hacyclic : g.rules.Acyclic)
    (hrule : rule ∈ g.rules.toList) (hpos : 0 ≤ stream.position)
    (hdepth : weight g.rules rule stream + room < depth)
    : Course.Ensures g room (Course.ofDepth g depth rule stream)
        (Recognised g.rules rule.options stream) (Overtaxed g.rules rule stream) := by
  induction depth generalizing rule stream with
  | zero => omega
  | succ depth ih =>
    have hcalls (target : Rule) (there : TokenStream) (hcall : Calls g.rules (rule, stream) (target, there))
        : Course.Ensures g room (Course.ofDepth g depth target there)
            (Recognised g.rules target.options there) (Overtaxed g.rules target there) := by
      have hweight := weight_lt_of_calls hacyclic hpos hcall
      rcases hcall.advance hpos with ⟨_, hposition⟩
      exact ih hcall.mem (hpos.trans hposition) (by omega)
    apply (Course.ensures_ofDepth_succ hrule (by omega) hcalls).mono_failing
    intro fault hcauses
    exact overtaxed_of_causes hpos hcauses

end Matcher

namespace Grammar.Entry

/--
Two rules that refer to each other. One of the references is guarded.
-/
def alternating : Grammar where
  rules := ⟨[{ name := "s", options := [["t"]] },
    { name := "t", options := [["\"x", "s"], ["\"x"]] }]⟩

theorem alternating_acyclic : alternating.rules.Acyclic := by
  have hliteral : Element.read "\"x" = .ok (.literal "x") := rfl
  have hguards : Element.Guards "\"x" := by
    unfold Element.Guards
    rw [hliteral]
    trivial
  -- before the reference of the second rule stands a literal, and the first rule calls the second
  have hsecond (target : Rule) : ¬ alternating.rules.LeftCalls
      { name := "t", options := [["\"x", "s"], ["\"x"]] } target := by
    intro h
    rcases h with ⟨before, element, after, name, hoption, hbefore, hread, _⟩
    cases before with
    | nil =>
      have helement : element = "\"x" := by
        simp at hoption
        tauto
      rw [helement, hliteral] at hread
      cases hread
    | cons first before =>
      have hfirst : first = "\"x" := by
        simp at hoption
        tauto
      exact hbefore first List.mem_cons_self (hfirst ▸ hguards)
  have hfirst (target : Rule)
      (h : alternating.rules.LeftCalls { name := "s", options := [["t"]] } target)
      : target = { name := "t", options := [["\"x", "s"], ["\"x"]] } := by
    rcases h with ⟨before, element, after, name, hoption, hbefore, hread, hfind⟩
    cases before with
    | nil =>
      simp at hoption
      rw [hoption.1] at hread
      cases hread
      cases hfind
      rfl
    | cons first before => simp at hoption
  intro rule hrule hcircle
  rcases Relation.TransGen.head'_iff.mp hcircle with ⟨next, hcall, hnext⟩
  have hrule' : rule = { name := "s", options := [["t"]] }
      ∨ rule = { name := "t", options := [["\"x", "s"], ["\"x"]] } := by
    simpa [alternating] using hrule
  cases hrule' with
  | inr heq =>
    subst heq
    exact hsecond next hcall
  | inl heq =>
    subst heq
    rw [hfirst next hcall] at hnext
    cases hnext.cases_head with
    | inl heq => exact absurd (congrArg Rule.name heq) (by decide)
    | inr h =>
      rcases h with ⟨last, hcall', _⟩
      exact hsecond last hcall'

/--
The action that starts a run of the rule `e` and hands on the error that comes of it.
-/
def restart : Action := fun _ _ =>
  .parseAs (.text "e") (.stream ⟨#[], 0⟩) fun answer => match answer with
    | .ok _ => .done .null
    | .error fault => .fail fault

/--
The blank rule with this action.
-/
def restartingRule : Rule where
  name := "e"
  options := [[]]
  action := some restart

/--
The grammar of that rule.
-/
def restarting : Grammar where
  rules := ⟨[restartingRule]⟩

theorem restarting_acyclic : restarting.rules.Acyclic := by
  intro rule hrule hcircle
  rcases Relation.TransGen.head'_iff.mp hcircle with ⟨next, hcall, _⟩
  rcases hcall with ⟨before, element, after, name, hoption, _⟩
  rw [List.mem_singleton.mp hrule] at hoption
  simp [restartingRule] at hoption

section

variable {g : Grammar} {matcher : Matcher}

theorem ensures_start_restartingRule
    (hmatcher : Run.Ensures g.sealed (matcher restartingRule ⟨#[], 0⟩) (fun _ => False)
      (fun fault => fault = .exhausted ∨ fault = .nesting "e" 0))
    : Run.Ensures g (Run.start matcher restartingRule (.stream ⟨#[], 0⟩)) (fun _ => False)
        (fun fault => fault = .nesting "e" 0) := by
  have hsource : TokenStream.openSource g.splitter (.stream ⟨#[], 0⟩) = .ok ⟨#[], 0⟩ := rfl
  apply (Run.Ensures.start hsource hmatcher).mono_failing
  intro fault h
  rcases h with ⟨inner, hinner, rfl⟩
  cases hinner with
  | inl h =>
    rw [h]
    rfl
  | inr h =>
    rw [h]
    rfl

theorem ensures_restart (hrules : g.rules = restarting.rules)
    (hmatcher : Run.Ensures g.sealed (matcher restartingRule ⟨#[], 0⟩) (fun _ => False)
      (fun fault => fault = .exhausted ∨ fault = .nesting "e" 0)) (node : Node)
    : Run.Ensures g (Run.perform matcher (restartingRule.act node)) (fun _ => False)
        (fun fault => fault = .nesting "e" 0) := by
  have hlookup : g.rules.lookup (.text "e") = .ok restartingRule := by
    rw [hrules]
    rfl
  have hrun : Run.Ensures g (Run.startNamed matcher (.text "e") (.stream ⟨#[], 0⟩)) (fun _ => False)
      (fun fault => fault = .nesting "e" 0) := by
    apply Run.Ensures.grammar_bind
    rw [hlookup]
    exact ensures_start_restartingRule hmatcher
  apply Run.Ensures.outcome_bind hrun
  . intro answer h
    exact h.elim
  . intro fault h
    exact Run.Ensures.throw h

-- the run that the action starts calls the action again, with one level less
theorem ensures_ofDepth_restartingRule (hrules : g.rules = restarting.rules)
    (hfactory : g.factory = .list) (tracing : Bool) (depth : Nat)
    : Run.Ensures g (Matcher.ofDepth tracing depth restartingRule ⟨#[], 0⟩) (fun _ => False)
        (fun fault => fault = .exhausted ∨ fault = .nesting "e" 0) := by
  induction depth generalizing g with
  | zero =>
    apply Run.Ensures.throw
    exact .inl rfl
  | succ depth ih =>
    have hnode : Run.Ensures g Run.newNode (fun _ => True)
        (fun fault => fault = .exhausted ∨ fault = .nesting "e" 0) := by
      apply Run.Ensures.newNode.mono (fun _ _ => trivial)
      rintro fault ⟨before, h⟩
      rw [hfactory] at h
      cases h
    have hact (node : Node) : Run.Ensures g
        (Run.act (Matcher.ofDepth tracing depth) restartingRule node) (fun _ => False)
        (fun fault => fault = .exhausted ∨ fault = .nesting "e" 0) := by
      apply Run.Ensures.note_bind
      apply (ensures_restart hrules (ih hrules hfactory) node).mono_failing
      intro fault h
      exact .inr h
    apply Run.Ensures.trace_bind
    apply Run.Ensures.bind hnode
    intro node _
    apply Run.Ensures.bind (hact node)
    intro result h
    exact h.elim

end

/--
A rule without references. Its only option is a pattern with so many groups around an expression.
-/
def enclosedRule (expression : Pattern.Expression .whole) (count : Nat) : Rule where
  name := "enclosed"
  options := [[(expression.enclosed count).element]]

/--
The grammar of that rule.
-/
def enclosing (expression : Pattern.Expression .whole) (count : Nat) : Grammar where
  rules := ⟨[enclosedRule expression count]⟩

section

variable (expression : Pattern.Expression .whole) {count : Nat} (h : Element.groupLimit < count)

include h

theorem enclosing_acyclic : (enclosing expression count).rules.Acyclic := by
  intro rule hrule hcircle
  rcases Relation.TransGen.head'_iff.mp hcircle with ⟨next, hcall, _⟩
  rcases hcall with ⟨before, element, after, name, hoption, _, hread, _⟩
  rw [List.mem_singleton.mp hrule, enclosedRule, List.mem_singleton] at hoption
  have helement : element ∈ [(expression.enclosed count).element] := by
    rw [← hoption]
    simp
  rw [List.mem_singleton.mp helement, expression.read_enclosed h] at hread
  cases hread

theorem ensures_ofDepth_enclosedRule {g : Grammar} (hfactory : g.factory = .list) (tracing : Bool)
    (depth : Nat) {stream : TokenStream} (hpos : 0 ≤ stream.position)
    : Run.Ensures g (Matcher.ofDepth tracing depth (enclosedRule expression count) stream)
        (fun _ => False) (fun fault => fault = .exhausted) := by
  cases depth with
  | zero => exact Run.Ensures.throw rfl
  | succ depth =>
    have hnode : Run.Ensures g Run.newNode (fun _ => True) (fun fault => fault = .exhausted) := by
      apply Run.Ensures.newNode.mono (fun _ _ => trivial)
      rintro fault ⟨before, hfault⟩
      rw [hfactory] at hfault
      cases hfault
    have helement (node : Node) : Run.Ensures g
        (Matcher.matchElement tracing (Matcher.ofDepth tracing depth) (enclosedRule expression count)
          ⟨stream, [], node⟩ (expression.enclosed count).element)
        (fun _ => False) (fun fault => fault = .exhausted) := by
      unfold Matcher.matchElement
      rw [TokenStream.peek_zero hpos, expression.read_enclosed h]
      apply Run.Ensures.trace_bind
      exact Run.Ensures.throw rfl
    have helements (node : Node) : Run.Ensures g
        (Matcher.matchElements tracing (Matcher.ofDepth tracing depth) (enclosedRule expression count)
          ⟨stream, [], node⟩ [(expression.enclosed count).element])
        (fun _ => False) (fun fault => fault = .exhausted) :=
      Run.Ensures.bind (helement node) fun _ hnever => hnever.elim
    apply Run.Ensures.bind hnode
    intro node _
    exact Run.Ensures.bind (helements node) fun _ hnever => hnever.elim

/--
Whatever the limit and whatever is to be matched, the groups of the pattern use the limit up.
-/
theorem run_nesting_enclosed (settings : Settings) {stream : TokenStream} (hpos : 0 ≤ stream.position)
    (journal : Array Event)
    : (first.run settings (.stream stream) ⟨enclosing expression count, journal⟩).1
        =
      .error (.nesting "enclosed" stream.position) := by
  have hsource : TokenStream.openSource (enclosing expression count).splitter (.stream stream)
      = .ok stream := rfl
  have hrun : Run.Ensures (enclosing expression count) (first.run settings (.stream stream))
      (fun _ => False) (fun fault => fault = .nesting "enclosed" stream.position) := by
    apply ensures_run (show first.rule? _ = .ok (enclosedRule expression count) from rfl)
    have hmatcher := ensures_ofDepth_enclosedRule expression h
      (g := (enclosing expression count).sealed) rfl settings.tracing
      (settings.nestingLimit stream.size) hpos
    apply (Run.Ensures.start hsource hmatcher).mono_failing
    rintro fault ⟨inner, rfl, rfl⟩
    rfl
  cases hanswer : (first.run settings (.stream stream) ⟨enclosing expression count, journal⟩).1 with
  | error fault => rw [hrun.failing_of_error hanswer]
  | ok answer => exact (hrun.holds_of_ok hanswer).elim

end

end Grammar.Entry
end TokenGrammar
