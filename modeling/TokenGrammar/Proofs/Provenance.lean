import Mathlib.Logic.Relation
import TokenGrammar.Proofs.Account

/-!
This module contains where the errors of a run come from. Where neither the node factory nor an action
raises one, a run ends with an error for its nesting limit or for an element: a reference to no rule,
or a pattern that cannot be read. Such an element is never far to seek, for references lead from the
rule at which the run began to the rule that it stands in.
-/

namespace TokenGrammar

namespace Element

variable {element : String}

theorem ofText_of_writesPattern (h : writesPattern element = true)
    : ofText element = .pattern <$> readPattern element := by
  have hliteral : ¬ writesLiteral element = true := by
    unfold writesPattern at h
    unfold writesLiteral
    split at h
    . next heq =>
      simp [heq]
    . cases h
  unfold ofText
  rw [if_neg hliteral, if_pos h]

theorem ofText_of_read {result : Element} (h : read element = .ok result) : ofText element = .ok result := by
  unfold read at h
  split at h
  . cases h
  . exact h

theorem exhausted_or_ofText_of_read {fault : Fault} (h : read element = .error fault)
    : fault = .exhausted ∨ ofText element = .error fault := by
  unfold read at h
  split at h
  . cases h
    exact .inl rfl
  . exact .inr h

end Element

namespace RuleSet

/--
Some option of the rule refers to the target.
-/
def Refers (rules : RuleSet) (rule target : Rule) : Prop :=
  ∃ option ∈ rule.options, ∃ element ∈ option, ∃ name,
    Element.read element = .ok (.reference name) ∧ rules.find? name = some target

/--
What is wrong with an element, whatever the tokens are: it refers to no rule, or it is a pattern whose
body is empty or refused.
-/
inductive Flaw (rules : RuleSet) : String → Fault → Prop where
  | undeclared {element name} (hread : Element.read element = .ok (.reference name))
      (hfind : rules.find? name = none)
      : Flaw rules element (.unknownRule (.text name))
  | empty {element} (hpattern : Element.writesPattern element = true)
      (hbody : Element.patternBody element = "")
      : Flaw rules element (.emptyPattern element)
  | refused {element problem} (hpattern : Element.writesPattern element = true)
      (hbody : Pattern.Regex.ofText (Element.patternBody element) = .error problem)
      : Flaw rules element (.badPattern element problem)

/--
Every element of every option can be read, and what is referred to is declared.
-/
def Complete (rules : RuleSet) : Prop :=
  ∀ rule ∈ rules.toList, ∀ option ∈ rule.options, ∀ element ∈ option,
    ∃ read, Element.ofText element = .ok read ∧ ∀ name, read = .reference name → name ∈ rules.names

variable {rules : RuleSet} {element : String} {fault : Fault}

theorem flaw_of_ofText (h : Element.ofText element = .error fault) : rules.Flaw element fault := by
  unfold Element.ofText at h
  split at h
  . cases h
  . split at h
    . next hpattern =>
      unfold Element.readPattern at h
      split at h
      . next hbody =>
        cases h
        exact .empty hpattern (String.isEmpty_iff.mp hbody)
      . split at h
        . cases h
        . next hproblem =>
          cases h
          exact .refused hpattern hproblem
    . cases h

theorem not_flaw_of_ofText {read : Element} (hread : Element.ofText element = .ok read)
    (hname : ∀ name, read = .reference name → name ∈ rules.names)
    : ¬ rules.Flaw element fault := by
  intro h
  cases h with
  | undeclared hreference hfind =>
    rw [Element.ofText_of_read hreference] at hread
    cases hread
    rcases List.mem_map.mp (hname _ rfl) with ⟨target, htarget, rfl⟩
    have := List.find?_eq_none.mp hfind target htarget
    simp at this
  | empty hpattern hbody =>
    rw [Element.ofText_of_writesPattern hpattern, Element.readPattern, if_pos (by simp [hbody])]
      at hread
    cases hread
  | refused hpattern hbody =>
    rw [Element.ofText_of_writesPattern hpattern, Element.readPattern, hbody] at hread
    split at hread
    . cases hread
    . cases hread

/--
The error comes from an element of a declared rule to which references lead from the given one.
-/
def Explains (rules : RuleSet) (rule : Rule) (fault : Fault) : Prop :=
  ∃ origin ∈ rules.toList, Relation.ReflTransGen rules.Refers rule origin
    ∧ ∃ option ∈ origin.options, ∃ element ∈ option, rules.Flaw element fault

variable {rule target : Rule}

theorem Explains.of_refers (hrefers : rules.Refers rule target) (h : rules.Explains target fault)
    : rules.Explains rule fault := by
  rcases h with ⟨origin, horigin, hpath, hflaw⟩
  exact ⟨origin, horigin, .head hrefers hpath, hflaw⟩

theorem Explains.ne_exhausted (h : rules.Explains rule fault) : fault ≠ .exhausted := by
  rintro rfl
  rcases h with ⟨_, _, _, _, _, _, _, hflaw⟩
  cases hflaw

theorem not_explains_of_complete (h : rules.Complete) : ¬ rules.Explains rule fault := by
  rintro ⟨origin, horigin, _, option, hoption, element, helement, hflaw⟩
  rcases h origin horigin option hoption element helement with ⟨read, hread, hname⟩
  exact not_flaw_of_ofText hread hname hflaw

end RuleSet

namespace Matcher

variable {rules : RuleSet} {rule : Rule} {stream there : TokenStream} {element : String} {fault : Fault}

theorem Reaches.explains (h : Reaches rules rule stream element there) (hrule : rule ∈ rules.toList)
    (hflaw : rules.Flaw element fault)
    : rules.Explains rule fault := by
  rcases h.mem with ⟨option, hoption, helement⟩
  exact ⟨rule, hrule, .refl, option, hoption, element, helement, hflaw⟩

/--
The error says that the limit is used up, or an element has it that references lead to from the rule.
-/
def Traceable (rules : RuleSet) (rule : Rule) (_ : TokenStream) (fault : Fault) : Prop :=
  fault = .exhausted ∨ rules.Explains rule fault

theorem traceable_of_causes (hrule : rule ∈ rules.toList) (hpos : 0 ≤ stream.position)
    (h : Causes rules (Traceable rules) rule stream fault)
    : Traceable rules rule stream fault := by
  cases h with
  | looking hreach h =>
    rcases hreach.advance hpos with ⟨_, hposition⟩
    rw [TokenStream.peek_zero (Int.le_trans hpos hposition)] at h
    cases h
  | stepping hreach h =>
    rcases hreach.advance hpos with ⟨_, hposition⟩
    rcases TokenStream.next_eq (Int.le_trans hpos hposition) with ⟨_, hnext, _⟩
    rw [h] at hnext
    cases hnext
  | reading hreach h =>
    apply (Element.exhausted_or_ofText_of_read h).imp_right
    intro hflaw
    exact hreach.explains hrule (RuleSet.flaw_of_ofText hflaw)
  | unknown hreach hread hfind => exact .inr (hreach.explains hrule (.undeclared hread hfind))
  | calling hcall h =>
    apply h.imp_right
    rcases hcall with ⟨element, name, hreach, hread, hfind⟩
    rcases hreach.mem with ⟨option, hoption, helement⟩
    exact .of_refers ⟨option, hoption, element, helement, name, hread, hfind⟩

-- by induction on the way down through the calls to the one in which the error arises
theorem traceable_ofDepth {g : Grammar} {depth : Nat} (hrule : rule ∈ g.rules.toList)
    (hpos : 0 ≤ stream.position)
    : Course.Ensures g 0 (Course.ofDepth g depth rule stream) (Recognised g.rules rule.options stream)
        (Traceable g.rules rule stream) := by
  induction depth generalizing rule stream with
  | zero => exact Course.Ensures.call (Course.Ensures.throw (.inl rfl))
  | succ depth ih =>
    have hcalls (target : Rule) (there : TokenStream) (hcall : Calls g.rules (rule, stream) (target, there))
        : Course.Ensures g 0 (Course.ofDepth g depth target there)
            (Recognised g.rules target.options there) (Traceable g.rules target there) := by
      rcases hcall.advance hpos with ⟨_, hposition⟩
      exact ih hcall.mem (Int.le_trans hpos hposition)
    apply (Course.ensures_ofDepth_succ hrule (Nat.zero_le _) hcalls).mono_failing
    intro fault hcauses
    exact traceable_of_causes hrule hpos hcauses

end Matcher

namespace Grammar.Entry

variable {entry : Entry} {g : Grammar} {rule : Rule} {source : Source} {stream : TokenStream}
  {settings : Settings}

/--
Where neither the node factory nor a node that takes an item nor an action raises an error, a run that
ends with one has either used up its nesting limit, or the error comes from an element of a rule to which
references lead from the one at which the run began: the element refers to no rule, or it is a pattern
that is refused. Where there is no such element in any rule, only the limit can end a run.
-/
theorem run_provenance (hrule : entry.rule? g.rules = .ok rule)
    (hsource : TokenStream.openSource g.splitter source = .ok stream) (hpos : 0 ≤ stream.position)
    (hharmless : g.Harmless) (journal : Array Event)
    : ∀ fault, (entry.run settings source ⟨g, journal⟩).1 = .error fault →
        (fault = .nesting rule.name stream.position ∨ g.rules.Explains rule fault)
        ∧ (g.rules.Complete → fault = .nesting rule.name stream.position) := by
  intro fault hfault
  have horigin : fault = .nesting rule.name stream.position ∨ g.rules.Explains rule fault := by
    have hmem : rule ∈ g.rules.toList := RuleSet.mem_of_find? (find?_of_rule? hrule)
    rcases failing_of_run hrule hsource (Matcher.traceable_ofDepth hmem hpos) hfault
      with ⟨inner, (rfl | hexplains) | ⟨_, _, hraises⟩, rfl⟩
    . exact .inl rfl
    . rw [Run.reported_of_ne hexplains.ne_exhausted]
      exact .inr hexplains
    . exact (hharmless.not_raises hraises).elim
  refine ⟨horigin, ?_⟩
  intro hcomplete
  exact horigin.resolve_right (RuleSet.not_explains_of_complete hcomplete)

/--
The rule at which a run of the next grammar begins. Its second option is not looked at where the first
one leads into an error.
-/
def danglingRule : Rule where
  name := "s"
  options := [["\"x", "t"], ["\"y"]]

/--
A grammar with a reference to no rule, behind a blank rule.
-/
def dangling : Grammar where
  rules := ⟨[danglingRule, { name := "t", options := [["u", "\"x", "missing"]] },
    { name := "u", options := [[]] }]⟩

/--
The name that no rule has, according to the error.
-/
def missingName? : Fault → Option Value
  | .unknownRule name => some name
  | _ => none

theorem eq_unknownRule_of_missingName? {fault : Fault} {name : String}
    (h : (missingName? fault).bind Value.text? = some name)
    : fault = .unknownRule (.text name) := by
  cases fault with
  | unknownRule given =>
    cases given with
    | text text =>
      cases h
      rfl
    | _ => cases h
  | _ => cases h

theorem run_provenance_dangling
    : (first.run {} (.stream ⟨#["x", "x", "x"], 0⟩) ⟨dangling, #[]⟩).1
        = .error (.unknownRule (.text "missing"))
      ∧ dangling.rules.Explains danglingRule (.unknownRule (.text "missing")) := by
  have hfault : (first.run {} (.stream ⟨#["x", "x", "x"], 0⟩) ⟨dangling, #[]⟩).1
      = .error (.unknownRule (.text "missing")) := by
    have hname : (fault? (first.run {} (.stream ⟨#["x", "x", "x"], 0⟩) ⟨dangling, #[]⟩).1).map
        (fun fault => (missingName? fault).bind Value.text?) = some (some "missing") := by
      decide +kernel
    rcases exists_fault hname with ⟨fault, hfault, hmissing⟩
    rw [hfault, eq_unknownRule_of_missingName? hmissing]
  have hharmless : dangling.Harmless := harmless_of_actions rfl (by simp [dangling, danglingRule])
  have horigin := run_provenance (show first.rule? dangling.rules = .ok danglingRule from rfl)
    (show TokenStream.openSource dangling.splitter (.stream ⟨#["x", "x", "x"], 0⟩) = .ok _ from rfl)
    (by decide) hharmless #[] _ hfault
  refine ⟨hfault, ?_⟩
  cases horigin.1 with
  | inl h => cases h
  | inr h => exact h

/--
A node that takes nothing but integers.
-/
def integers : Node where
  shape := .other "bytearray" fun items item => match item with
    | .number (.int n) => .ok (items ++ [.int n])
    | _ => .error (.raised .type "an integer is required")

/--
A grammar of a literal whose nodes do not take it.
-/
def picky : Grammar where
  factory := .constant (.ok (.node integers))
  rules := ⟨[{ name := "s", options := [["\"a"]] }]⟩

/--
A grammar of a pattern with flags that exclude each other.
-/
def flagged : Grammar where
  rules := ⟨[{ name := "s", options := [["/(?a)(?u)x/"]] }]⟩

/--
A node that is accepted may still refuse the token that it is to take; and the pattern compiler reports a
pattern under a kind that is none of the grammar.
-/
theorem run_provenance_picky
    : ((∀ before, picky.factory.newNode before = .ok integers)
        ∧ (∀ rule ∈ picky.rules.toList, rule.action = none)
        ∧ ∃ fault, (first.run {} (.stream ⟨#["a"], 0⟩) ⟨picky, #[]⟩).1 = .error fault
          ∧ fault.kind = .type)
      ∧ flagged.Harmless
      ∧ ∃ fault, (first.run {} (.stream ⟨#["x"], 0⟩) ⟨flagged, #[]⟩).1 = .error fault
        ∧ fault.kind = .value := by
  refine ⟨⟨fun _ => rfl, by simp [picky], ?_⟩, harmless_of_actions rfl (by simp [flagged]), ?_⟩
  . apply exists_fault
    decide +kernel
  . apply exists_fault
    decide +kernel

end Grammar.Entry
end TokenGrammar
