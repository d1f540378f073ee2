import TokenGrammar.Proofs.Completion
import TokenGrammar.Proofs.Peg

/-!
This module contains the refinement of parsing expressions by the runs of a grammar. A run that ends
without an error has the outcome that is derived from the remaining tokens; and where an outcome is
derived, every run with a large enough limit comes to it, unless the node factory, a node or an action
raises an error.
-/

namespace TokenGrammar

namespace Matcher

theorem Recognised.derives {rules : RuleSet} {options : List (List String)} {stream : TokenStream}
    {answer : Option Match} (h : Recognised rules options stream answer) (hblank : rules.BlankFree)
    (hoptions : (Form.choice options).BlankFree)
    (hpos : 0 ≤ stream.position) (hempty : "" ∉ stream.tokens)
    : Peg.Derives rules (.choice options) stream.rest (answer.map Match.tokens) := by
  cases answer with
  | none => exact (Peg.agrees_of_yields hblank h hoptions hpos hempty).derives
  | some found =>
    rcases h with ⟨there, hyields⟩
    exact (Peg.agrees_of_yields hblank hyields hoptions hpos hempty).derives

end Matcher

namespace Grammar.Entry

variable {entry : Entry} {g : Grammar} {rule : Rule} {source : Source} {stream : TokenStream}

theorem derives_of_run (hrule : entry.rule? g.rules = .ok rule)
    (hsource : TokenStream.openSource g.splitter source = .ok stream) (hblank : g.rules.BlankFree)
    (hpos : 0 ≤ stream.position) (hempty : "" ∉ stream.tokens) {settings : Settings}
    {journal : Array Event} {answer : Option Match}
    (hanswer : (entry.run settings source ⟨g, journal⟩).1 = .ok answer)
    : Peg.Derives g.rules (.choice rule.options) stream.rest (answer.map Match.tokens) := by
  have hfind := find?_of_rule? hrule
  have hrecognised := holds_of_run hrule hsource
    (Course.recognised_ofDepth (RuleSet.mem_of_find? hfind) _ stream) hanswer
  exact hrecognised.derives hblank (hblank.options hfind) hpos hempty

theorem raises_of_derives (hrule : entry.rule? g.rules = .ok rule)
    (hsource : TokenStream.openSource g.splitter source = .ok stream) (hblank : g.rules.BlankFree)
    (hpos : 0 ≤ stream.position) (hempty : "" ∉ stream.tokens) {out : Option (List String)}
    (h : Peg.Derives g.rules (.choice rule.options) stream.rest out)
    : ∃ levels, ∀ room (settings : Settings) journal fault,
        levels + room ≤ settings.nestingLimit stream.size →
        (entry.run settings source ⟨g, journal⟩).1 = .error fault →
        ∃ inner, (entry.endingOf settings source ⟨g, journal⟩).Raises g room inner
          ∧ fault = Run.reported rule stream.position inner := by
  have hfind := find?_of_rule? hrule
  rcases Peg.yields_of_derives hblank h (hblank.options hfind) hpos hempty with ⟨out, hyields, rfl⟩
  rcases Course.performs_of_yields hyields with ⟨levels, hlevels⟩
  -- the rule at which the run begins takes one level itself
  refine ⟨levels + 1, ?_⟩
  intro room settings journal fault hlimit hfault
  rcases Nat.exists_eq_add_of_le' (show 1 ≤ settings.nestingLimit stream.size by omega)
    with ⟨depth, hdepth⟩
  have hperforms := hlevels room depth (by omega) rule (RuleSet.mem_of_find? hfind)
  have hcourse : Course.Ensures g room (Course.ofDepth g (settings.nestingLimit stream.size) rule stream)
      (fun found => found.map Match.tokens = out.map Prod.fst) (fun _ => False) := by
    rw [hdepth]
    exact hperforms.call
  rcases failing_of_run hrule hsource hcourse hfault with ⟨inner, hinner, hreported⟩
  exact ⟨inner, hinner.resolve_left id, hreported⟩

/--
Where no option is blank and no token is empty, a run that ends without an error has an outcome that
is derived as a parsing expression, and a match is a prefix of the remaining tokens. Conversely an
outcome that is derived is the one of every run that ends without an error; and with a limit that is
large enough no run ends with an error but for one that is raised by the last call in its course: of
the node factory, of a node that takes an item or of an action, however many levels the action has left
for runs of its own.
-/
theorem run_refines_peg (hrule : entry.rule? g.rules = .ok rule)
    (hsource : TokenStream.openSource g.splitter source = .ok stream) (hblank : g.rules.BlankFree)
    (hpos : 0 ≤ stream.position) (hempty : "" ∉ stream.tokens)
    : (∀ settings journal answer, (entry.run settings source ⟨g, journal⟩).1 = .ok answer →
        Peg.Derives g.rules (.choice rule.options) stream.rest (answer.map Match.tokens)
        ∧ ∀ found, answer = some found → found.tokens <+: stream.rest)
      ∧ ∀ out, Peg.Derives g.rules (.choice rule.options) stream.rest out →
        (∀ settings journal answer, (entry.run settings source ⟨g, journal⟩).1 = .ok answer →
          answer.map Match.tokens = out)
        ∧ ∃ levels, ∀ room (settings : Settings) journal fault,
          levels + room ≤ settings.nestingLimit stream.size →
          (entry.run settings source ⟨g, journal⟩).1 = .error fault →
          ∃ inner, (entry.endingOf settings source ⟨g, journal⟩).Raises g room inner
            ∧ fault = Run.reported rule stream.position inner := by
  constructor
  . intro settings journal answer hanswer
    have hderives := derives_of_run hrule hsource hblank hpos hempty hanswer
    refine ⟨hderives, ?_⟩
    intro found hfound
    rw [hfound] at hderives
    exact hderives.isPrefix
  . intro out hout
    refine ⟨?_, raises_of_derives hrule hsource hblank hpos hempty hout⟩
    intro settings journal answer hanswer
    exact (derives_of_run hrule hsource hblank hpos hempty hanswer).functional hout

/--
A rule for one `x` or more.
-/
def repeating : Grammar where
  rules := ⟨[{ name := "r", options := [["\"x", "r"], ["\"x"]] }]⟩

theorem repeating_harmless : repeating.Harmless := by
  apply harmless_of_actions rfl
  simp [repeating]

theorem run_refines_peg_repeating
    : Peg.Derives repeating.rules (.choice [["\"x", "r"], ["\"x"]]) ["x", "x", "y"]
        (some ["x", "x"])
      ∧ ∃ levels, ∀ (settings : Settings) journal, levels ≤ settings.nestingLimit 3 →
        ∃ answer, (first.run settings (.stream ⟨#["x", "x", "y"], 0⟩) ⟨repeating, journal⟩).1
            = .ok answer
          ∧ answer.map Match.tokens = some ["x", "x"] := by
  have hrefines := run_refines_peg (show first.rule? repeating.rules = .ok _ from rfl)
    (show TokenStream.openSource repeating.splitter (.stream ⟨#["x", "x", "y"], 0⟩) = .ok _
      from rfl)
    (by simp [repeating, RuleSet.BlankFree]) (by decide) (by simp)
  have hderives : Peg.Derives repeating.rules (.choice [["\"x", "r"], ["\"x"]]) ["x", "x", "y"]
      (some ["x", "x"]) := by
    have hfound : ∃ found, (first.run {} (.stream ⟨#["x", "x", "y"], 0⟩) ⟨repeating, #[]⟩).1
          = .ok (some found)
        ∧ found.tokens = ["x", "x"] := by
      apply exists_found
      decide +kernel
    rcases hfound with ⟨found, hrun, htokens⟩
    rw [← htokens]
    exact (hrefines.1 {} #[] (some found) hrun).1
  refine ⟨hderives, ?_⟩
  rcases hrefines.2 _ hderives with ⟨hanswer, levels, hfault⟩
  refine ⟨levels, ?_⟩
  intro settings journal hlimit
  rcases hrun : (first.run settings (.stream ⟨#["x", "x", "y"], 0⟩) ⟨repeating, journal⟩).1
    with fault | answer
  . rcases hfault 0 settings journal fault hlimit hrun with ⟨inner, ⟨step, _, hraises⟩, _⟩
    exact (repeating_harmless.not_raises hraises).elim
  . exact ⟨answer, rfl, hanswer settings journal answer hrun⟩

end Grammar.Entry
end TokenGrammar
