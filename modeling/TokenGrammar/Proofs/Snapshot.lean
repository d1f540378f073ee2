import TokenGrammar.Proofs.Equivalence
import TokenGrammar.Proofs.Revision

/-!
This module contains the snapshot of the rules of a grammar. It lists names and options, nothing else, but
that is all a new grammar needs to do the same, provided that the rules have the default action. This is
so however the options were handed over at first, since rules keep them as a list of texts, and however
many calls have failed on the way.
-/

namespace TokenGrammar

/--
The rule with the action that it has if none is given with it.
-/
def Rule.withDefault (rule : Rule) (fallback : Callable Action) : Rule :=
  { rule with action := match fallback with
    | .function action => some action
    | _ => none }

/--
The action of the rule is the default one, or does the same.
-/
def Rule.CarriesDefault (rule : Rule) (fallback : Callable Action) : Prop :=
  ∀ node, rule.act node = (rule.withDefault fallback).act node

namespace RuleSet

/--
What sets of rules have in common that were built by declarations: no name is empty or stands there
twice, and the options of each rule are those that are written.
-/
structure Formed (rules : RuleSet) : Prop where
  distinct : rules.names.Nodup
  nonempty : ∀ rule ∈ rules.toList, rule.name ≠ ""
  consistent : ∀ rule ∈ rules.toList, rule.Consistent

/--
The snapshot as a mapping of rules.
-/
def entries (rules : RuleSet) : List (Value × Value) :=
  rules.snapshot.map fun (name, written) => (.text name, .texts written)

variable {rules : RuleSet} {rule : Rule}

theorem Formed.empty : Formed {} where
  distinct := List.nodup_nil
  nonempty := by simp
  consistent := by simp

theorem eq_or_mem_of_mem_insert {other : Rule} (h : other ∈ (rules.insert rule).toList)
    : other = rule ∨ other ∈ rules.toList := by
  unfold insert at h
  split at h
  . rcases List.mem_map.mp h with ⟨former, hformer, rfl⟩
    split
    . exact .inl rfl
    . exact .inr hformer
  . rcases List.mem_append.mp h with hformer | hlast
    . exact .inr hformer
    . exact .inl (List.mem_singleton.mp hlast)

theorem Formed.insert (h : rules.Formed) (hnonempty : rule.name ≠ "") (hconsistent : rule.Consistent)
    : (rules.insert rule).Formed where
  distinct := by
    by_cases hmem : rule.name ∈ rules.names
    . rw [names_insert_of_mem hmem]
      exact h.distinct
    . rw [names_insert_of_not_mem hmem, List.nodup_append]
      refine ⟨h.distinct, by simp, ?_⟩
      intro name hname last hlast heq
      rw [heq, List.mem_singleton.mp hlast] at hname
      exact hmem hname
  nonempty := by
    intro other hother
    rcases eq_or_mem_of_mem_insert hother with rfl | hformer
    . exact hnonempty
    . exact h.nonempty other hformer
  consistent := by
    intro other hother
    rcases eq_or_mem_of_mem_insert hother with rfl | hformer
    . exact hconsistent
    . exact h.consistent other hformer

theorem insert_of_not_mem (h : rule.name ∉ rules.names)
    : rules.insert rule = ⟨rules.toList ++ [rule]⟩ := by
  unfold insert
  rw [if_neg (by simpa using h)]

end RuleSet

/--
The later grammar is the former one with another rule set, one that was built by declarations.
-/
structure Grammar.Grown (former later : Grammar) : Prop where
  kept : later = { former with rules := later.rules }
  formed : later.rules.Formed

theorem Grammar.Grown.refl {g : Grammar} (h : g.rules.Formed) : g.Grown g := ⟨rfl, h⟩

theorem Grammar.Grown.trans {first second third : Grammar} (h : first.Grown second)
    (h' : second.Grown third)
    : first.Grown third := by
  refine ⟨?_, h'.formed⟩
  rw [h'.kept, h.kept]

theorem Grammar.Grown.running {former later : Grammar} (h : former.Grown later)
    : later.running = former.running := by
  rw [h.kept]

namespace Declaration

variable {g : Grammar}

theorem attempt_grown (hg : g.running = 0) (h : g.rules.Formed) (call : Declaration)
    (journal : Array Event)
    : g.Grown (call.attempt ⟨g, journal⟩).2.grammar := by
  rcases attempt_cases hg call journal with ⟨rule, after, hcall, hattempt⟩ | ⟨fault, after, _, hattempt⟩
  . rw [hattempt]
    exact ⟨rfl, h.insert hcall.nonempty hcall.options⟩
  . rw [hattempt]
    exact .refl h

theorem attemptAll_grown (hg : g.running = 0) (h : g.rules.Formed) (calls : List Declaration)
    (journal : Array Event)
    : g.Grown (attemptAll calls ⟨g, journal⟩).session.grammar := by
  induction calls generalizing g journal with
  | nil => exact .refl h
  | cons call calls ih =>
    have hfirst := attempt_grown hg h call journal
    unfold attemptAll
    rcases hattempt : call.attempt ⟨g, journal⟩ with ⟨_ | _, later, after⟩
    all_goals rw [hattempt] at hfirst
    . exact hfirst.trans (ih (hfirst.running.trans hg) hfirst.formed after)
    . exact hfirst.trans (ih (hfirst.running.trans hg) hfirst.formed after)

theorem attemptEntries_grown (hg : g.running = 0) (h : g.rules.Formed)
    (entries : List (Value × Value)) (journal : Array Event)
    : g.Grown (attemptEntries entries ⟨g, journal⟩).2.grammar := by
  induction entries generalizing g journal with
  | nil => exact .refl h
  | cons entry entries ih =>
    have hfirst := attempt_grown hg h ⟨entry.1, entry.2, .absent⟩ journal
    unfold attemptEntries
    rw [List.forM_cons, Run.bind_apply]
    rcases hattempt : attempt ⟨entry.1, entry.2, .absent⟩ ⟨g, journal⟩ with ⟨_ | _, later, after⟩
    all_goals rw [hattempt] at hfirst
    . exact hfirst
    . exact hfirst.trans (ih (hfirst.running.trans hg) hfirst.formed after)

end Declaration

/--
A rule that is made from the name and the options of another one.
-/
theorem Rule.make_written {rule : Rule} {fallback : Callable Action}
    (hfallback : ∀ value, fallback ≠ .unfit value) (hnonempty : rule.name ≠ "")
    (hconsistent : rule.Consistent)
    : (make (.text rule.name) (.texts rule.written) fallback).2 = .ok (rule.withDefault fallback) := by
  have hread : readOptions rule.name (.texts rule.written) = .ok rule.written :=
    readOptions_eq_ok_iff.mpr (.list rule.written)
  have hoptions : ({ name := rule.name } : Rule).withOptions (.texts rule.written)
      = .ok ({ rule with action := none }, shadowing? rule.name rule.options) := by
    unfold withOptions
    rw [hconsistent]
    dsimp only
    rw [hread]
    rfl
  unfold make
  rw [readName_of_nonempty hnonempty]
  dsimp only
  rw [hoptions]
  cases fallback with
  | unfit value => exact (hfallback value rfl).elim
  | _ => rfl

namespace Declaration

variable {g : Grammar}

/--
The entries of a snapshot are declared without a failure, and each puts its rule behind the others.
-/
theorem attemptEntries_entries (hg : g.running = 0)
    (hfallback : ∀ value, g.defaultAction ≠ .unfit value) (later : List Rule)
    (hdistinct : (g.rules.names ++ later.map Rule.name).Nodup)
    (hlater : ∀ rule ∈ later, rule.name ≠ "" ∧ rule.Consistent) (journal : Array Event)
    : ∃ after, attemptEntries (RuleSet.entries ⟨later⟩) ⟨g, journal⟩
        =
      (.ok (), ⟨{ g with rules :=
        ⟨g.rules.toList ++ later.map fun rule => rule.withDefault g.defaultAction⟩ }, after⟩) := by
  induction later generalizing g journal with
  | nil =>
    refine ⟨journal, ?_⟩
    rw [List.map_nil, List.append_nil]
    rfl
  | cons rule later ih =>
    rcases hlater rule List.mem_cons_self with ⟨hnonempty, hconsistent⟩
    have hmake := Rule.make_written hfallback hnonempty hconsistent
    rcases Grammar.enter_of_ok (g := g) hmake journal with ⟨entered, henter⟩
    have hattempt : attempt ⟨.text rule.name, .texts rule.written, .absent⟩ ⟨g, journal⟩
        = (.ok (), ⟨{ g with rules := g.rules.insert (rule.withDefault g.defaultAction) }, entered⟩) :=
      (attempt_of_open hg _ journal).trans henter
    have hfresh : rule.name ∉ g.rules.names := by
      intro hmem
      exact (List.nodup_append.mp hdistinct).2.2 _ hmem _ List.mem_cons_self rfl
    have hinsert : g.rules.insert (rule.withDefault g.defaultAction)
        = ⟨g.rules.toList ++ [rule.withDefault g.defaultAction]⟩ := RuleSet.insert_of_not_mem hfresh
    have hrest : (RuleSet.names ⟨g.rules.toList ++ [rule.withDefault g.defaultAction]⟩
        ++ later.map Rule.name).Nodup := by
      rw [RuleSet.names, List.map_append, List.append_assoc]
      exact hdistinct
    rcases @ih { g with rules := ⟨g.rules.toList ++ [rule.withDefault g.defaultAction]⟩ } hg hfallback
      hrest (fun other hother => hlater other (List.mem_cons_of_mem _ hother)) entered with
      ⟨after, hentries⟩
    refine ⟨after, ?_⟩
    have hcons : attemptEntries (RuleSet.entries ⟨rule :: later⟩)
        = attempt ⟨.text rule.name, .texts rule.written, .absent⟩ >>= fun _ =>
          attemptEntries (RuleSet.entries ⟨later⟩) := rfl
    rw [hcons, Run.bind_apply, hattempt, hinsert]
    dsimp only
    rw [hentries, List.append_assoc]
    rfl

end Declaration

namespace Grammar

variable {factory : Callable NodeFactory} {fallback : Callable Action} {splitter : Callable Splitter}

/--
A grammar that is made without rules has the default action that was given, which is one to be called.
-/
theorem create_absent {empty : Grammar} (h : (create .absent factory fallback splitter).1 = .ok empty)
    : empty.running = 0 ∧ empty.rules = {} ∧ empty.defaultAction = fallback
        ∧ ∀ value, fallback ≠ .unfit value := by
  cases factory with
  | unfit value => cases h
  | _ =>
    cases fallback with
    | unfit value => cases h
    | _ =>
      cases h
      exact ⟨rfl, rfl, rfl, nofun⟩

theorem create_grown {rules : RulesGiven} {g : Grammar}
    (h : (create rules factory fallback splitter).1 = .ok g)
    : ∃ empty, (create .absent factory fallback splitter).1 = .ok empty ∧ empty.Grown g := by
  cases rules with
  | absent =>
    refine ⟨g, h, .refl ?_⟩
    rw [(create_absent h).2.1]
    exact .empty
  | other typeName => cases h
  | mapping entries =>
    rcases create_mapping entries factory fallback splitter with ⟨hfailed, hmade⟩
    cases hempty : (create .absent factory fallback splitter).1 with
    | error fault =>
      rw [hfailed fault hempty, hempty] at h
      cases h
    | ok empty =>
      rcases create_absent hempty with ⟨hrunning, hrules, _, _⟩
      have hformed : empty.rules.Formed := by
        rw [hrules]
        exact .empty
      have hgrown := Declaration.attemptEntries_grown hrunning hformed entries
        (create .absent factory fallback splitter).2
      rw [hmade empty hempty] at h
      rcases hbuilt : Declaration.attemptEntries entries
        ⟨empty, (create .absent factory fallback splitter).2⟩ with ⟨_ | _, later, after⟩
      all_goals rw [hbuilt] at h hgrown; cases h
      exact ⟨empty, rfl, hgrown⟩

/--
The grammar whose rules are made anew, each with the default action.
-/
def remade (g : Grammar) : Grammar :=
  { g with rules := ⟨g.rules.toList.map fun rule => rule.withDefault g.defaultAction⟩ }

theorem remade_names (g : Grammar) : g.remade.rules.names = g.rules.names :=
  RuleSet.names_map g.rules _ fun _ => rfl

theorem find?_remade (g : Grammar) (name : String)
    : g.remade.rules.find? name
        =
      (g.rules.find? name).map fun rule => rule.withDefault g.defaultAction :=
  RuleSet.find?_map g.rules (fun rule => rule.withDefault g.defaultAction) (fun _ => rfl) name

theorem remade_snapshot (g : Grammar) : g.remade.rules.snapshot = g.rules.snapshot := by
  unfold remade RuleSet.snapshot
  rw [List.map_map]
  rfl

theorem equivalent_remade {g : Grammar}
    (h : ∀ rule ∈ g.rules.toList, rule.CarriesDefault g.defaultAction)
    : g.Equivalent g.remade where
  factory := rfl
  splitter := rfl
  names := g.remade_names
  rules := by
    intro name
    rw [g.find?_remade]
    cases hfind : g.rules.find? name with
    | none => exact .none
    | some rule =>
      exact .some ⟨rfl, rfl, fun node => (h rule (RuleSet.mem_of_find? hfind) node).symm⟩

/--
A grammar that has grown from one without rules comes out of its snapshot, with its rules made anew.
-/
theorem create_entries {empty g : Grammar}
    (hempty : (create .absent factory fallback splitter).1 = .ok empty) (h : empty.Grown g)
    : (create (.mapping g.rules.entries) factory fallback splitter).1 = .ok g.remade := by
  rcases create_absent hempty with ⟨hrunning, hrules, hdefault, hfallback⟩
  rw [← hdefault] at hfallback
  have hdistinct : (empty.rules.names ++ g.rules.toList.map Rule.name).Nodup := by
    rw [hrules]
    exact h.formed.distinct
  have hlater (rule : Rule) (hrule : rule ∈ g.rules.toList) : rule.name ≠ "" ∧ rule.Consistent :=
    ⟨h.formed.nonempty rule hrule, h.formed.consistent rule hrule⟩
  rcases Declaration.attemptEntries_entries hrunning hfallback g.rules.toList hdistinct hlater
    (create .absent factory fallback splitter).2 with ⟨after, hentries⟩
  have hremade : { empty with rules := ⟨empty.rules.toList
      ++ g.rules.toList.map fun rule => rule.withDefault empty.defaultAction⟩ } = g.remade := by
    unfold remade
    rw [h.kept, hrules]
    rfl
  rw [(create_mapping g.rules.entries factory fallback splitter).2 empty hempty]
  rw [hremade] at hentries
  dsimp only
  rw [hentries]
  rfl

/--
The snapshot of a grammar tells all that matters of its rules if they have the default action. The grammar
may have been made from any rules, and then any calls may have declared rules, some of them in vain. A new
grammar is made of the snapshot without an error. It has the same names in the same order and the same
snapshot, and each run of it has the same answer, whatever rule it begins at: a match with the same tokens
and the same result, the lack of one, or the same error. What the node factory does must not depend on which
of the grammars asks it: it does the same each time, or it has been asked equally often before.
-/
theorem create_snapshot {rules : RulesGiven} {made : Grammar} {notices : Array Event}
    (hmade : create rules factory fallback splitter = (.ok made, notices)) (calls : List Declaration)
    (hcarries : ∀ rule ∈ (Declaration.attemptAll calls ⟨made, notices⟩).session.grammar.rules.toList,
      rule.CarriesDefault fallback)
    : let g := (Declaration.attemptAll calls ⟨made, notices⟩).session.grammar
      g.rules.names.Nodup
      ∧ ∃ g' notices', create (.mapping g.rules.entries) factory fallback splitter = (.ok g', notices')
        ∧ g'.rules.names = g.rules.names
        ∧ g'.rules.snapshot = g.rules.snapshot
        ∧ ∀ (entry : Entry) settings source journal journal', g.factory.SameAfter journal journal' →
          (entry.run settings source ⟨g', journal'⟩).1 = (entry.run settings source ⟨g, journal⟩).1 := by
  intro g
  have hmade : (create rules factory fallback splitter).1 = .ok made := by rw [hmade]
  rcases create_grown hmade with ⟨empty, hempty, hgrown⟩
  rcases create_absent hempty with ⟨hrunning, _, hdefault, _⟩
  have hg : empty.Grown g :=
    hgrown.trans (Declaration.attemptAll_grown (hgrown.running.trans hrunning) hgrown.formed calls notices)
  have hcarries : ∀ rule ∈ g.rules.toList, rule.CarriesDefault g.defaultAction := by
    rw [hg.kept]
    dsimp only
    rw [hdefault]
    exact hcarries
  refine ⟨hg.formed.distinct, g.remade, _, Prod.ext (create_entries hempty hg) rfl, ?_, ?_, ?_⟩
  . exact g.remade_names
  . exact g.remade_snapshot
  . intro entry settings source journal journal'
    exact Entry.run_equivalent (equivalent_remade hcarries) entry settings source

/--
Rules for a new grammar, with options as a text, as a tuple and as a list.
-/
def mixedOptions : List (Value × Value) :=
  [(.text "s", .text "\"a t"), (.text "t", .tuple [.text "\"b", .text " "]), (.text "u", .list [])]

/--
The grammar of these rules.
-/
def mixed : Grammar where
  rules := ⟨[
    { name := "s", written := ["\"a t"], options := [["\"a", "t"]] },
    { name := "t", written := ["\"b", " "], options := [["\"b"], []] },
    { name := "u" }]⟩

/--
Calls on that grammar. The first one replaces a rule and hands over the action that rules have by default
anyway, the second and the third one fail.
-/
def someRefused : List Declaration :=
  [⟨.text "s", .list [.text "\"a  t", .text "u"], .function Action.identity⟩,
    ⟨.text "", .text "\"a", .absent⟩, ⟨.text "v", .text "\"a", .unfit .null⟩,
    ⟨.text "w", .text "", .absent⟩]

/--
What becomes of the grammar.
-/
def refused : Grammar where
  rules := ⟨[
    { name := "s", written := ["\"a  t", "u"], options := [["\"a", "t"], ["u"]],
      action := some Action.identity },
    { name := "t", written := ["\"b", " "], options := [["\"b"], []] },
    { name := "u" },
    { name := "w", written := [""], options := [[]] }]⟩

theorem create_snapshot_refused
    : create (.mapping mixedOptions) .absent .absent .absent = (.ok mixed, #[])
      ∧ (Declaration.attemptAll someRefused ⟨mixed, #[]⟩).session.grammar = refused
      ∧ ∃ g' notices', create (.mapping refused.rules.entries) .absent .absent .absent = (.ok g', notices')
        ∧ g'.rules.names = ["s", "t", "u", "w"]
        ∧ (Entry.first.run {} (.stream ⟨#["a", "b"], 0⟩) ⟨g', #[]⟩).1.toOption.map
            (Option.map Match.tokens) = some (some ["a", "b"]) := by
  have hmade : create (.mapping mixedOptions) .absent .absent .absent = (.ok mixed, #[]) := by
    with_unfolding_all rfl
  have hreached : (Declaration.attemptAll someRefused ⟨mixed, #[]⟩).session.grammar = refused := by
    with_unfolding_all rfl
  have hmatch : (Entry.first.run {} (.stream ⟨#["a", "b"], 0⟩) ⟨refused, #[]⟩).1.toOption.map
      (Option.map Match.tokens) = some (some ["a", "b"]) := by decide +kernel
  have hsnapshot := create_snapshot hmade someRefused
  rw [hreached] at hsnapshot
  refine ⟨hmade, hreached, ?_⟩
  have hcarries : ∀ rule ∈ refused.rules.toList, rule.CarriesDefault .absent := by
    simp [refused, Rule.CarriesDefault, Rule.withDefault, Rule.act]
  rcases hsnapshot hcarries with ⟨_, g', notices', hcreate, hnames, _, hruns⟩
  refine ⟨g', notices', hcreate, hnames, ?_⟩
  rw [hruns .first {} _ #[] #[] (.inl rfl)]
  exact hmatch

end Grammar
end TokenGrammar
