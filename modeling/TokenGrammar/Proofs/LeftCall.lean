import Mathlib.Data.Finset.Card
import Mathlib.Logic.Relation
import TokenGrammar.RuleSet
import TokenGrammar.Element

/-!
This module contains left calls: the references of a rule that can be come to before a token is
consumed. Where they lead into no circle every rule has a rank, which falls from a rule to the ones
that it calls on the left.
-/

namespace TokenGrammar

/--
An element that fails where no token is left: a literal, or a pattern that does not match the empty
text. A malformed element counts as one, since nothing behind it is ever come to.
-/
def Element.Guards (element : String) : Prop :=
  match read element with
  | .ok (.literal _) => True
  | .ok (.pattern regex) => regex.matchesWhole "" = false
  | .ok (.reference _) => False
  | .error _ => True

theorem Element.not_guards_of_accepts {element : String} {terminal : Element}
    (hread : read element = .ok terminal) (haccepts : terminal.accepts none = true)
    : ¬ Guards element := by
  unfold Guards
  rw [hread]
  cases terminal with
  | literal text => cases haccepts
  | pattern regex =>
    show ¬ regex.matchesWhole "" = false
    rw [Bool.not_eq_false]
    exact haccepts
  | reference name => simp

theorem Element.not_guards_of_reference {element name : String}
    (hread : read element = .ok (.reference name))
    : ¬ Guards element := by
  unfold Guards
  rw [hread]
  simp

namespace RuleSet

/--
Some option of the rule refers to the target, with nothing before the reference that guards it.
-/
def LeftCalls (rules : RuleSet) (rule target : Rule) : Prop :=
  ∃ before element after name, before ++ element :: after ∈ rule.options
    ∧ (∀ other ∈ before, ¬ Element.Guards other)
    ∧ Element.read element = .ok (.reference name)
    ∧ rules.find? name = some target

/--
No rule comes back to itself by left calls.
-/
def Acyclic (rules : RuleSet) : Prop :=
  ∀ rule ∈ rules.toList, ¬ Relation.TransGen rules.LeftCalls rule rule

open Classical in
/--
The names of the rules that a rule gets to by left calls.
-/
noncomputable def leftNames (rules : RuleSet) (rule : Rule) : Finset String :=
  rules.names.toFinset.filter fun name =>
    ∃ target, rules.find? name = some target ∧ Relation.TransGen rules.LeftCalls rule target

/--
The number of the rules that a rule gets to by left calls.
-/
noncomputable def rank (rules : RuleSet) (rule : Rule) : Nat := (rules.leftNames rule).card

variable {rules : RuleSet} {rule target : Rule}

theorem mem_names (hfind : rules.find? rule.name = some rule) : rule.name ∈ rules.names := by
  unfold names
  exact List.mem_map_of_mem (mem_of_find? hfind)

theorem mem_leftNames {name : String}
    : name ∈ rules.leftNames rule
        ↔
      name ∈ rules.names
        ∧ ∃ target, rules.find? name = some target
          ∧ Relation.TransGen rules.LeftCalls rule target := by
  classical
  unfold leftNames
  rw [Finset.mem_filter, List.mem_toFinset]

theorem not_mem_leftNames (hacyclic : rules.Acyclic) (hfind : rules.find? rule.name = some rule)
    : rule.name ∉ rules.leftNames rule := by
  intro hmem
  rcases (mem_leftNames.mp hmem).2 with ⟨target, htarget, hcalls⟩
  rw [hfind] at htarget
  cases htarget
  exact hacyclic rule (mem_of_find? hfind) hcalls

theorem LeftCalls.find? (h : rules.LeftCalls rule target)
    : rules.find? target.name = some target := by
  rcases h with ⟨_, _, _, name, _, _, _, hfind⟩
  rw [name_of_find? hfind]
  exact hfind

theorem rank_lt_of_leftCalls (hacyclic : rules.Acyclic) (h : rules.LeftCalls rule target)
    : rules.rank target < rules.rank rule := by
  have hsubset : rules.leftNames target ⊆ rules.leftNames rule := by
    intro name hname
    rcases mem_leftNames.mp hname with ⟨hnames, other, hfind, hcalls⟩
    exact mem_leftNames.mpr ⟨hnames, other, hfind, .head h hcalls⟩
  have hmem : target.name ∈ rules.leftNames rule :=
    mem_leftNames.mpr ⟨mem_names h.find?, target, h.find?, .single h⟩
  apply Finset.card_lt_card
  rw [Finset.ssubset_iff_of_subset hsubset]
  exact ⟨target.name, hmem, not_mem_leftNames hacyclic h.find?⟩

theorem rank_lt_size (hacyclic : rules.Acyclic) (hfind : rules.find? rule.name = some rule)
    : rules.rank rule < rules.size := by
  have hsubset : rules.leftNames rule ⊆ rules.names.toFinset := by
    intro name hname
    rw [List.mem_toFinset]
    exact (mem_leftNames.mp hname).1
  have hcard : (rules.leftNames rule).card < rules.names.toFinset.card := by
    apply Finset.card_lt_card
    rw [Finset.ssubset_iff_of_subset hsubset]
    refine ⟨rule.name, ?_, not_mem_leftNames hacyclic hfind⟩
    rw [List.mem_toFinset]
    exact mem_names hfind
  have hsize : rules.names.toFinset.card ≤ rules.size := by
    have := List.toFinset_card_le rules.names
    unfold names at this
    rw [List.length_map] at this
    exact this
  unfold rank
  omega

end RuleSet
end TokenGrammar
