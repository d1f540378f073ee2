import TokenGrammar.Rule

/-!
This module contains sets of rules. Rules stand in the order in which their names were first declared;
a rule that is declared again takes the place of the one before.
-/

namespace TokenGrammar

/--
Rules in the order of their declaration.
-/
structure RuleSet where
  toList : List Rule := []

namespace RuleSet

/--
The rule with the given name.
-/
def find? (rules : RuleSet) (name : String) : Option Rule :=
  rules.toList.find? (·.name == name)

/--
The names of the rules.
-/
def names (rules : RuleSet) : List String :=
  rules.toList.map Rule.name

/--
The number of rules.
-/
def size (rules : RuleSet) : Nat := rules.toList.length

/--
Declare a rule, in the place of the rule with its name if there is one.
-/
def insert (rules : RuleSet) (rule : Rule) : RuleSet :=
  if rules.names.contains rule.name then
    ⟨rules.toList.map fun other => if other.name == rule.name then rule else other⟩
  else ⟨rules.toList ++ [rule]⟩

/--
The rule that a value names. Some values cannot be looked up at all.
-/
def lookup (rules : RuleSet) (name : Value) : Except Fault Rule :=
  match name with
  | .text text => match rules.find? text with
    | some rule => .ok rule
    | none => .error (.unknownRule name)
  | _ => match name.unhashable? with
    | some typeName => .error (.unhashable typeName)
    | none => .error (.showing name (.unknownRule name))

theorem mem_of_find? {rules : RuleSet} {name : String} {rule : Rule}
    (h : rules.find? name = some rule)
    : rule ∈ rules.toList :=
  List.mem_of_find?_eq_some h

theorem name_of_find? {rules : RuleSet} {name : String} {rule : Rule}
    (h : rules.find? name = some rule)
    : rule.name = name := by
  have := List.find?_some h
  simpa using this

theorem lookup_text (rules : RuleSet) (name : String)
    : rules.lookup (.text name)
        =
      match rules.find? name with
      | some rule => .ok rule
      | none => .error (.unknownRule (.text name)) := rfl

theorem lookup_eq_error {name : Value} (h : ∀ text, name ≠ .text text)
    : ∃ fault, ∀ rules : RuleSet, rules.lookup name = .error fault := by
  cases name with
  | text text => exact (h text rfl).elim
  | _ =>
    unfold lookup
    dsimp only
    split
    . exact ⟨_, fun _ => rfl⟩
    . exact ⟨_, fun _ => rfl⟩

theorem find?_of_lookup {rules : RuleSet} {name : Value} {rule : Rule}
    (h : rules.lookup name = .ok rule)
    : rules.find? rule.name = some rule := by
  by_cases htext : ∃ text, name = .text text
  . rcases htext with ⟨text, rfl⟩
    rw [lookup_text] at h
    split at h
    . next found hfound =>
      cases h
      rw [name_of_find? hfound]
      exact hfound
    . cases h
  . rcases lookup_eq_error (not_exists.mp htext) with ⟨fault, hfault⟩
    rw [hfault] at h
    cases h

theorem find?_replace (others : List Rule) (rule : Rule) (name : String)
    : (others.map fun other => if other.name == rule.name then rule else other).find? (·.name == name)
        =
      if rule.name = name then (others.find? (·.name == name)).map fun _ => rule
      else others.find? (·.name == name) := by
  induction others with
  | nil => simp
  | cons other others ih =>
    by_cases hname : rule.name = name
    . subst hname
      by_cases hother : other.name = rule.name
      . simp [hother]
      . simpa [hother] using ih
    . by_cases hother : other.name = rule.name
      . simpa [hother, hname] using ih
      . simp only [List.map_cons, List.find?_cons, ih]
        simp [hother, hname]

theorem find?_insert (rules : RuleSet) (rule : Rule) (name : String)
    : (rules.insert rule).find? name
        =
      if rule.name = name then some rule else rules.find? name := by
  unfold insert find?
  split
  . next hcontains =>
    have hmem : ∃ other ∈ rules.toList, other.name = rule.name := by
      simpa [names] using hcontains
    rw [find?_replace]
    split
    . next hname =>
      subst hname
      rcases hmem with ⟨other, hother, hname⟩
      have hfound : (rules.toList.find? (·.name == rule.name)).isSome := by
        rw [List.find?_isSome]
        exact ⟨other, hother, by simpa using hname⟩
      rcases Option.isSome_iff_exists.mp hfound with ⟨found, hfind⟩
      rw [hfind]
      rfl
    . rfl
  . next hcontains =>
    have hnone : rules.toList.find? (·.name == rule.name) = none := by
      simpa [names] using hcontains
    rw [List.find?_append]
    split
    . next hname =>
      subst hname
      rw [hnone]
      simp
    . next hname => simp [hname]

theorem insert_of_new {rules : RuleSet} {rule : Rule} (h : rules.names.contains rule.name = false)
    : rules.insert rule = ⟨rules.toList ++ [rule]⟩ := by
  unfold insert
  rw [h]
  rfl

theorem names_insert_of_mem {rules : RuleSet} {rule : Rule} (h : rule.name ∈ rules.names)
    : (rules.insert rule).names = rules.names := by
  unfold insert
  rw [if_pos (List.contains_iff_mem.mpr h)]
  unfold names
  rw [List.map_map, List.map_inj_left]
  intro other _
  by_cases hother : other.name = rule.name
  . simp [hother]
  . simp [hother]

theorem find?_map (rules : RuleSet) (f : Rule → Rule) (hname : ∀ rule, (f rule).name = rule.name)
    (name : String)
    : (⟨rules.toList.map f⟩ : RuleSet).find? name = (rules.find? name).map f := by
  have hsame : (fun rule : Rule => rule.name == name) ∘ f = fun rule => rule.name == name := by
    funext rule
    rw [Function.comp_apply, hname]
  unfold find?
  rw [List.find?_map, hsame]

theorem names_map (rules : RuleSet) (f : Rule → Rule) (hname : ∀ rule, (f rule).name = rule.name)
    : (⟨rules.toList.map f⟩ : RuleSet).names = rules.names := by
  unfold names
  rw [List.map_map, List.map_inj_left]
  intro rule _
  exact hname rule

/--
Whether a value names a rule.
-/
def contains (rules : RuleSet) (name : Value) : Except Fault Bool :=
  match name.unhashable? with
  | some typeName => .error (.unhashable typeName)
  | none => .ok (rules.lookup name).isOk

/--
The names of the rules with their options as they were written.
-/
def snapshot (rules : RuleSet) : List (String × List String) :=
  rules.toList.map fun rule => (rule.name, rule.written)

end RuleSet
end TokenGrammar
