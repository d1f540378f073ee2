import Mathlib.Data.List.TakeWhile
import TokenGrammar.Proofs.History

/-!
This module contains rules that are changed after they were made. The options and the action of a rule
are assigned anew, with whatever values, and an assignment may fail on the way: what it has changed until
then stays changed. The options are kept twice, as they were written and cut into words. The two never
get out of step, an assignment of something unfit leaves no trace, and a notice is given just where
options are out of reach. The notice comes last. Who has it raised instead of given finds the options
replaced.
-/

namespace TokenGrammar

/--
A text that holds nothing but blanks.
-/
def Text.IsBlankText (text : String) : Prop := ∀ c ∈ text.toList, Text.isBlank c = true

theorem Text.words_eq_nil_iff {text : String} : words text = [] ↔ IsBlankText text := by
  unfold words IsBlankText
  rw [List.map_eq_nil_iff, wordsOf, ← List.dropWhile_eq_nil_iff]
  split
  . next heq => simp [heq]
  . next heq => simp [heq]

namespace Rule

/--
A rule in the course of its assignments, with the notices that have been given so far.
-/
structure Revision where
  rule : Rule
  notices : List Warning := []

/--
What an assignment fails with.
-/
inductive Obstacle where
  /-- What is assigned is unfit. -/
  | fault (fault : Fault)
  /-- A notice that is raised instead of being given. -/
  | notice (warning : Warning)

/--
Something done to a rule. It may fail, and what was changed before stays changed.
-/
abbrev Editing := ExceptT Obstacle (StateM Revision)

namespace Editing

/--
Change the rule.
-/
def edit (f : Rule → Rule) : Editing Unit :=
  modify fun revision => { revision with rule := f revision.rule }

/--
Give a notice if there is one, or fail with it if it is to be raised.
-/
def notify (raised : Warning → Bool) : Option Warning → Editing Unit
  | none => pure ()
  | some warning =>
    if raised warning then throw (.notice warning)
    else modify fun revision => { revision with notices := revision.notices ++ [warning] }

/--
Assign the options. They are checked first, then put down as they are written, and then cut into words.
-/
def assignOptions (raised : Warning → Bool) (given : Value) : Editing Unit := do
  match readOptions (← get).rule.name given with
  | .error fault => throw (.fault fault)
  | .ok written =>
    edit fun rule => { rule with written := written }
    edit fun rule => { rule with options := rule.written.map Text.words }
    let rule := (← get).rule
    notify raised (shadowing? rule.name rule.options)

/--
Assign the action.
-/
def assignAction (given : Callable Action) : Editing Unit := do
  match given with
  | .absent => edit fun rule => { rule with action := none }
  | .function action => edit fun rule => { rule with action := some action }
  | .unfit _ => throw (.fault (.badAction (← get).rule.name))

theorem assignOptions_apply (raised : Warning → Bool) (given : Value) (revision : Revision)
    : assignOptions raised given revision
        =
      match revision.rule.withOptions given with
      | .ok (rule, warning) => notify raised warning { revision with rule := rule }
      | .error fault => (.error (.fault fault), revision) := by
  have hchecked : assignOptions raised given revision
      = (match readOptions revision.rule.name given with
        | .error fault => throw (.fault fault)
        | .ok written => do
          edit fun rule => { rule with written := written }
          edit fun rule => { rule with options := rule.written.map Text.words }
          let rule := (← get).rule
          notify raised (shadowing? rule.name rule.options) : Editing Unit) revision := rfl
  rw [hchecked]
  unfold withOptions
  cases readOptions revision.rule.name given with
  | error fault => rfl
  | ok written => rfl

theorem notify_cases (raised : Warning → Bool) (warning : Option Warning) (revision : Revision)
    : (∀ notice ∈ warning, raised notice = false)
        ∧ notify raised warning revision
          = (.ok (), { revision with notices := revision.notices ++ warning.toList })
      ∨ ∃ notice, warning = some notice ∧ raised notice = true
        ∧ notify raised warning revision = (.error (.notice notice), revision) := by
  cases warning with
  | none =>
    left
    refine ⟨nofun, ?_⟩
    rw [Option.toList_none, List.append_nil]
    rfl
  | some notice =>
    cases hraised : raised notice with
    | false =>
      left
      refine ⟨?_, ?_⟩
      . intro _ hnotice
        cases hnotice
        exact hraised
      . rw [notify, hraised]
        rfl
    | true =>
      right
      refine ⟨notice, rfl, hraised, ?_⟩
      rw [notify, hraised]
      rfl

theorem assignAction_apply (given : Callable Action) (revision : Revision)
    : assignAction given revision
        =
      match revision.rule.withAction given with
      | .ok rule => (.ok (), { revision with rule := rule })
      | .error fault => (.error (.fault fault), revision) := by
  cases given with
  | _ => rfl

end Editing

/--
What a rule is assigned.
-/
inductive Assignment where
  | options (given : Value)
  | action (given : Callable Action)

/--
Carry out an assignment, where some notices are raised instead of being given.
-/
def Assignment.carryOut (raised : Warning → Bool) : Assignment → Editing Unit
  | .options given => Editing.assignOptions raised given
  | .action given => Editing.assignAction given

/--
Carry out assignments one after another, whatever becomes of each of them. Which notices are raised may
change between them.
-/
def assignAll : List ((Warning → Bool) × Assignment) → Revision → Revision
  | [], revision => revision
  | (raised, assignment) :: assignments, revision =>
    assignAll assignments (assignment.carryOut raised revision).2

/--
The options are those that are written, each one cut into its words.
-/
def Consistent (rule : Rule) : Prop := rule.options = rule.written.map Text.words

/--
The notices that the options of a rule call for: a single one where an option is blank that is not the
last one. It tells the place of the first of these options, and how many options come behind it.
-/
inductive CallsFor (rule : Rule) : List Warning → Prop where
  | first {index : Nat} {option : String} (hoption : rule.written[index]? = some option)
    (hlast : index + 1 < rule.written.length) (hblank : Text.IsBlankText option)
    (hfirst : ∀ earlier < index, ∀ other, rule.written[earlier]? = some other →
      ¬ Text.IsBlankText other)
    : CallsFor rule [⟨rule.name, index, rule.written.length - index - 1⟩]
  | none (h : ∀ index option, rule.written[index]? = some option → index + 1 < rule.written.length →
      ¬ Text.IsBlankText option)
    : CallsFor rule []

variable {rule : Rule}

theorem getElem?_dropLast_options (h : rule.Consistent) {index : Nat} {option : String}
    (hoption : rule.written[index]? = some option) (hlast : index + 1 < rule.written.length)
    : rule.options.dropLast[index]? = some (Text.words option) := by
  rw [List.getElem?_dropLast, if_pos, h, List.getElem?_map, hoption]
  . rfl
  . rw [h, List.length_map]
    omega

theorem callsFor_shadowing (h : rule.Consistent)
    : rule.CallsFor (shadowing? rule.name rule.options).toList := by
  have hlength : rule.options.length = rule.written.length := by rw [h, List.length_map]
  unfold shadowing?
  cases hfind : rule.options.dropLast.findIdx? List.isEmpty with
  | none =>
    apply CallsFor.none
    intro index option hoption hlast hblank
    have hmem := List.mem_of_getElem? (getElem?_dropLast_options h hoption hlast)
    have hfilled := List.findIdx?_eq_none_iff.mp hfind _ hmem
    rw [Text.words_eq_nil_iff.mpr hblank] at hfilled
    cases hfilled
  | some index =>
    rcases List.findIdx?_eq_some_iff_getElem.mp hfind with ⟨hindex, hempty, hfirst⟩
    have hlast : index + 1 < rule.written.length := by
      rw [List.length_dropLast] at hindex
      omega
    have hoption : rule.written[index]? = some rule.written[index] := List.getElem?_eq_getElem _
    rw [Option.map_some, hlength]
    refine CallsFor.first hoption hlast ?_ ?_
    . have hplace := getElem?_dropLast_options h hoption hlast
      rw [List.getElem?_eq_getElem hindex] at hplace
      injection hplace with hplace
      rw [hplace] at hempty
      exact Text.words_eq_nil_iff.mp (List.isEmpty_iff.mp hempty)
    . intro earlier hearlier other hother hblank
      have hplace := getElem?_dropLast_options h hother (by omega)
      rw [List.getElem?_eq_getElem (by omega), Text.words_eq_nil_iff.mpr hblank] at hplace
      injection hplace with hplace
      apply hfirst earlier hearlier
      rw [hplace]
      rfl

theorem hasEmptyOption_iff : rule.hasEmptyOption = true ↔ [] ∈ rule.options := by
  unfold hasEmptyOption
  rw [List.any_eq_true]
  constructor
  . rintro ⟨option, hoption, hempty⟩
    rw [← List.isEmpty_iff.mp hempty]
    exact hoption
  . intro hmem
    exact ⟨[], hmem, rfl⟩

namespace Assignment

variable {revision : Revision}

/--
An assignment of options fails without a change if the value writes none. Else they are what the rule
has then, and the assignment succeeds unless the notice that they call for is raised.
-/
theorem options_cases (raised : Warning → Bool) (given : Value) (revision : Revision)
    : (∃ written notices, given.Spells written
        ∧ CallsFor { revision.rule with written := written, options := written.map Text.words } notices
        ∧ (∀ notice ∈ notices, raised notice = false)
        ∧ (options given).carryOut raised revision
          = (.ok (), ⟨{ revision.rule with written := written, options := written.map Text.words },
              revision.notices ++ notices⟩))
      ∨ (∃ written notice, given.Spells written
        ∧ CallsFor { revision.rule with written := written, options := written.map Text.words } [notice]
        ∧ raised notice = true
        ∧ (options given).carryOut raised revision
          = (.error (.notice notice),
              ⟨{ revision.rule with written := written, options := written.map Text.words },
                revision.notices⟩))
      ∨ ∃ fault, (∀ written, ¬ given.Spells written)
        ∧ (options given).carryOut raised revision = (.error (.fault fault), revision) := by
  simp only [carryOut, Editing.assignOptions_apply, withOptions]
  cases hread : readOptions revision.rule.name given with
  | ok written =>
    have hspells := readOptions_eq_ok_iff.mp hread
    have hcalls : CallsFor
        { revision.rule with written := written, options := written.map Text.words }
        (shadowing? revision.rule.name (written.map Text.words)).toList :=
      callsFor_shadowing rfl
    rcases Editing.notify_cases raised (shadowing? revision.rule.name (written.map Text.words))
        ⟨{ revision.rule with written := written, options := written.map Text.words },
          revision.notices⟩ with
      ⟨hquiet, hgiven⟩ | ⟨notice, hnotice, hraised, hfailed⟩
    . left
      refine ⟨written, _, hspells, hcalls, ?_, hgiven⟩
      intro notice hmem
      exact hquiet notice (Option.mem_toList.mp hmem)
    . right
      left
      rw [hnotice] at hcalls
      exact ⟨written, notice, hspells, hcalls, hraised, hfailed⟩
  | error fault =>
    right
    right
    refine ⟨fault, ?_, rfl⟩
    intro written hspells
    rw [readOptions_eq_ok_iff.mpr hspells] at hread
    cases hread

/--
An assignment of an action succeeds unless what is given cannot be called. The lack of an action is
something that can be assigned.
-/
theorem action_cases (raised : Warning → Bool) (given : Callable Action) (revision : Revision)
    : (∃ held : Option Action, given = held.elim .absent .function
        ∧ (action given).carryOut raised revision
          = (.ok (), { revision with rule := { revision.rule with action := held } }))
      ∨ ∃ value fault, given = .unfit value
        ∧ (action given).carryOut raised revision = (.error (.fault fault), revision) := by
  simp only [carryOut, Editing.assignAction_apply, withAction]
  cases given with
  | absent =>
    left
    exact ⟨none, rfl, rfl⟩
  | function f =>
    left
    exact ⟨some f, rfl, rfl⟩
  | unfit value =>
    right
    exact ⟨value, _, rfl, rfl⟩

theorem carryOut_consistent (raised : Warning → Bool) (assignment : Assignment)
    (h : revision.rule.Consistent)
    : (assignment.carryOut raised revision).2.rule.name = revision.rule.name
        ∧ (assignment.carryOut raised revision).2.rule.Consistent := by
  cases assignment with
  | options given =>
    rcases options_cases raised given revision with
      ⟨_, _, _, _, _, hdone⟩ | ⟨_, _, _, _, _, hraised⟩ | ⟨_, _, hfailed⟩
    . rw [hdone]
      exact ⟨rfl, rfl⟩
    . rw [hraised]
      exact ⟨rfl, rfl⟩
    . rw [hfailed]
      exact ⟨rfl, h⟩
  | action given =>
    rcases action_cases raised given revision with ⟨held, _, hdone⟩ | ⟨value, fault, _, hfailed⟩
    . rw [hdone]
      exact ⟨rfl, h⟩
    . rw [hfailed]
      exact ⟨rfl, h⟩

end Assignment

theorem assignAll_consistent (assignments : List ((Warning → Bool) × Assignment))
    {revision : Revision} (h : revision.rule.Consistent)
    : (assignAll assignments revision).rule.name = revision.rule.name
        ∧ (assignAll assignments revision).rule.Consistent := by
  induction assignments generalizing revision with
  | nil => exact ⟨rfl, h⟩
  | cons entry assignments ih =>
    rcases entry with ⟨raised, assignment⟩
    rcases assignment.carryOut_consistent raised h with ⟨hname, hconsistent⟩
    rw [← hname]
    exact ih hconsistent

theorem withAction_eq_ok {rule' : Rule} {action : Callable Action}
    (h : rule.withAction action = .ok rule')
    : ∃ held, rule' = { rule with action := held } := by
  cases action with
  | unfit value => cases h
  | _ =>
    cases h
    exact ⟨_, rfl⟩

theorem consistent_of_make {name options : Value} {action : Callable Action}
    {warning : Option Warning} (h : make name options action = (warning, .ok rule))
    : rule.Consistent ∧ warning = shadowing? rule.name rule.options := by
  unfold make at h
  cases hname : readName name with
  | error fault =>
    rw [hname] at h
    cases h
  | ok name =>
    simp only [hname, withOptions] at h
    cases hread : readOptions name options with
    | error fault =>
      rw [hread] at h
      cases h
    | ok written =>
      rw [hread] at h
      injection h with hwarning haction
      rcases withAction_eq_ok haction with ⟨held, rfl⟩
      exact ⟨rfl, hwarning.symm⟩

/--
A rule whose first option is blank.
-/
def blankFirst : Rule where
  name := "r"
  written := ["", "a b"]
  options := [[], ["a", "b"]]

/--
Assignments to the rule, all but one where notices are given. The second one and the third one fail,
the fourth one has two blank options, and the notice about the last one is raised.
-/
def someFailing : List ((Warning → Bool) × Assignment) :=
  [(fun _ => false, .options (.text "a \tb")),
    (fun _ => false, .options (.list [.text "c", .null])),
    (fun _ => false, .action (.unfit .null)),
    (fun _ => false, .options (.tuple [.text "a", .text " \t", .text "", .text "b"])),
    (fun _ => true, .options (.list [.text " ", .text "c d"]))]

end Rule
end TokenGrammar
