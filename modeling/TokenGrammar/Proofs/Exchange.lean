import TokenGrammar.Proofs.Lockstep

/-!
This module contains the exchange of neighbouring options that begin with different literals. At most one
of the two literals is the token at the cursor, and an option whose first literal is not that token is
passed over with nothing but lines of the trace. So either order of the two options comes to the same.
-/

namespace TokenGrammar

/--
What a journal notes besides the lines of the trace and the requests for nodes: notices and calls of
actions.
-/
def effects (journal : Array Event) : List Event :=
  journal.toList.filter fun
    | .traced _ | .asked _ => false
    | _ => true

/--
The journals note the same, lines of the trace and requests for nodes left aside.
-/
def SameEffects (journal journal' : Array Event) : Prop :=
  effects journal = effects journal'

theorem effects_push_traced (journal : Array Event) (line : TraceLine)
    : effects (journal.push (.traced line)) = effects journal := by
  simp [effects]

theorem effects_push_asked (journal : Array Event) (times : Nat)
    : effects (journal.push (.asked times)) = effects journal := by
  simp [effects]

theorem SameEffects.push {journal journal' : Array Event} (h : SameEffects journal journal')
    (event : Event)
    : SameEffects (journal.push event) (journal'.push event) := by
  unfold SameEffects effects at *
  rw [Array.toList_push, Array.toList_push, List.filter_append, List.filter_append, h]

/--
The items with the one at a place and the one behind it in each other's place.
-/
def exchange : Nat → List α → List α
  | 0, first :: second :: items => second :: first :: items
  | place + 1, item :: items => item :: exchange place items
  | _, items => items

/--
Two neighbouring options that begin with different literals may have changed places.
-/
inductive Exchanged : List (List String) → List (List String) → Prop where
  | refl (options) : Exchanged options options
  | cons {option options options'} (h : Exchanged options options')
      : Exchanged (option :: options) (option :: options')
  | swap {element element' elements elements' options text text'}
      (hread : Element.read element = .ok (.literal text))
      (hread' : Element.read element' = .ok (.literal text')) (htexts : text ≠ text')
      : Exchanged ((element :: elements) :: (element' :: elements') :: options)
          ((element' :: elements') :: (element :: elements) :: options)

theorem exchanged_exchange {options : List (List String)} {place : Nat}
    {element element' text text' : String} {elements elements' : List String}
    (hoption : options[place]? = some (element :: elements))
    (hoption' : options[place + 1]? = some (element' :: elements'))
    (hread : Element.read element = .ok (.literal text))
    (hread' : Element.read element' = .ok (.literal text')) (htexts : text ≠ text')
    : Exchanged options (exchange place options) := by
  induction options generalizing place with
  | nil => cases hoption
  | cons option options ih =>
    cases place with
    | succ place => exact .cons (ih hoption hoption')
    | zero =>
      cases options with
      | nil => cases hoption'
      | cons option' options =>
        cases hoption
        cases hoption'
        exact .swap hread hread' htexts

/--
The rules differ at most in the order of two options that begin with different literals.
-/
structure Rule.Exchanges (rule rule' : Rule) : Prop where
  name : rule'.name = rule.name
  action : rule'.action = rule.action
  options : Exchanged rule.options rule'.options

theorem Rule.Exchanges.refl (rule : Rule) : rule.Exchanges rule := ⟨rfl, rfl, .refl _⟩

/--
The rules of the grammars differ at most in the order of options that begin with different literals.
-/
structure Grammar.Exchanges (g g' : Grammar) : Prop where
  factory : g'.factory = g.factory
  splitter : g'.splitter = g.splitter
  names : g'.rules.names = g.rules.names
  rules : ∀ name, Option.Rel Rule.Exchanges (g.rules.find? name) (g'.rules.find? name)

theorem Grammar.Exchanges.sealed {g g' : Grammar} (h : g.Exchanges g')
    : g.sealed.Exchanges g'.sealed :=
  ⟨h.factory, h.splitter, h.names, h.rules⟩

namespace Run

variable {g g' : Grammar} {α β : Type} {answers : α → β → Prop}

/--
The run adds some lines to the trace, and goes on as the other one.
-/
def Precedes (g : Grammar) (run later : Run α) : Prop :=
  ∀ journal, ∃ after, SameEffects journal after ∧ run ⟨g, journal⟩ = later ⟨g, after⟩

theorem Parallels.precede_left {run later : Run α} {run' : Run β} (hrun : Precedes g run later)
    (h : Parallels g g' SameEffects answers later run')
    : Parallels g g' SameEffects answers run run' := by
  intro journal journal' hjournals
  rcases hrun journal with ⟨after, hafter, heq⟩
  rw [heq]
  exact h after journal' (hafter.symm.trans hjournals)

theorem Parallels.precede_right {run : Run α} {run' later' : Run β}
    (hrun : Precedes g' run' later') (h : Parallels g g' SameEffects answers run later')
    : Parallels g g' SameEffects answers run run' := by
  intro journal journal' hjournals
  rcases hrun journal' with ⟨after, hafter, heq⟩
  rw [heq]
  exact h journal after (hjournals.trans hafter)

theorem exists_trace (tracing : Bool) (line : TraceLine) (journal : Array Event)
    : ∃ after, SameEffects journal after
        ∧ trace tracing line ⟨g, journal⟩ = (.ok (), ⟨g, after⟩) := by
  cases tracing with
  | false => exact ⟨journal, rfl, rfl⟩
  | true => exact ⟨_, (effects_push_traced journal line).symm, rfl⟩

end Run

namespace Matcher

variable {g g' : Grammar} {tracing : Bool} {matcher matcher' : Matcher} {rule rule' : Rule}
  {stream : TokenStream} {element : String} {elements : List String}

/--
What is looked at before the first element of an option is compared: there has to be a new node, and the
token at the cursor.
-/
def opening (g : Grammar) (stream : TokenStream) : Except Fault (Option String) := do
  let _ ← g.factory.newNode
  stream.peek 0

theorem opening_eq_ok {token : Option String} (h : opening g stream = .ok token)
    : (∃ node, g.factory.newNode = .ok node) ∧ stream.peek 0 = .ok token := by
  unfold opening at h
  cases hnode : g.factory.newNode with
  | error fault =>
    rw [hnode] at h
    cases h
  | ok node =>
    rw [hnode] at h
    exact ⟨⟨node, rfl⟩, h⟩

theorem matchOptions_of_opening_error {fault : Fault} (huniform : g.factory.Uniform)
    (h : opening g stream = .error fault) (options : List (List String)) (journal : Array Event)
    : ∃ after, SameEffects journal after
        ∧ matchOptions tracing matcher rule stream ((element :: elements) :: options) ⟨g, journal⟩
          = (.error fault, ⟨g, after⟩) := by
  refine ⟨_, (effects_push_asked journal (Event.asks journal + 1)).symm, ?_⟩
  unfold opening at h
  rw [matchOptions, Run.bind_apply, Run.newNode_apply, huniform.newNode_eq (Event.asks journal) 0]
  cases hnode : g.factory.newNode with
  | error other =>
    rw [hnode] at h
    cases h
    rfl
  | ok node =>
    rw [hnode] at h
    have hpeek : stream.peek 0 = .error fault := h
    have helements (journal : Array Event)
        : matchElements tracing matcher rule ⟨stream, [], node⟩ (element :: elements) ⟨g, journal⟩
          = (.error fault, ⟨g, journal⟩) := by
      unfold matchElements matchElement
      dsimp only
      rw [hpeek]
      rfl
    dsimp only
    rw [Run.bind_apply, helements]

theorem precedes_of_refused {token : Option String} {terminal : Element}
    (huniform : g.factory.Uniform) (h : opening g stream = .ok token)
    (hread : Element.read element = .ok terminal) (hterminal : ∀ name, terminal ≠ .reference name)
    (hrefused : terminal.accepts token = false) (options : List (List String))
    : Run.Precedes g
        (matchOptions tracing matcher rule stream ((element :: elements) :: options))
        (matchOptions tracing matcher rule stream options) := by
  intro journal
  rcases opening_eq_ok h with ⟨⟨node, hnode⟩, hpeek⟩
  rcases Run.exists_trace tracing (.tried rule.name element token)
    (journal.push (.asked (Event.asks journal + 1))) with ⟨after, hafter, htrace⟩
  refine ⟨after, (effects_push_asked _ _).symm.trans hafter, ?_⟩
  have helements : matchElements tracing matcher rule ⟨stream, [], node⟩ (element :: elements)
      ⟨g, journal.push (.asked (Event.asks journal + 1))⟩ = (.ok none, ⟨g, after⟩) := by
    have hattempt : (⟨stream, [], node⟩ : Attempt).stream.peek 0 = .ok token := hpeek
    unfold matchElements
    rw [matchElement_terminal hattempt hread hterminal, hrefused, Run.bind_apply, Run.bind_apply, htrace]
    rfl
  rw [matchOptions, Run.bind_apply, Run.newNode_apply, huniform.newNode_eq (Event.asks journal) 0, hnode]
  dsimp only
  rw [Run.bind_apply, helements]

theorem agreement_effects (hfactory : g'.factory = g.factory) (huniform : g.factory.Uniform)
    : Agreement g g' tracing tracing SameEffects Eq Eq := by
  apply agreement_of_uniform hfactory huniform
  . intro line journal journal' h
    exact h.push (.traced line)
  . intro times times' journal journal' h
    unfold SameEffects
    rw [effects_push_asked, effects_push_asked]
    exact h

section

variable (hname : rule'.name = rule.name) (hfactory : g'.factory = g.factory)
  (huniform : g.factory.Uniform)
  (htargets : ∀ name, RefersAlike g g' SameEffects Eq matcher matcher' name)
  (hacts : ∀ node node', node = node' →
    Run.Parallels g g' SameEffects Eq (Run.act matcher rule node) (Run.act matcher' rule' node'))

include hname hfactory huniform htargets hacts

theorem matchOptions_effects (options : List (List String))
    : Run.Parallels g g' SameEffects (Option.Rel (Match.Related Eq))
        (matchOptions tracing matcher rule stream options)
        (matchOptions tracing matcher' rule' stream options) :=
  matchOptions_parallels (agreement_effects hfactory huniform) hname (fun _ _ _ _ name _ => htargets name)
    hacts

theorem matchOptions_cons_effects (option : List String) {options options' : List (List String)}
    (hrest : Run.Parallels g g' SameEffects (Option.Rel (Match.Related Eq))
      (matchOptions tracing matcher rule stream options)
      (matchOptions tracing matcher' rule' stream options'))
    : Run.Parallels g g' SameEffects (Option.Rel (Match.Related Eq))
        (matchOptions tracing matcher rule stream (option :: options))
        (matchOptions tracing matcher' rule' stream (option :: options')) :=
  matchOptions_cons_parallels (agreement_effects hfactory huniform) hname (fun _ _ name _ => htargets name)
    hacts fun _ => hrest

/--
One of two different literals is not the token at the cursor. The options that begin with them can be
taken in either order, as the other one is passed over.
-/
theorem matchOptions_swap {element' text text' : String} {elements' : List String}
    (options : List (List String)) (hread : Element.read element = .ok (.literal text))
    (hread' : Element.read element' = .ok (.literal text')) (htexts : text ≠ text')
    : Run.Parallels g g' SameEffects (Option.Rel (Match.Related Eq))
        (matchOptions tracing matcher rule stream
          ((element :: elements) :: (element' :: elements') :: options))
        (matchOptions tracing matcher' rule' stream
          ((element' :: elements') :: (element :: elements) :: options)) := by
  have hrest : Run.Parallels g g' SameEffects (Option.Rel (Match.Related Eq))
      (matchOptions tracing matcher rule stream options)
      (matchOptions tracing matcher' rule' stream options) :=
    matchOptions_effects hname hfactory huniform htargets hacts options
  have huniform' : g'.factory.Uniform := by rwa [hfactory]
  have hopening : opening g' stream = opening g stream := by
    unfold opening
    rw [hfactory]
  cases hlook : opening g stream with
  | error fault =>
    intro journal journal' hjournals
    rcases matchOptions_of_opening_error huniform hlook _ journal with ⟨after, hafter, heq⟩
    rcases matchOptions_of_opening_error huniform' (hopening.trans hlook) _ journal'
      with ⟨after', hafter', heq'⟩
    rw [heq, heq']
    exact ⟨rfl, rfl, rfl, hafter.symm.trans (hjournals.trans hafter')⟩
  | ok token =>
    have hlook' := hopening.trans hlook
    by_cases htoken : token = some text
    . -- the first literal is the token, so the second option is passed over
      have hrefused : (Element.literal text').accepts token = false := by
        simpa [Element.accepts, htoken] using htexts
      apply Run.Parallels.precede_right (precedes_of_refused huniform' hlook' hread' nofun hrefused _)
      apply matchOptions_cons_effects hname hfactory huniform htargets hacts
      exact Run.Parallels.precede_left (precedes_of_refused huniform hlook hread' nofun hrefused _) hrest
    . have hrefused : (Element.literal text).accepts token = false := by
        simpa [Element.accepts] using htoken
      apply Run.Parallels.precede_left (precedes_of_refused huniform hlook hread nofun hrefused _)
      apply matchOptions_cons_effects hname hfactory huniform htargets hacts
      exact Run.Parallels.precede_right (precedes_of_refused huniform' hlook' hread nofun hrefused _) hrest

theorem matchOptions_exchanged {options options' : List (List String)}
    (h : Exchanged options options')
    : Run.Parallels g g' SameEffects (Option.Rel (Match.Related Eq))
        (matchOptions tracing matcher rule stream options)
        (matchOptions tracing matcher' rule' stream options') := by
  induction h with
  | refl options => exact matchOptions_effects hname hfactory huniform htargets hacts options
  | cons h ih => exact matchOptions_cons_effects hname hfactory huniform htargets hacts _ ih
  | swap hread hread' htexts =>
    exact matchOptions_swap hname hfactory huniform htargets hacts _ hread hread' htexts

end

-- an action may start runs of its own, so the induction is on the depth, for all grammars and rules
theorem ofDepth_exchanged (tracing : Bool) (depth : Nat) (hg : g.running ≠ 0) (hg' : g'.running ≠ 0)
    (h : g.Exchanges g') (huniform : g.factory.Uniform) (hrule : rule.Exchanges rule')
    (stream : TokenStream)
    : Run.Parallels g g' SameEffects (Option.Rel (Match.Related Eq))
        (ofDepth tracing depth rule stream) (ofDepth tracing depth rule' stream) := by
  induction depth generalizing g g' rule rule' stream with
  | zero => exact Run.Parallels.throw .exhausted
  | succ depth ih =>
    have htargets {g g' : Grammar} (hg : g.running ≠ 0) (hg' : g'.running ≠ 0) (h : g.Exchanges g')
        (huniform : g.factory.Uniform) (name : String)
        : RefersAlike g g' SameEffects Eq (ofDepth tracing depth) (ofDepth tracing depth) name :=
      refersAlike_of_rel (h.rules name) fun _ _ _ _ htarget stream =>
        ih hg hg' h huniform htarget stream
    have hacts (node node' : Node) (hnode : node = node')
        : Run.Parallels g g' SameEffects Eq (Run.act (ofDepth tracing depth) rule node)
            (Run.act (ofDepth tracing depth) rule' node') := by
      cases hnode
      have hnested := htargets g.sealed_running_ne_zero g'.sealed_running_ne_zero h.sealed huniform
      exact Run.act_parallels hg hg' h.splitter h.names hnested (fun event _ _ h => h.push event)
        hrule.name hrule.action node
    exact matchOptions_exchanged hrule.name h.factory huniform (htargets hg hg' h huniform) hacts
      hrule.options

end Matcher

theorem Grammar.Exchanges.run {g g' : Grammar} (h : g.Exchanges g')
    (huniform : g.factory.Uniform) (entry : Grammar.Entry)
    (settings : Settings) (source : Source)
    : Run.Parallels g g' SameEffects Eq (entry.run settings source)
        (entry.run settings source) := by
  have hruns : Run.Parallels g g' SameEffects (Option.Rel (Match.Related Eq))
      (entry.run settings source) (entry.run settings source) := by
    apply Entry.run_parallels h.splitter h.names h.rules
    . intro rule rule' hrule
      exact hrule.name
    . intro rule rule' hrule stream
      exact Matcher.ofDepth_exchanged settings.tracing _ g.sealed_running_ne_zero
        g'.sealed_running_ne_zero h.sealed huniform hrule stream
  exact hruns.mono fun _ _ => Match.eq_of_related

/--
The rule with the option at a place and the one behind it in each other's place.
-/
def Rule.exchanged (rule : Rule) (place : Nat) : Rule :=
  { rule with written := exchange place rule.written, options := exchange place rule.options }

namespace Grammar

theorem exchanges_exchanged {g : Grammar} {rule : Rule} {place : Nat}
    {element element' text text' : String} {elements elements' : List String}
    (hfind : g.rules.find? rule.name = some rule)
    (hoption : rule.options[place]? = some (element :: elements))
    (hoption' : rule.options[place + 1]? = some (element' :: elements'))
    (hread : Element.read element = .ok (.literal text))
    (hread' : Element.read element' = .ok (.literal text')) (htexts : text ≠ text')
    : g.Exchanges { g with rules := g.rules.insert (rule.exchanged place) } where
  factory := rfl
  splitter := rfl
  names := RuleSet.names_insert_of_find? hfind rfl
  rules := by
    have hexchanges : rule.Exchanges (rule.exchanged place) :=
      ⟨rfl, rfl, exchanged_exchange hoption hoption' hread hread' htexts⟩
    exact RuleSet.rel_find?_insert Rule.Exchanges.refl hfind rfl hexchanges

namespace Entry

/--
A rule for terms with signs. It calls itself inside of both of its first options.
-/
def signedRule : Rule where
  name := "signed"
  options := [["\"+", "signed"], ["\"-", "signed"], ["/[0-9]+/"]]

/--
The grammar of that rule.
-/
def signed : Grammar where
  rules := ⟨[signedRule]⟩

/--
A rule with two options that begin with different literals.
-/
def pairRule : Rule where
  name := "r"
  options := [["\"a", "\"x"], ["\"b", "\"y"]]

/--
Where the factory numbers its nodes, the node of a match tells which of the options was tried first.
-/
theorem run_exchanged_numbering
    : let answer rule := (first.run {} (.stream ⟨#["b", "y"], 0⟩)
        ⟨{ factory := .numbering, rules := ⟨[rule]⟩ }, #[]⟩).1
      (answer pairRule).toOption.map (Option.map fun found => found.result.label?)
          = some (some (some "1"))
        ∧ (answer (pairRule.exchanged 0)).toOption.map (Option.map fun found => found.result.label?)
          = some (some (some "0")) := by
  decide +kernel

end Entry
end Grammar
end TokenGrammar
