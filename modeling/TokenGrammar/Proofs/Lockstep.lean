import Mathlib.Data.Option.Defs
import TokenGrammar.Proofs.Parallel

/-!
This module contains the matcher of two runs side by side. It is followed once and for all: where the
rules that are referred to are matched alike, so are elements, sequences of elements and options. The
two runs may even have different streams, as long as these show the same tokens.
-/

namespace TokenGrammar

/--
Streams that go together show the same token, and they go together again behind it.
-/
structure TokenStream.Lookalike (places : TokenStream → TokenStream → Prop) : Prop where
  peek : ∀ {stream stream'}, places stream stream' → stream.peek 0 = stream'.peek 0
  next : ∀ {stream stream'}, places stream stream' →
    Run.Corresponds (fun taken taken' => places taken.2 taken'.2) stream.next stream'.next

/--
Streams that go together do so again when their cursors have been moved by the same number of tokens.
-/
def TokenStream.Movable (places : TokenStream → TokenStream → Prop) : Prop :=
  ∀ {stream stream'} (count : Nat), places stream stream' →
    places (stream.move count) (stream'.move count)

/--
Streams that go together show the same token, and they go together again when their cursors have been
moved alike.
-/
structure TokenStream.Bisimulation (places : TokenStream → TokenStream → Prop) : Prop
    extends Lookalike places where
  move : Movable places

theorem TokenStream.bisimulation_eq : Bisimulation Eq where
  peek := by
    rintro stream _ rfl
    rfl
  next := by
    rintro stream _ rfl
    exact .refl fun _ _ => rfl
  move := by
    rintro stream _ count rfl
    rfl

/--
The matches consumed the same tokens, and their results are related.
-/
structure Match.Related (values : Value → Value → Prop) (found found' : Match) : Prop where
  tokens : found.tokens = found'.tokens
  result : values found.result found'.result

/--
Nothing is asked of two journals.
-/
def Run.Unrelated (_ _ : Array Event) : Prop := True

/--
The factory whose nodes tell by their labels how many there were before.
-/
def NodeFactory.numbering : NodeFactory :=
  ⟨fun before => .ok (.node ⟨.labelled (toString before), []⟩)⟩

/--
The label of a labelled node.
-/
def Value.label? : Value → Option String
  | .node kind _ => some kind
  | _ => none

namespace Matcher

/--
The attempts are at the same place with the same tokens, and their nodes are related.
-/
structure Attempt.Related (nodes : Node → Node → Prop) (attempt attempt' : Attempt) : Prop where
  stream : attempt.stream = attempt'.stream
  tokens : attempt.tokens = attempt'.tokens
  node : nodes attempt.node attempt'.node

/--
The attempts are at places that go together with the same tokens, and their nodes are related.
-/
structure Attempt.Alike (places : TokenStream → TokenStream → Prop) (nodes : Node → Node → Prop)
    (attempt attempt' : Attempt) : Prop where
  place : places attempt.stream attempt'.stream
  tokens : attempt.tokens = attempt'.tokens
  node : nodes attempt.node attempt'.node

/--
What matching needs besides the rules goes together for two grammars: lines of the trace and new nodes
come in parallel, and related nodes take the same token and related results alike or refuse them alike.
-/
structure Agreement (g g' : Grammar) (tracing tracing' : Bool)
    (journals : Array Event → Array Event → Prop) (values : Value → Value → Prop)
    (nodes : Node → Node → Prop) : Prop where
  text : ∀ text, values (.text text) (.text text)
  add : ∀ {node node' value value'}, nodes node node' → values value value' →
    Run.Corresponds nodes (node.add value) (node'.add value')
  newNode : Run.Parallels g g' journals nodes Run.newNode Run.newNode
  trace : ∀ line, Run.Parallels g g' journals (fun _ _ => True) (Run.trace tracing line)
    (Run.trace tracing' line)

/--
A rule that is referred to by the name is matched in parallel in the two grammars, or there is none in
both.
-/
def RefersAlike (g g' : Grammar) (journals : Array Event → Array Event → Prop)
    (values : Value → Value → Prop) (matcher matcher' : Matcher) (name : String) : Prop :=
  Option.Rel
    (fun target target' => ∀ stream,
      Run.Parallels g g' journals (Option.Rel (Match.Related values)) (matcher target stream)
        (matcher' target' stream))
    (g.rules.find? name) (g'.rules.find? name)

/--
A rule that is referred to by the name is matched in the one grammar as in the other, on any streams that
go together, or there is none in both.
-/
def RefersOn (excused : Fault → Prop) (places : TokenStream → TokenStream → Prop) (g g' : Grammar)
    (journals : Array Event → Array Event → Prop) (values : Value → Value → Prop)
    (matcher matcher' : Matcher) (name : String) : Prop :=
  Option.Rel
    (fun target target' => ∀ stream stream', places stream stream' →
      Run.Follows excused g g' journals (Option.Rel (Match.Related values)) (matcher target stream)
        (matcher' target' stream'))
    (g.rules.find? name) (g'.rules.find? name)

theorem RefersAlike.refersOn {g g' : Grammar} {journals : Array Event → Array Event → Prop}
    {values : Value → Value → Prop} {matcher matcher' : Matcher} {name : String}
    (h : RefersAlike g g' journals values matcher matcher' name)
    : RefersOn Run.Unexcused Eq g g' journals values matcher matcher' name := by
  unfold RefersAlike at h
  unfold RefersOn
  generalize g.rules.find? name = target, g'.rules.find? name = target' at h
  cases h with
  | none => exact .none
  | some h =>
    apply Option.Rel.some
    rintro stream _ rfl
    exact (h stream).follows

theorem refersAlike_of_rel {g g' : Grammar} {journals : Array Event → Array Event → Prop}
    {values : Value → Value → Prop} {matcher matcher' : Matcher} {rules : Rule → Rule → Prop}
    {name : String} (hrules : Option.Rel rules (g.rules.find? name) (g'.rules.find? name))
    (hmatcher : ∀ target target', g.rules.find? name = some target →
      g'.rules.find? name = some target' → rules target target' → ∀ stream,
      Run.Parallels g g' journals (Option.Rel (Match.Related values)) (matcher target stream)
        (matcher' target' stream))
    : RefersAlike g g' journals values matcher matcher' name := by
  unfold RefersAlike
  generalize hfind : g.rules.find? name = found, hfind' : g'.rules.find? name = found'
    at hrules hmatcher
  cases hrules with
  | none => exact .none
  | some htarget => exact .some (hmatcher _ _ rfl rfl htarget)

theorem refersOn_of_rel {excused : Fault → Prop} {places : TokenStream → TokenStream → Prop}
    {g g' : Grammar} {journals : Array Event → Array Event → Prop} {values : Value → Value → Prop}
    {matcher matcher' : Matcher} {rules : Rule → Rule → Prop} {name : String}
    (hrules : Option.Rel rules (g.rules.find? name) (g'.rules.find? name))
    (hmatcher : ∀ target target', rules target target' → ∀ stream stream', places stream stream' →
      Run.Follows excused g g' journals (Option.Rel (Match.Related values)) (matcher target stream)
        (matcher' target' stream'))
    : RefersOn excused places g g' journals values matcher matcher' name := by
  unfold RefersOn
  generalize g.rules.find? name = found, g'.rules.find? name = found' at hrules
  cases hrules with
  | none => exact .none
  | some htarget => exact .some (hmatcher _ _ htarget)

/--
At some time the elements of an option do not match at the stream.
-/
def Misses (g : Grammar) (tracing : Bool) (matcher : Matcher) (rule : Rule) (stream : TokenStream)
    (option : List String) : Prop :=
  ∃ node, (∃ journal, (Run.newNode ⟨g, journal⟩).1 = .ok node)
    ∧ ∃ journal, (matchElements tracing matcher rule ⟨stream, [], node⟩ option ⟨g, journal⟩).1
      = .ok none

section

variable {g g' : Grammar} {tracing tracing' : Bool} {excused : Fault → Prop}
  {places : TokenStream → TokenStream → Prop} {journals : Array Event → Array Event → Prop}
  {values : Value → Value → Prop} {nodes : Node → Node → Prop} {matcher matcher' : Matcher}
  {rule rule' : Rule} {attempt attempt' : Attempt} {stream stream' : TokenStream}

theorem agreement_of_newNode
    (hnote : ∀ line journal journal', journals journal journal' →
      journals (journal.push (.traced line)) (journal'.push (.traced line)))
    (hnode : Run.Parallels g g' journals Eq Run.newNode Run.newNode)
    : Agreement g g' tracing tracing journals Eq Eq where
  text := fun _ => rfl
  add := by
    rintro node _ value _ rfl rfl
    exact .refl fun _ _ => rfl
  newNode := hnode
  trace := fun line => Run.Parallels.trace tracing (hnote line)

-- the journals tell of equally many nodes, so the factories make the same ones
theorem agreement_of_factory (hfactory : g'.factory = g.factory)
    (hnote : ∀ event journal journal', journals journal journal' →
      journals (journal.push event) (journal'.push event))
    (hasks : ∀ journal journal', journals journal journal' →
      Event.asks journal' = Event.asks journal)
    : Agreement g g' tracing tracing journals Eq Eq := by
  apply agreement_of_newNode fun line => hnote (.traced line)
  apply Run.Parallels.newNode
  . intro journal journal' hjournals
    rw [hasks journal journal' hjournals]
    exact hnote _ journal journal' hjournals
  . intro journal journal' hjournals
    rw [hfactory, hasks journal journal' hjournals]
    exact .refl fun _ _ => rfl

theorem agreement_of_eq (hfactory : g'.factory = g.factory)
    : Agreement g g' tracing tracing Eq Eq Eq := by
  apply agreement_of_factory hfactory Run.push_congr
  rintro journal _ rfl
  rfl

theorem agreement_of_uniform (hfactory : g'.factory = g.factory) (huniform : g.factory.Uniform)
    (hnote : ∀ line journal journal', journals journal journal' →
      journals (journal.push (.traced line)) (journal'.push (.traced line)))
    (hasked : ∀ times times' journal journal', journals journal journal' →
      journals (journal.push (.asked times)) (journal'.push (.asked times')))
    : Agreement g g' tracing tracing journals Eq Eq := by
  apply agreement_of_newNode hnote
  apply Run.Parallels.newNode fun journal journal' => hasked _ _ journal journal'
  intro journal journal' _
  rw [hfactory, huniform.newNode_eq (Event.asks journal') (Event.asks journal)]
  exact .refl fun _ _ => rfl

theorem agreement_unrelated (hfactory : g'.factory = g.factory) (huniform : g.factory.Uniform)
    : Agreement g g' tracing tracing Run.Unrelated Eq Eq :=
  agreement_of_uniform hfactory huniform (fun _ _ _ _ => trivial) fun _ _ _ _ _ => trivial

theorem Agreement.embed {found found' : Match}
    (h : Agreement g g' tracing tracing' journals values nodes)
    (hmove : TokenStream.Movable places) (hattempt : attempt.Alike places nodes attempt')
    (hfound : found.Related values found')
    : Run.Corresponds (Attempt.Alike places nodes) (attempt.embed found) (attempt'.embed found') := by
  have hmax : max (found.tokens.length : Int) 1 = (max found.tokens.length 1 : Nat) := by omega
  have hnode := h.add hattempt.node hfound.result
  unfold Attempt.embed
  rw [← hfound.tokens, hattempt.tokens, hmax]
  apply hnode.bind
  intro node node' hnode
  exact ⟨hmove _ hattempt.place, rfl, hnode⟩

theorem Agreement.consume (h : Agreement g g' tracing tracing' journals values nodes)
    (hplaces : TokenStream.Lookalike places) (hattempt : attempt.Alike places nodes attempt')
    (token : Option String)
    : Run.Corresponds (Attempt.Alike places nodes) (attempt.consume token)
        (attempt'.consume token) := by
  rcases hattempt with ⟨hplace, htokens, hnode⟩
  have hgiven : Run.Corresponds nodes (attempt.node.addToken token)
      (attempt'.node.addToken token) := by
    cases token with
    | none => exact hnode
    | some token => exact h.add hnode (h.text token)
  unfold Attempt.consume
  rw [htokens]
  apply hgiven.bind
  intro node node' hnode
  apply (hplaces.next hplace).bind
  intro taken taken' hafter
  exact ⟨hafter, rfl, hnode⟩

theorem matchElement_follows {element : String}
    (h : Agreement g g' tracing tracing' journals values nodes)
    (hplaces : TokenStream.Lookalike places) (hname : rule'.name = rule.name)
    (htargets : ∀ name, Element.read element = .ok (.reference name) →
      TokenStream.Movable places ∧ RefersOn excused places g g' journals values matcher matcher' name)
    (hattempt : attempt.Alike places nodes attempt')
    : Run.Follows excused g g' journals (Option.Rel (Attempt.Alike places nodes))
        (matchElement tracing matcher rule attempt element)
        (matchElement tracing' matcher' rule' attempt' element) := by
  have hterminal (token : Option String) (terminal : Element)
      : Run.Follows excused g g' journals (Option.Rel (Attempt.Alike places nodes))
          (if terminal.accepts token then do
            return some (← Run.ofExcept (attempt.consume token))
          else return none)
          (if terminal.accepts token then do
            return some (← Run.ofExcept (attempt'.consume token))
          else return none) := by
    split
    . apply Run.Follows.bind (Run.Follows.ofExcept (h.consume hplaces hattempt token))
      intro next next' hnext
      exact Run.Follows.pure (.some hnext)
    . exact Run.Follows.pure .none
  unfold matchElement
  rw [hplaces.peek hattempt.place, hname]
  apply Run.Follows.bind (Run.Parallels.ofExcept_self _).follows
  rintro token _ ⟨rfl, _⟩
  apply Run.Follows.bind (h.trace _).follows
  intro _ _ _
  apply Run.Follows.bind (Run.Parallels.ofExcept_self _).follows
  rintro read _ ⟨rfl, hread⟩
  cases read with
  | literal text => exact hterminal token (.literal text)
  | pattern regex => exact hterminal token (.pattern regex)
  | reference name =>
    apply Run.Follows.grammar_bind
    rw [RuleSet.lookup_text, RuleSet.lookup_text]
    rcases htargets name hread with ⟨hmove, htarget⟩
    unfold RefersOn at htarget
    generalize g.rules.find? name = target, g'.rules.find? name = target' at htarget
    cases htarget with
    | none => exact Run.Follows.throw _
    | some htarget =>
      apply Run.Follows.bind (htarget _ _ hattempt.place)
      intro found found' hfound
      cases hfound with
      | none => exact Run.Follows.pure .none
      | some hfound =>
        apply Run.Follows.bind (Run.Follows.ofExcept (h.embed hmove hattempt hfound))
        intro next next' hnext
        exact Run.Follows.pure (.some hnext)

theorem matchElements_follows {elements : List String}
    (h : Agreement g g' tracing tracing' journals values nodes)
    (hplaces : TokenStream.Lookalike places) (hname : rule'.name = rule.name)
    (htargets : ∀ element ∈ elements, ∀ name, Element.read element = .ok (.reference name) →
      TokenStream.Movable places ∧ RefersOn excused places g g' journals values matcher matcher' name)
    (hattempt : attempt.Alike places nodes attempt')
    : Run.Follows excused g g' journals (Option.Rel (Attempt.Alike places nodes))
        (matchElements tracing matcher rule attempt elements)
        (matchElements tracing' matcher' rule' attempt' elements) := by
  induction elements generalizing attempt attempt' with
  | nil => exact Run.Follows.pure (.some hattempt)
  | cons element elements ih =>
    unfold matchElements
    apply Run.Follows.bind
      (matchElement_follows h hplaces hname (htargets element List.mem_cons_self) hattempt)
    intro next next' hnext
    cases hnext with
    | none => exact Run.Follows.pure .none
    | some hnext =>
      apply ih
      . intro element helement
        exact htargets element (List.mem_cons_of_mem _ helement)
      . exact hnext

theorem matchOptions_nil_parallels
    (h : Agreement g g' tracing tracing' journals values nodes) (hname : rule'.name = rule.name)
    : Run.Parallels g g' journals (Option.Rel (Match.Related values))
        (matchOptions tracing matcher rule stream [])
        (matchOptions tracing' matcher' rule' stream' []) := by
  unfold matchOptions
  rw [hname]
  apply Run.Parallels.bind (h.trace _)
  intro _ _ _
  exact Run.Parallels.pure .none

-- the options behind one are only come to where that one is missed
theorem matchOptions_cons_follows {option : List String} {options options' : List (List String)}
    (h : Agreement g g' tracing tracing' journals values nodes)
    (hplaces : TokenStream.Lookalike places) (hname : rule'.name = rule.name)
    (htargets : ∀ element ∈ option, ∀ name, Element.read element = .ok (.reference name) →
      TokenStream.Movable places ∧ RefersOn excused places g g' journals values matcher matcher' name)
    (hact : ∀ node node', nodes node node' →
      Run.Follows excused g g' journals values (Run.act matcher rule node)
        (Run.act matcher' rule' node'))
    (hplace : places stream stream')
    (hrest : Misses g tracing matcher rule stream option →
      Run.Follows excused g g' journals (Option.Rel (Match.Related values))
        (matchOptions tracing matcher rule stream options)
        (matchOptions tracing' matcher' rule' stream' options'))
    : Run.Follows excused g g' journals (Option.Rel (Match.Related values))
        (matchOptions tracing matcher rule stream (option :: options))
        (matchOptions tracing' matcher' rule' stream' (option :: options')) := by
  cases option with
  | nil =>
    unfold matchOptions
    rw [hname]
    apply Run.Follows.bind (h.trace _).follows
    intro _ _ _
    apply Run.Follows.bind h.newNode.follows
    intro node node' hnode
    apply Run.Follows.bind (hact node node' hnode)
    intro result result' hresult
    exact Run.Follows.pure (.some ⟨rfl, hresult⟩)
  | cons element elements =>
    unfold matchOptions
    rw [hname]
    apply Run.Follows.bind_returned h.newNode.follows
    intro node node' hnode hnew
    have hattempt : Attempt.Alike places nodes ⟨stream, [], node⟩ ⟨stream', [], node'⟩ :=
      ⟨hplace, rfl, hnode⟩
    apply Run.Follows.bind_returned (matchElements_follows h hplaces hname htargets hattempt)
    intro last last' hlast hmiss
    cases hlast with
    | none => exact hrest ⟨node, hnew, hmiss⟩
    | some hlast =>
      dsimp only
      rw [hlast.tokens]
      apply Run.Follows.bind (h.trace _).follows
      intro _ _ _
      apply Run.Follows.bind (hact _ _ hlast.node)
      intro result result' hresult
      exact Run.Follows.pure (.some ⟨rfl, hresult⟩)

theorem matchOptions_follows {options : List (List String)}
    (h : Agreement g g' tracing tracing' journals values nodes)
    (hplaces : TokenStream.Lookalike places) (hname : rule'.name = rule.name)
    (htargets : ∀ option ∈ options, ∀ element ∈ option, ∀ name,
      Element.read element = .ok (.reference name) →
      TokenStream.Movable places ∧ RefersOn excused places g g' journals values matcher matcher' name)
    (hact : ∀ node node', nodes node node' →
      Run.Follows excused g g' journals values (Run.act matcher rule node)
        (Run.act matcher' rule' node'))
    (hplace : places stream stream')
    : Run.Follows excused g g' journals (Option.Rel (Match.Related values))
        (matchOptions tracing matcher rule stream options)
        (matchOptions tracing' matcher' rule' stream' options) := by
  induction options with
  | nil => exact (matchOptions_nil_parallels h hname).follows
  | cons option options ih =>
    apply matchOptions_cons_follows h hplaces hname (htargets option List.mem_cons_self) hact hplace
    intro _
    apply ih
    intro option hoption
    exact htargets option (List.mem_cons_of_mem _ hoption)

theorem matchElements_parallels {elements : List String}
    (h : Agreement g g' tracing tracing' journals values nodes) (hname : rule'.name = rule.name)
    (htargets : ∀ element ∈ elements, ∀ name, Element.read element = .ok (.reference name) →
      RefersAlike g g' journals values matcher matcher' name)
    (hattempt : attempt.Related nodes attempt')
    : Run.Parallels g g' journals (Option.Rel (Attempt.Related nodes))
        (matchElements tracing matcher rule attempt elements)
        (matchElements tracing' matcher' rule' attempt' elements) := by
  have hfollows := (matchElements_follows h TokenStream.bisimulation_eq.toLookalike hname
    (fun element helement name hread =>
      ⟨TokenStream.bisimulation_eq.move, (htargets element helement name hread).refersOn⟩)
    ⟨hattempt.stream, hattempt.tokens, hattempt.node⟩).parallels
  apply hfollows.mono
  intro last last' hlast
  cases hlast with
  | none => exact .none
  | some hlast => exact .some ⟨hlast.place, hlast.tokens, hlast.node⟩

theorem matchOptions_cons_parallels {option : List String} {options options' : List (List String)}
    (h : Agreement g g' tracing tracing' journals values nodes) (hname : rule'.name = rule.name)
    (htargets : ∀ element ∈ option, ∀ name, Element.read element = .ok (.reference name) →
      RefersAlike g g' journals values matcher matcher' name)
    (hact : ∀ node node', nodes node node' →
      Run.Parallels g g' journals values (Run.act matcher rule node)
        (Run.act matcher' rule' node'))
    (hrest : Misses g tracing matcher rule stream option →
      Run.Parallels g g' journals (Option.Rel (Match.Related values))
        (matchOptions tracing matcher rule stream options)
        (matchOptions tracing' matcher' rule' stream options'))
    : Run.Parallels g g' journals (Option.Rel (Match.Related values))
        (matchOptions tracing matcher rule stream (option :: options))
        (matchOptions tracing' matcher' rule' stream (option :: options')) := by
  apply Run.Follows.parallels
  apply matchOptions_cons_follows h TokenStream.bisimulation_eq.toLookalike hname _ _ rfl
  . intro hmiss
    exact (hrest hmiss).follows
  . intro element helement name hread
    exact ⟨TokenStream.bisimulation_eq.move, (htargets element helement name hread).refersOn⟩
  . intro node node' hnode
    exact (hact node node' hnode).follows

theorem matchOptions_parallels {options : List (List String)}
    (h : Agreement g g' tracing tracing' journals values nodes) (hname : rule'.name = rule.name)
    (htargets : ∀ option ∈ options, ∀ element ∈ option, ∀ name,
      Element.read element = .ok (.reference name) →
      RefersAlike g g' journals values matcher matcher' name)
    (hact : ∀ node node', nodes node node' →
      Run.Parallels g g' journals values (Run.act matcher rule node)
        (Run.act matcher' rule' node'))
    : Run.Parallels g g' journals (Option.Rel (Match.Related values))
        (matchOptions tracing matcher rule stream options)
        (matchOptions tracing' matcher' rule' stream options) := by
  apply Run.Follows.parallels
  apply matchOptions_follows h TokenStream.bisimulation_eq.toLookalike hname _ _ rfl
  . intro option hoption element helement name hread
    have htarget := htargets option hoption element helement name hread
    exact ⟨TokenStream.bisimulation_eq.move, htarget.refersOn⟩
  . intro node node' hnode
    exact (hact node node' hnode).follows

end
end Matcher

section

variable {g g' : Grammar} {journals : Array Event → Array Event → Prop}
  {values : Value → Value → Prop} {matcher matcher' : Matcher}

theorem Match.eq_of_related {found found' : Option Match}
    (h : Option.Rel (Match.Related Eq) found found')
    : found = found' := by
  cases h with
  | none => rfl
  | @some found found' h =>
    rcases found with ⟨tokens, result⟩
    rcases found' with ⟨tokens', result'⟩
    rcases h with ⟨rfl, rfl⟩
    rfl

theorem Match.eq_map_of_related {f : Value → Value} {found found' : Option Match}
    (h : Option.Rel (Match.Related fun value value' => value = f value') found found')
    : found = found'.map fun found => ⟨found.tokens, f found.result⟩ := by
  cases h with
  | none => rfl
  | some h => rw [Option.map_some, ← h.tokens, ← h.result]

theorem Match.related_of_eq {found found' : Option Match} (h : found = found')
    : Option.Rel (Match.Related Eq) found found' := by
  cases h
  cases found with
  | none => exact .none
  | some found => exact .some ⟨rfl, rfl⟩

theorem RuleSet.rel_find?_insert {related : Rule → Rule → Prop} {rules : RuleSet} {rule rule' : Rule}
    (hrefl : ∀ rule, related rule rule) (hfind : rules.find? rule.name = some rule)
    (hname : rule'.name = rule.name) (hrule : related rule rule') (name : String)
    : Option.Rel related (rules.find? name) ((rules.insert rule').find? name) := by
  rw [find?_insert, hname]
  split
  . next heq =>
    rw [← heq, hfind]
    exact .some hrule
  . cases rules.find? name with
    | none => exact .none
    | some rule => exact .some (hrefl rule)

theorem RuleSet.names_insert_of_find? {rules : RuleSet} {rule rule' : Rule}
    (hfind : rules.find? rule.name = some rule) (hname : rule'.name = rule.name)
    : (rules.insert rule').names = rules.names := by
  apply names_insert_of_mem
  rw [hname]
  exact List.mem_map_of_mem (mem_of_find? hfind)

theorem Grammar.Entry.rule?_corresponds {rules : Rule → Rule → Prop}
    (hnames : g'.rules.names = g.rules.names)
    (hrules : ∀ name, Option.Rel rules (g.rules.find? name) (g'.rules.find? name)) (entry : Entry)
    : Run.Corresponds rules (entry.rule? g.rules) (entry.rule? g'.rules) := by
  cases entry with
  | named name =>
    unfold rule?
    by_cases htext : ∃ text, name = .text text
    . rcases htext with ⟨text, rfl⟩
      have htarget := hrules text
      dsimp only
      rw [RuleSet.lookup_text, RuleSet.lookup_text]
      generalize g.rules.find? text = target, g'.rules.find? text = target' at htarget
      cases htarget with
      | none => rfl
      | some htarget => exact htarget
    . rcases RuleSet.lookup_eq_error (not_exists.mp htext) with ⟨fault, hfault⟩
      dsimp only
      rw [hfault, hfault]
      rfl
  | first =>
    unfold RuleSet.names at hnames
    cases hlist : g.rules.toList with
    | nil =>
      rw [hlist, List.map_nil, List.map_eq_nil_iff] at hnames
      unfold rule?
      rw [hlist, hnames]
      rfl
    | cons rule others =>
      cases hlist' : g'.rules.toList with
      | nil => simp [hlist, hlist'] at hnames
      | cons rule' others' =>
        rw [hlist, hlist', List.map_cons, List.map_cons, List.cons.injEq] at hnames
        have htarget := hrules rule.name
        unfold RuleSet.find? at htarget
        rw [hlist, hlist'] at htarget
        unfold rule?
        rw [hlist, hlist']
        simp only [List.find?_cons, hnames.1, BEq.rfl] at htarget
        cases htarget with
        | some htarget => exact htarget

/--
Runs are in parallel if the rules at which they can begin are matched in parallel.
-/
theorem Grammar.Entry.run_parallels {rules : Rule → Rule → Prop}
    {answers : Option Match → Option Match → Prop} (hsplitter : g'.splitter = g.splitter)
    (hnames : g'.rules.names = g.rules.names)
    (hrules : ∀ name, Option.Rel rules (g.rules.find? name) (g'.rules.find? name))
    (hname : ∀ rule rule', rules rule rule' → rule'.name = rule.name) (entry : Entry)
    (settings : Settings) (source : Source)
    (hmatcher : ∀ rule rule', rules rule rule' → ∀ stream,
      Run.Parallels g.sealed g'.sealed journals answers (Matcher.ofSettings settings rule stream)
        (Matcher.ofSettings settings rule' stream))
    : Run.Parallels g g' journals answers (entry.run settings source)
        (entry.run settings source) := by
  rw [run_eq]
  apply Run.Parallels.grammar_bind
  apply Run.Parallels.bind (Run.Parallels.ofExcept (entry.rule?_corresponds hnames hrules))
  intro rule rule' hrule
  apply Run.Parallels.start hsplitter (hname rule rule' hrule)
  exact hmatcher rule rule' hrule

namespace Run

theorem startNamed_text_parallels {source : Source} {name : String}
    (hopened : TokenStream.openSource g'.splitter source = TokenStream.openSource g.splitter source)
    (htarget : Matcher.RefersAlike g.sealed g'.sealed journals values matcher matcher' name)
    : Parallels g g' journals (Option.Rel (Match.Related values))
        (startNamed matcher (.text name) source) (startNamed matcher' (.text name) source) := by
  unfold startNamed
  apply Parallels.grammar_bind
  unfold Matcher.RefersAlike at htarget
  rw [Grammar.sealed_rules, Grammar.sealed_rules] at htarget
  rw [RuleSet.lookup_text, RuleSet.lookup_text]
  generalize hfind : g.rules.find? name = found, hfind' : g'.rules.find? name = found' at htarget
  cases htarget with
  | none => exact Parallels.throw _
  | some htarget =>
    apply Parallels.start_of_opened hopened _ htarget
    rw [RuleSet.name_of_find? hfind, RuleSet.name_of_find? hfind']

theorem startNamed_parallels (hsplitter : g'.splitter = g.splitter)
    (htargets : ∀ name, Matcher.RefersAlike g.sealed g'.sealed journals values matcher matcher' name)
    (name : Value) (source : Source)
    : Parallels g g' journals (Option.Rel (Match.Related values)) (startNamed matcher name source)
        (startNamed matcher' name source) := by
  by_cases htext : ∃ text, name = .text text
  . rcases htext with ⟨text, rfl⟩
    exact startNamed_text_parallels (by rw [hsplitter]) (htargets text)
  . rcases RuleSet.lookup_eq_error (not_exists.mp htext) with ⟨fault, hfault⟩
    apply Parallels.grammar_bind
    rw [hfault, hfault]
    exact Parallels.throw fault

/--
A script that two grammars carry out in parallel: both refuse its declarations, its runs are matched
in parallel, and the names of the rules are the same.
-/
theorem perform_parallels (hg : g.running ≠ 0) (hg' : g'.running ≠ 0)
    (hsplitter : g'.splitter = g.splitter) (hnames : g'.rules.names = g.rules.names)
    (htargets : ∀ name, Matcher.RefersAlike g.sealed g'.sealed journals Eq matcher matcher' name)
    (script : Script)
    : Parallels g g' journals Eq (perform matcher script) (perform matcher' script) := by
  induction script using Script.induct with
  | done result => exact Parallels.pure rfl
  | fail fault => exact Parallels.throw fault
  | declare name options action next ih =>
    intro journal journal' hjournals
    rw [perform_declare hg, perform_declare hg']
    exact ih (.error (Grammar.refusal name)) journal journal' hjournals
  | parseAs name source next ih =>
    apply Parallels.bind (startNamed_parallels hsplitter htargets name source).outcome
    intro answer answer' hanswer
    rw [(hanswer.mono fun _ _ => Match.eq_of_related).eq]
    apply ih
  | names next ih =>
    apply Parallels.grammar_bind
    rw [hnames]
    apply ih

theorem act_parallels_of_perform {values : Value → Value → Prop}
    (hnote : ∀ event journal journal', journals journal journal' →
      journals (journal.push event) (journal'.push event))
    {rule rule' : Rule} (hname : rule'.name = rule.name) (haction : rule'.action = rule.action)
    {node : Node}
    (hperform : Parallels g g' journals values (perform matcher (rule.act node))
      (perform matcher' (rule.act node)))
    : Parallels g g' journals values (act matcher rule node) (act matcher' rule' node) := by
  have hact : rule'.act node = rule.act node := by
    unfold Rule.act
    rw [hname, haction]
  unfold act
  rw [hname, haction, hact]
  apply Parallels.bind (Parallels.note (hnote _))
  intro _ _ _
  exact hperform

theorem act_parallels (hg : g.running ≠ 0) (hg' : g'.running ≠ 0)
    (hsplitter : g'.splitter = g.splitter) (hnames : g'.rules.names = g.rules.names)
    (htargets : ∀ name, Matcher.RefersAlike g.sealed g'.sealed journals Eq matcher matcher' name)
    (hnote : ∀ event journal journal', journals journal journal' →
      journals (journal.push event) (journal'.push event))
    {rule rule' : Rule} (hname : rule'.name = rule.name) (haction : rule'.action = rule.action)
    (node : Node)
    : Parallels g g' journals Eq (act matcher rule node) (act matcher' rule' node) :=
  act_parallels_of_perform hnote hname haction
    (perform_parallels hg hg' hsplitter hnames htargets (rule.act node))

end Run
end
end TokenGrammar
