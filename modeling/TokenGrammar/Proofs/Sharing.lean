import TokenGrammar.Proofs.Cursor
import TokenGrammar.Proofs.Group
import TokenGrammar.Proofs.Parallel

/-!
This module contains the matcher on streams that are shared: a stream is known by its place in a group,
requests to it move its cursor, and who wants to keep a cursor where it is works on a duplicate. This
matcher gives the answers of the one that passes streams around by value, and it leaves the cursors of
all streams where they are that were there when it was called.
-/

namespace TokenGrammar

/--
What is there while shared streams are matched: the streams, and the grammar with its journal.
-/
structure Desk where
  group : StreamGroup
  session : Session

/--
Something done with shared streams. It goes wrong altogether when it asks for a stream that does not
exist.
-/
abbrev SharedRun := ExceptT Fault (StateT Desk Option)

namespace SharedRun

/--
Something that has to do with the grammar only.
-/
def ofRun (run : Run α) : SharedRun α :=
  fun desk => match run desk.session with
    | (answer, session) => some (answer, { desk with session })

/--
Nothing can be done.
-/
def stuck : SharedRun α := fun _ => none

/--
Pass a request on to the group.
-/
def request (asked : GroupRequest) : SharedRun StreamAnswer :=
  fun desk => (desk.group.fulfil? asked).map fun (answer, group) => (answer, { desk with group })

/--
The token in sight of a stream.
-/
def peek (place : Nat) : SharedRun (Option String) := do
  match ← request (.ask place (.peek 0)) with
  | .token token => return token
  | _ => stuck

/--
Move the cursor of a stream over the next token that is not empty.
-/
def next (place : Nat) : SharedRun Unit := do
  let _ ← request (.ask place .next)

/--
Move the cursor of a stream by a number of tokens.
-/
def move (place : Nat) (count : Int) : SharedRun Unit := do
  let _ ← request (.ask place (.move count))

/--
The place of a new stream whose cursor starts where the cursor of the given one stands.
-/
def duplicate (place : Nat) : SharedRun Nat := do
  match ← request (.duplicate place) with
  | .joined own => return own
  | _ => stuck

/--
The stream at a place, as it stands.
-/
def look (place : Nat) : SharedRun TokenStream :=
  fun desk => (desk.group.stream? place).map fun stream => (.ok stream, desk)

/--
The answer of something that may fail, failure included.
-/
def outcome (run : SharedRun α) : SharedRun (Except Fault α) :=
  fun desk => (run desk).map fun (answer, desk) => (.ok answer, desk)

/--
Count a run as under way while it lasts, however it ends.
-/
def sealing (run : SharedRun α) : SharedRun α :=
  fun desk => (run ⟨desk.group, { desk.session with grammar := desk.session.grammar.sealed }⟩).map
    fun (answer, desk) =>
      (answer, ⟨desk.group, { desk.session with grammar := desk.session.grammar.opened }⟩)

end SharedRun

/--
A way to match a rule against the stream at a place.
-/
abbrev SharedMatcher := Rule → Nat → SharedRun (Option Match)

namespace SharedMatcher

/--
The matcher on streams that nobody else has, each in a group of its own. The runs that an action starts
are matched in this way.
-/
def detached (matcher : SharedMatcher) : Matcher :=
  fun rule stream session => match matcher rule 0 ⟨.single stream, session⟩ with
    | some (answer, desk) => (answer, desk.session)
    | none => (.error default, session)

/--
What an option has gathered so far, with the cursor left to the stream.
-/
structure Gathered where
  tokens : List String := []
  node : Node

/--
What has been gathered, with one more token.
-/
def Gathered.consume (gathered : Gathered) (token : Option String) : Except Fault Gathered := do
  return ⟨gathered.tokens ++ token.toList, ← gathered.node.addToken token⟩

/--
What has been gathered, with one more rule matched.
-/
def Gathered.embed (gathered : Gathered) (found : Match) : Except Fault Gathered := do
  return ⟨gathered.tokens ++ found.tokens, ← gathered.node.add found.result⟩

/--
Match one element at the cursor of the stream at a place, and move the cursor behind it.
-/
def matchElement (tracing : Bool) (matcher : SharedMatcher) (rule : Rule) (place : Nat)
    (gathered : Gathered) (element : String) : SharedRun (Option Gathered) := do
  let token ← SharedRun.peek place
  SharedRun.ofRun (Run.trace tracing (.tried rule.name element token))
  match ← SharedRun.ofRun (Run.ofExcept (Element.read element)) with
  | .reference name =>
    let target ← SharedRun.ofRun do Run.ofExcept ((← Run.grammar).rules.lookup (.text name))
    match ← matcher target place with
    | some found =>
      let gathered ← SharedRun.ofRun (Run.ofExcept (gathered.embed found))
      SharedRun.move place (max found.tokens.length 1)
      return some gathered
    | none => return none
  | element =>
    if element.accepts token then
      let gathered ← SharedRun.ofRun (Run.ofExcept (gathered.consume token))
      SharedRun.next place
      return some gathered
    else return none

/--
Match elements one after another.
-/
def matchElements (tracing : Bool) (matcher : SharedMatcher) (rule : Rule) (place : Nat)
    (gathered : Gathered) : List String → SharedRun (Option Gathered)
  | [] => return some gathered
  | element :: elements => do
    match ← matchElement tracing matcher rule place gathered element with
    | some gathered => matchElements tracing matcher rule place gathered elements
    | none => return none

/--
Match the first option that fits, each on a duplicate of the stream of the caller.
-/
def matchOptions (tracing : Bool) (matcher : SharedMatcher) (rule : Rule) (place : Nat) :
    List (List String) → SharedRun (Option Match)
  | [] => do
    SharedRun.ofRun (Run.trace tracing (.unmatched rule.name))
    return none
  | [] :: _ => do
    SharedRun.ofRun (Run.trace tracing (.emptyOption rule.name))
    let node ← SharedRun.ofRun Run.newNode
    return some ⟨[], ← SharedRun.ofRun (Run.act matcher.detached rule node)⟩
  | (element :: elements) :: options => do
    let own ← SharedRun.duplicate place
    let node ← SharedRun.ofRun Run.newNode
    match ← matchElements tracing matcher rule own ⟨[], node⟩ (element :: elements) with
    | some gathered =>
      SharedRun.ofRun (Run.trace tracing (.matched rule.name gathered.tokens))
      return some ⟨gathered.tokens, ← SharedRun.ofRun (Run.act matcher.detached rule gathered.node)⟩
    | none => matchOptions tracing matcher rule place options

/--
The matcher with at most `depth` rules under way at once.
-/
def ofDepth (tracing : Bool) : (depth : Nat) → SharedMatcher
  | 0, _, _ => throw .exhausted
  | depth + 1, rule, place =>
    matchOptions tracing (ofDepth tracing depth) rule place rule.options

/--
The matcher of a run, whose depth is limited by the number of tokens.
-/
def ofSettings (settings : Settings) : SharedMatcher :=
  fun rule place => do
    let stream ← SharedRun.look place
    ofDepth settings.tracing (settings.nestingLimit stream.size) rule place

end SharedMatcher

/--
Match a rule against the stream at a place, of which a duplicate is made.
-/
def SharedRun.start (matcher : SharedMatcher) (rule : Rule) (place : Nat) :
    SharedRun (Option Match) := do
  let own ← duplicate place
  sealing do
    match ← outcome (matcher rule own) with
    | .ok answer => return answer
    | .error .exhausted => throw (.nesting rule.name (← look own).position)
    | .error fault => throw fault

/--
Match the stream at a place against the rule at which the run begins.
-/
def Grammar.Entry.runShared (entry : Entry) (settings : Settings) (place : Nat) :
    SharedRun (Option Match) := do
  let rule ← SharedRun.ofRun do Run.ofExcept (entry.rule? (← Run.grammar).rules)
  SharedRun.start (SharedMatcher.ofSettings settings) rule place

namespace SharedRun

variable {α β γ δ : Type} {group : StreamGroup} {kept place : Nat} {stream : TokenStream}

theorem bind_apply (run : SharedRun α) (f : α → SharedRun β) (desk : Desk)
    : (run >>= f) desk
        =
      match run desk with
      | some (.ok a, after) => f a after
      | some (.error fault, after) => some (.error fault, after)
      | none => none := by
  show (ExceptT.bind run f) desk = _
  simp only [ExceptT.bind, ExceptT.mk, bind, StateT.bind]
  rcases run desk with _ | ⟨_ | _, _⟩
  . rfl
  . rfl
  . rfl

theorem request_apply {asked : GroupRequest} {answer : Except Fault StreamAnswer}
    {after : StreamGroup} (h : group.fulfil? asked = some (answer, after)) (session : Session)
    : request asked ⟨group, session⟩ = some (answer, ⟨after, session⟩) := by
  unfold request
  dsimp only
  rw [h]
  rfl

/--
On a group of streams the shared run does what the other run does, and the streams at the first places
stay as they are. What it returns and the group at the end go together with what the other one returns.
-/
def Realises (group : StreamGroup) (kept : Nat) (answers : α → β → StreamGroup → Prop) (run : Run α)
    (shared : SharedRun β) : Prop :=
  ∀ session, ∃ answer after, shared ⟨group, session⟩ = some (answer, ⟨after, (run session).2⟩)
    ∧ group.Keeps kept after
    ∧ Run.Corresponds (fun a b => answers a b after) (run session).1 answer

namespace Realises

theorem pure {answers : α → β → StreamGroup → Prop} {a : α} {b : β} (h : answers a b group)
    : Realises group kept answers (pure a) (pure b) := by
  intro session
  exact ⟨.ok b, group, rfl, .refl _ _, h⟩

theorem throw {answers : α → β → StreamGroup → Prop} (fault : Fault)
    : Realises group kept answers (throw fault) (throw fault) := by
  intro session
  exact ⟨.error fault, group, rfl, .refl _ _, rfl⟩

theorem ofRun (run : Run α)
    : Realises group kept (fun a b after => a = b ∧ after = group) run (ofRun run) := by
  intro session
  refine ⟨(run session).1, group, rfl, .refl _ _, ?_⟩
  exact .refl fun _ _ => ⟨rfl, rfl⟩

theorem ofExcept {answers : α → β → StreamGroup → Prop} {answer : Except Fault α}
    {answer' : Except Fault β} (h : Run.Corresponds (fun a b => answers a b group) answer answer')
    : Realises group kept answers (Run.ofExcept answer) (SharedRun.ofRun (Run.ofExcept answer')) := by
  intro session
  cases answer with
  | error fault =>
    cases answer' with
    | error fault' => exact ⟨.error fault', group, rfl, .refl _ _, h⟩
    | ok b => exact h.elim
  | ok a =>
    cases answer' with
    | error fault' => exact h.elim
    | ok b => exact ⟨.ok b, group, rfl, .refl _ _, h⟩

theorem bind {mid : α → β → StreamGroup → Prop} {answers : γ → δ → StreamGroup → Prop} {run : Run α}
    {shared : SharedRun β} {f : α → Run γ} {f' : β → SharedRun δ}
    (h : Realises group kept mid run shared)
    (hok : ∀ a b after, mid a b after → group.Keeps kept after →
      Realises after kept answers (f a) (f' b))
    : Realises group kept answers (run >>= f) (shared >>= f') := by
  intro session
  rcases h session with ⟨answer, after, hshared, hkeeps, hanswer⟩
  rw [bind_apply, Run.bind_apply, hshared]
  rcases hrun : run session with ⟨answer', session'⟩
  rw [hrun] at hanswer
  cases answer' with
  | error fault =>
    cases answer with
    | error fault' => exact ⟨.error fault', after, rfl, hkeeps, hanswer⟩
    | ok b => exact hanswer.elim
  | ok a =>
    cases answer with
    | error fault' => exact hanswer.elim
    | ok b =>
      rcases hok a b after hanswer hkeeps session' with ⟨last, after', hlast, hkeeps', hanswer'⟩
      exact ⟨last, after', hlast, hkeeps.trans hkeeps', hanswer'⟩

theorem ofRun_bind {answers : β → γ → StreamGroup → Prop} {run : Run α} {f : α → Run β}
    {f' : α → SharedRun γ} (h : ∀ a, Realises group kept answers (f a) (f' a))
    : Realises group kept answers (run >>= f) (SharedRun.ofRun run >>= f') := by
  apply bind (ofRun run)
  rintro a _ _ ⟨rfl, rfl⟩ _
  exact h a

theorem mono {answers answers' : α → β → StreamGroup → Prop} {fewer : Nat} {run : Run α}
    {shared : SharedRun β} (h : Realises group kept answers run shared) (hfewer : fewer ≤ kept)
    (hanswers : ∀ a b after, group.Keeps kept after → answers a b after → answers' a b after)
    : Realises group fewer answers' run shared := by
  intro session
  rcases h session with ⟨answer, after, hshared, hkeeps, hanswer⟩
  refine ⟨answer, after, hshared, hkeeps.mono hfewer, ?_⟩
  exact hanswer.mono fun a b => hanswers a b after hkeeps

theorem outcome {answers : α → β → StreamGroup → Prop} {run : Run α} {shared : SharedRun β}
    (h : Realises group kept answers run shared)
    : Realises group kept
        (fun answer answer' after => Run.Corresponds (fun a b => answers a b after) answer answer')
        run.outcome shared.outcome := by
  intro session
  rcases h session with ⟨answer, after, hshared, hkeeps, hanswer⟩
  refine ⟨.ok answer, after, ?_, hkeeps, hanswer⟩
  unfold SharedRun.outcome
  rw [hshared]
  rfl

theorem sealing {answers : α → β → StreamGroup → Prop} {run : Run α} {shared : SharedRun β}
    (h : Realises group kept answers run shared)
    : Realises group kept answers run.sealing shared.sealing := by
  intro session
  rcases h { session with grammar := session.grammar.sealed }
    with ⟨answer, after, hshared, hkeeps, hanswer⟩
  refine ⟨answer, after, ?_, hkeeps, hanswer⟩
  unfold SharedRun.sealing
  rw [hshared]
  rfl

theorem duplicate_bind {answers : α → β → StreamGroup → Prop} {run : Run α} {f' : Nat → SharedRun β}
    (hplace : group.stream? place = some stream) (hkept : kept ≤ group.cursors.length)
    (h : Realises (group.add stream.position) kept answers run (f' group.cursors.length))
    : Realises group kept answers run (duplicate place >>= f') := by
  intro session
  rcases h session with ⟨answer, after, hshared, hkeeps, hanswer⟩
  refine ⟨answer, after, ?_, ?_, hanswer⟩
  . rw [bind_apply]
    unfold duplicate
    rw [bind_apply, request_apply (StreamGroup.fulfil?_duplicate hplace)]
    exact hshared
  . exact ((group.keeps_add stream.position).mono hkept).trans hkeeps

theorem look_bind {answers : α → β → StreamGroup → Prop} {run : Run α} {f' : TokenStream → SharedRun β}
    (hplace : group.stream? place = some stream) (h : Realises group kept answers run (f' stream))
    : Realises group kept answers run (look place >>= f') := by
  intro session
  rcases h session with ⟨answer, after, hshared, hrest⟩
  refine ⟨answer, after, ?_, hrest⟩
  rw [bind_apply]
  unfold look
  rw [hplace]
  exact hshared

theorem move_bind {answers : α → β → StreamGroup → Prop} {run : Run α} {f' : Unit → SharedRun β}
    (hplace : group.stream? place = some stream) (hkept : kept ≤ place) (count : Int)
    (h : Realises (group.put place (stream.move count).position) kept answers run (f' ()))
    : Realises group kept answers run (move place count >>= f') := by
  intro session
  rcases h session with ⟨answer, after, hshared, hkeeps, hanswer⟩
  refine ⟨answer, after, ?_, ?_, hanswer⟩
  . rw [bind_apply]
    unfold move
    rw [bind_apply, request_apply (StreamGroup.fulfil?_ask hplace _)]
    exact hshared
  . exact ((group.keeps_put place _).mono hkept).trans hkeeps

theorem peek (hplace : group.stream? place = some stream)
    : Realises group kept (fun a b after => a = b ∧ after = group) (Run.ofExcept (stream.peek 0))
        (peek place) := by
  intro session
  refine ⟨stream.peek 0, group, ?_, .refl _ _, ?_⟩
  . unfold SharedRun.peek
    rw [bind_apply, request_apply (StreamGroup.fulfil?_ask hplace _)]
    dsimp only [TokenStream.fulfil]
    rw [StreamGroup.put_self hplace]
    cases stream.peek 0 with
    | error fault => rfl
    | ok token => rfl
  . cases stream.peek 0 with
    | error fault => rfl
    | ok token => exact ⟨rfl, rfl⟩

theorem next (hplace : group.stream? place = some stream) (hkept : kept ≤ place)
    : Realises group kept (fun taken _ after => after.stream? place = some taken.2)
        (Run.ofExcept stream.next) (next place) := by
  intro session
  unfold SharedRun.next
  rw [bind_apply, request_apply (StreamGroup.fulfil?_ask hplace _)]
  dsimp only [TokenStream.fulfil]
  cases hnext : stream.next with
  | error fault => exact ⟨_, _, rfl, (group.keeps_put place _).mono hkept, rfl⟩
  | ok taken =>
    refine ⟨_, _, rfl, (group.keeps_put place _).mono hkept, ?_⟩
    exact StreamGroup.stream?_put hplace (TokenStream.tokens_of_next hnext)

end Realises

end SharedRun

namespace SharedMatcher

variable {tracing : Bool} {matcher : Matcher} {shared : SharedMatcher} {rule : Rule}
  {group : StreamGroup} {place : Nat} {attempt : Matcher.Attempt} {stream : TokenStream}

/--
The shared matcher gives the answers of the other one and keeps the cursors of all streams there are.
-/
def Realises (matcher : Matcher) (shared : SharedMatcher) : Prop :=
  ∀ rule group place stream, group.stream? place = some stream →
    SharedRun.Realises group group.cursors.length (fun found found' _ => found = found')
      (matcher rule stream) (shared rule place)

theorem Realises.detached_eq (h : Realises matcher shared) : shared.detached = matcher := by
  funext rule stream session
  have hplace : (StreamGroup.single stream).stream? 0 = some stream := rfl
  rcases h rule _ 0 stream hplace session with ⟨answer, after, hshared, _, hanswer⟩
  have hanswer : (matcher rule stream session).1 = answer := hanswer.eq
  unfold detached
  rw [hshared, ← hanswer]
  rfl

/--
What has been gathered is that of the attempt, and the stream at the place stands where the stream of the
attempt does.
-/
def Holds (place : Nat) (attempt : Matcher.Attempt) (gathered : Gathered) (group : StreamGroup) :
    Prop :=
  gathered = ⟨attempt.tokens, attempt.node⟩ ∧ group.stream? place = some attempt.stream

theorem consume_realises (hplace : group.stream? place = some attempt.stream) (token : Option String)
    : SharedRun.Realises group place
        (fun last gathered after => Option.Rel (Holds place · · after) last gathered)
        (do return some (← Run.ofExcept (attempt.consume token)))
        (do
          let gathered ← SharedRun.ofRun
            (Run.ofExcept (Gathered.consume ⟨attempt.tokens, attempt.node⟩ token))
          SharedRun.next place
          return some gathered) := by
  have hgiven : Run.Corresponds (fun node gathered => gathered = ⟨attempt.tokens ++ token.toList, node⟩)
      (attempt.node.addToken token) (Gathered.consume ⟨attempt.tokens, attempt.node⟩ token) := by
    unfold Gathered.consume
    cases attempt.node.addToken token with
    | error fault => rfl
    | ok node => rfl
  rw [Matcher.Attempt.consume, Run.ofExcept_bind, bind_assoc]
  have hnode : SharedRun.Realises group place
      (fun node gathered after => gathered = ⟨attempt.tokens ++ token.toList, node⟩ ∧ after = group)
      (Run.ofExcept (attempt.node.addToken token))
      (SharedRun.ofRun (Run.ofExcept (Gathered.consume ⟨attempt.tokens, attempt.node⟩ token))) := by
    apply SharedRun.Realises.ofExcept
    exact hgiven.mono fun _ _ h => ⟨h, rfl⟩
  apply hnode.bind
  rintro node _ _ ⟨rfl, rfl⟩ _
  rw [Run.ofExcept_bind, bind_assoc]
  apply (SharedRun.Realises.next hplace (Nat.le_refl place)).bind
  intro taken _ after hafter _
  exact SharedRun.Realises.pure (.some ⟨rfl, hafter⟩)

theorem embed_realises (hplace : group.stream? place = some attempt.stream) (found : Match)
    : SharedRun.Realises group place
        (fun last gathered after => Option.Rel (Holds place · · after) last gathered)
        (do return some (← Run.ofExcept (attempt.embed found)))
        (do
          let gathered ← SharedRun.ofRun
            (Run.ofExcept (Gathered.embed ⟨attempt.tokens, attempt.node⟩ found))
          SharedRun.move place (max found.tokens.length 1)
          return some gathered) := by
  have hgiven : Run.Corresponds (fun node gathered => gathered = ⟨attempt.tokens ++ found.tokens, node⟩)
      (attempt.node.add found.result) (Gathered.embed ⟨attempt.tokens, attempt.node⟩ found) := by
    unfold Gathered.embed
    cases attempt.node.add found.result with
    | error fault => rfl
    | ok node => rfl
  rw [Matcher.Attempt.embed, Run.ofExcept_bind, bind_assoc]
  have hnode : SharedRun.Realises group place
      (fun node gathered after => gathered = ⟨attempt.tokens ++ found.tokens, node⟩ ∧ after = group)
      (Run.ofExcept (attempt.node.add found.result))
      (SharedRun.ofRun (Run.ofExcept (Gathered.embed ⟨attempt.tokens, attempt.node⟩ found))) := by
    apply SharedRun.Realises.ofExcept
    exact hgiven.mono fun _ _ h => ⟨h, rfl⟩
  apply hnode.bind
  rintro node _ _ ⟨rfl, rfl⟩ _
  apply SharedRun.Realises.move_bind hplace (Nat.le_refl place)
  exact SharedRun.Realises.pure (.some ⟨rfl, StreamGroup.stream?_put hplace rfl⟩)

theorem matchElement_realises (h : Realises matcher shared)
    (hplace : group.stream? place = some attempt.stream) (element : String)
    : SharedRun.Realises group place
        (fun last gathered after => Option.Rel (Holds place · · after) last gathered)
        (Matcher.matchElement tracing matcher rule attempt element)
        (matchElement tracing shared rule place ⟨attempt.tokens, attempt.node⟩ element) := by
  have hterminal (token : Option String) (terminal : Element)
      : SharedRun.Realises group place
          (fun last gathered after => Option.Rel (Holds place · · after) last gathered)
          (if terminal.accepts token then do
            return some (← Run.ofExcept (attempt.consume token))
          else return none)
          (if terminal.accepts token then do
            let gathered ← SharedRun.ofRun
              (Run.ofExcept (Gathered.consume ⟨attempt.tokens, attempt.node⟩ token))
            SharedRun.next place
            return some gathered
          else return none) := by
    split
    . exact consume_realises hplace token
    . exact SharedRun.Realises.pure .none
  unfold Matcher.matchElement matchElement
  apply SharedRun.Realises.bind (SharedRun.Realises.peek hplace)
  rintro token _ group ⟨rfl, rfl⟩ _
  apply SharedRun.Realises.ofRun_bind
  intro _
  apply SharedRun.Realises.ofRun_bind
  intro read
  cases read with
  | literal text => exact hterminal token (.literal text)
  | pattern regex => exact hterminal token (.pattern regex)
  | reference name =>
    dsimp only
    rw [← bind_assoc]
    apply SharedRun.Realises.ofRun_bind
    intro target
    have hlt := StreamGroup.lt_of_stream? hplace
    have hfound : SharedRun.Realises group place
        (fun found found' after => found = found' ∧ after.stream? place = some attempt.stream)
        (matcher target attempt.stream) (shared target place) := by
      apply (h target group place attempt.stream hplace).mono (Nat.le_of_lt hlt)
      intro found found' after hkeeps heq
      refine ⟨heq, ?_⟩
      rw [hkeeps place hlt]
      exact hplace
    apply SharedRun.Realises.bind hfound
    rintro found _ after ⟨rfl, hafter⟩ _
    cases found with
    | none => exact SharedRun.Realises.pure .none
    | some found => exact embed_realises hafter found

theorem matchElements_realises (h : Realises matcher shared)
    (hplace : group.stream? place = some attempt.stream) (elements : List String)
    : SharedRun.Realises group place
        (fun last gathered after => Option.Rel (Holds place · · after) last gathered)
        (Matcher.matchElements tracing matcher rule attempt elements)
        (matchElements tracing shared rule place ⟨attempt.tokens, attempt.node⟩ elements) := by
  induction elements generalizing group attempt with
  | nil => exact SharedRun.Realises.pure (.some ⟨rfl, hplace⟩)
  | cons element elements ih =>
    unfold Matcher.matchElements matchElements
    apply SharedRun.Realises.bind (matchElement_realises h hplace element)
    intro next gathered after hnext _
    cases hnext with
    | none => exact SharedRun.Realises.pure .none
    | some hnext =>
      rcases hnext with ⟨rfl, hafter⟩
      exact ih hafter

-- an option is tried on a stream that has just joined the group, so all that were there before are
-- kept, the stream of the caller among them
theorem matchOptions_realises (h : Realises matcher shared) (hplace : group.stream? place = some stream)
    (options : List (List String))
    : SharedRun.Realises group group.cursors.length (fun found found' _ => found = found')
        (Matcher.matchOptions tracing matcher rule stream options)
        (matchOptions tracing shared rule place options) := by
  induction options generalizing group with
  | nil =>
    unfold Matcher.matchOptions matchOptions
    apply SharedRun.Realises.ofRun_bind
    intro _
    exact SharedRun.Realises.pure rfl
  | cons option options ih =>
    cases option with
    | nil =>
      unfold Matcher.matchOptions matchOptions
      rw [h.detached_eq]
      apply SharedRun.Realises.ofRun_bind
      intro _
      apply SharedRun.Realises.ofRun_bind
      intro node
      apply SharedRun.Realises.ofRun_bind
      intro result
      exact SharedRun.Realises.pure rfl
    | cons element elements =>
      unfold Matcher.matchOptions matchOptions
      rw [h.detached_eq]
      apply SharedRun.Realises.duplicate_bind hplace (Nat.le_refl _)
      apply SharedRun.Realises.ofRun_bind
      intro node
      have hown : (group.add stream.position).stream? group.cursors.length
          = some (Matcher.Attempt.mk stream [] node).stream := StreamGroup.stream?_add hplace
      apply SharedRun.Realises.bind (matchElements_realises h hown _)
      intro last gathered after hlast hkeeps
      have hkeeps := (group.keeps_add stream.position).trans hkeeps
      cases hlast with
      | none =>
        have hafter : after.stream? place = some stream := by
          rw [hkeeps place (StreamGroup.lt_of_stream? hplace)]
          exact hplace
        exact (ih hafter).mono (hkeeps.length_le (Nat.le_refl _)) fun _ _ _ _ h => h
      | some hlast =>
        rcases hlast with ⟨rfl, _⟩
        apply SharedRun.Realises.ofRun_bind
        intro _
        apply SharedRun.Realises.ofRun_bind
        intro result
        exact SharedRun.Realises.pure rfl

theorem ofDepth_realises (tracing : Bool) (depth : Nat)
    : Realises (Matcher.ofDepth tracing depth) (ofDepth tracing depth) := by
  induction depth with
  | zero =>
    intro rule group place stream _
    exact SharedRun.Realises.throw .exhausted
  | succ depth ih =>
    intro rule group place stream hplace
    exact matchOptions_realises ih hplace rule.options

theorem ofSettings_realises (settings : Settings)
    : Realises (Matcher.ofSettings settings) (ofSettings settings) := by
  intro rule group place stream hplace
  apply SharedRun.Realises.look_bind hplace
  exact ofDepth_realises settings.tracing _ rule group place stream hplace

end SharedMatcher

theorem SharedRun.start_realises {matcher : Matcher} {shared : SharedMatcher} {group : StreamGroup}
    {place : Nat} {stream : TokenStream} (h : SharedMatcher.Realises matcher shared)
    (hplace : group.stream? place = some stream) (rule : Rule)
    : Realises group group.cursors.length (fun found found' _ => found = found')
        (Run.start matcher rule (.stream stream)) (start shared rule place) := by
  have hstart : Run.start matcher rule (.stream stream)
      = Run.sealing (do
        match ← Run.outcome (matcher rule stream) with
        | .ok answer => return answer
        | .error .exhausted => throw (.nesting rule.name stream.position)
        | .error fault => throw fault) := rfl
  rw [hstart]
  have hown := StreamGroup.stream?_add hplace
  have hlt := StreamGroup.lt_of_stream? hown
  apply Realises.duplicate_bind hplace (Nat.le_refl _)
  apply Realises.sealing
  have houtcome : Realises (group.add stream.position) group.cursors.length
      (fun answer answer' after => answer = answer' ∧ after.stream? group.cursors.length = some stream)
      (matcher rule stream).outcome (outcome (shared rule group.cursors.length)) := by
    apply (h rule _ _ stream hown).outcome.mono (Nat.le_of_lt hlt)
    intro answer answer' after hkeeps hanswer
    refine ⟨hanswer.eq, ?_⟩
    rw [hkeeps _ hlt]
    exact hown
  apply Realises.bind houtcome
  rintro answer _ after ⟨rfl, hafter⟩ _
  cases answer with
  | ok answer => exact Realises.pure rfl
  | error fault =>
    cases fault with
    | exhausted =>
      apply Realises.look_bind hafter
      exact Realises.throw _
    | _ => exact Realises.throw _

namespace Grammar.Entry

/--
A run on a stream of a group gives the answer of the run on the stream by itself, and however it ends
every stream of the group has its cursor where it was.
-/
theorem runShared_eq (entry : Entry) (settings : Settings) {group : StreamGroup} {place : Nat}
    {stream : TokenStream} (hplace : group.stream? place = some stream) (session : Session)
    : ∃ after, entry.runShared settings place ⟨group, session⟩
          = some ((entry.run settings (.stream stream) session).1,
            ⟨after, (entry.run settings (.stream stream) session).2⟩)
        ∧ group.Keeps group.cursors.length after := by
  have hrun : SharedRun.Realises group group.cursors.length (fun found found' _ => found = found')
      (entry.run settings (.stream stream)) (entry.runShared settings place) := by
    rw [run_eq, ← bind_assoc]
    apply SharedRun.Realises.ofRun_bind
    intro rule
    exact SharedRun.start_realises (SharedMatcher.ofSettings_realises settings) hplace rule
  rcases hrun session with ⟨answer, after, hshared, hkeeps, hanswer⟩
  have hanswer : (entry.run settings (.stream stream) session).1 = answer := hanswer.eq
  rw [← hanswer] at hshared
  exact ⟨after, hshared, hkeeps⟩

end Grammar.Entry
end TokenGrammar
