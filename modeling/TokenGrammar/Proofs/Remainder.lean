import TokenGrammar.Proofs.Limit
import TokenGrammar.Proofs.Sharing

/-!
This module contains what a run gets to see of a stream: the tokens that are left. A run on a stream
whose cursor stands behind some tokens is the run on the list of the other ones, and it leaves the
cursor where it stands.
-/

namespace TokenGrammar

namespace TokenStream

/--
The same tokens are left in the two streams.
-/
structure SameRest (stream stream' : TokenStream) : Prop where
  nonneg : 0 ≤ stream.position
  nonneg' : 0 ≤ stream'.position
  rest : stream.rest = stream'.rest

theorem bisimulation_sameRest : Bisimulation SameRest where
  peek := by
    intro stream stream' h
    rw [peek_zero h.nonneg, peek_zero h.nonneg', h.rest]
  next := by
    intro stream stream' h
    rcases next_eq h.nonneg with ⟨after, hnext, _, hposition, hafter⟩
    rcases next_eq h.nonneg' with ⟨after', hnext', _, hposition', hafter'⟩
    have hnonneg := h.nonneg
    have hnonneg' := h.nonneg'
    have hrest : SameRest after after' := by
      refine ⟨by omega, by omega, ?_⟩
      rw [hafter, hafter', h.rest]
    rw [hnext, hnext']
    exact hrest
  move := by
    intro stream stream' count h
    have hnonneg := h.nonneg
    have hnonneg' := h.nonneg'
    refine ⟨?_, ?_, ?_⟩
    . rw [move_position]
      omega
    . rw [move_position]
      omega
    . rw [rest_move hnonneg, rest_move hnonneg', h.rest]

theorem SameRest.symm {stream stream' : TokenStream} (h : SameRest stream stream')
    : SameRest stream' stream :=
  ⟨h.nonneg', h.nonneg, h.rest.symm⟩

theorem sameRest_drop (tokens : List String) (cursor : Nat)
    : SameRest ⟨tokens.toArray, cursor⟩ ⟨(tokens.drop cursor).toArray, 0⟩ where
  nonneg := Int.natCast_nonneg cursor
  nonneg' := Int.le_refl 0
  rest := by
    rw [rest_of_nonneg (Int.natCast_nonneg cursor), rest_of_nonneg (Int.le_refl 0)]
    rfl

theorem openSource_texts (splitter : Callable Splitter) (tokens : List String)
    : openSource splitter (.ofValue (.texts tokens)) = .ok ⟨tokens.toArray, 0⟩ :=
  ofItems_texts tokens

end TokenStream

namespace Grammar.Entry

/--
The run ends because a limit is used up, its own one or that of a run that an action has started. An
action that would go on from the latter is given no chance to.
-/
def NestsTooDeep (entry : Entry) (settings : Settings) (source : Source) (session : Session) : Prop :=
  ∃ name position, (entry.run settings source ⟨session.grammar.strict, session.journal⟩).1
    = .error (.nesting name position)

variable {entry : Entry} {settings : Settings} {g : Grammar} {source source' : Source}
  {journal : Array Event}

theorem not_reportsNesting (h : ¬ entry.NestsTooDeep settings source ⟨g, journal⟩) (fault : Fault)
    (hfault : (entry.run settings source ⟨g.strict, journal⟩).1 = .error fault)
    : ¬ fault.ReportsNesting := by
  intro hnesting
  rcases hnesting.exists_nesting with ⟨name, position, rfl⟩
  exact h ⟨name, position, hfault⟩

theorem ne_nesting_of_found {session : Session} (tokens : List String)
    (h : (entry.run settings source session).1.toOption.map (Option.map Match.tokens)
      = some (some tokens))
    (name : String) (position : Int)
    : (entry.run settings source session).1 ≠ .error (.nesting name position) := by
  intro hanswer
  rcases exists_found h with ⟨found, hfound, _⟩
  rw [hfound] at hanswer
  cases hanswer

theorem not_nestsTooDeep_of_found (tokens : List String)
    (h : (entry.run settings source ⟨g.strict, journal⟩).1.toOption.map (Option.map Match.tokens)
      = some (some tokens))
    : ¬ entry.NestsTooDeep settings source ⟨g, journal⟩ := by
  rintro ⟨name, position, hanswer⟩
  exact ne_nesting_of_found tokens h name position hanswer

theorem corresponds_openSource (settings : Settings) (splitter : Callable Splitter) (source : Source)
    : Run.Corresponds
        (fun stream stream' => stream = stream'
          ∧ settings.nestingLimit stream.size ≤ settings.nestingLimit stream'.size)
        (TokenStream.openSource splitter source) (TokenStream.openSource splitter source) :=
  .refl fun _ _ => ⟨rfl, Nat.le_refl _⟩

/--
Where the actions let the errors of used up limits through, a run nests too deep only if it reports so
itself.
-/
theorem exists_nesting_of_nestsTooDeep (hstrict : g.IsStrict)
    (h : entry.NestsTooDeep settings source ⟨g, journal⟩)
    : ∃ name position, (entry.run settings source ⟨g, journal⟩).1 = .error (.nesting name position) := by
  rcases h with ⟨name, position, hanswer⟩
  rcases run_heeds hstrict.heeds_strict entry settings.tracing TokenStream.bisimulation_eq
    (corresponds_openSource settings g.splitter source) journal journal rfl
    with ⟨_, ⟨fault, hfault, hnesting⟩ | ⟨hanswers, _⟩⟩
  . rcases hnesting.exists_nesting with ⟨name, position, rfl⟩
    exact ⟨name, position, hfault⟩
  . exact ⟨name, position, hanswers.eq.trans hanswer⟩

theorem run_strict_follows (entry : Entry) (settings : Settings) (g : Grammar) (source : Source)
    : Run.Follows Fault.ReportsNesting g.strict g Eq Eq (entry.run settings source)
        (entry.run settings source) :=
  run_heeds g.strict_heeds entry settings.tracing TokenStream.bisimulation_eq
    (corresponds_openSource settings g.splitter source)

-- both runs are what the run of the strict form is
theorem run_eq_of_follows
    (h : Run.Follows Fault.ReportsNesting g.strict g Eq Eq (entry.run settings source)
      (entry.run settings source'))
    (hdepth : ¬ entry.NestsTooDeep settings source ⟨g, journal⟩)
    : entry.run settings source' ⟨g, journal⟩ = entry.run settings source ⟨g, journal⟩ := by
  have hfault := not_reportsNesting hdepth
  have hself := (run_strict_follows entry settings g source).apply_eq hfault
  exact (h.apply_eq hfault).trans hself.symm

/--
Two runs on streams in which the same tokens are left are the same, if the one with the lower limit does
not end for its nesting.
-/
theorem run_eq_of_sameRest {stream stream' : TokenStream}
    (hsource : TokenStream.openSource g.splitter source = .ok stream)
    (hsource' : TokenStream.openSource g.splitter source' = .ok stream')
    (hrest : stream.SameRest stream')
    (hlimit : settings.nestingLimit stream.size ≤ settings.nestingLimit stream'.size)
    (hdepth : ¬ entry.NestsTooDeep settings source ⟨g, journal⟩)
    : entry.run settings source' ⟨g, journal⟩ = entry.run settings source ⟨g, journal⟩ := by
  have hopened : Run.Corresponds
      (fun stream stream' => stream.SameRest stream'
        ∧ settings.nestingLimit stream.size ≤ settings.nestingLimit stream'.size)
      (TokenStream.openSource g.splitter source) (TokenStream.openSource g.splitter source') := by
    rw [hsource, hsource']
    exact ⟨hrest, hlimit⟩
  apply run_eq_of_follows _ hdepth
  exact run_heeds g.strict_heeds entry settings.tracing TokenStream.bisimulation_sameRest hopened

/--
A run on a stream sees only the tokens that are left: it gives the same answer as the run on the list of
these tokens, be it a match, the lack of one or an error, with the same calls of actions and the same
trace, unless one of the two ends for its nesting. Where actions may go on from the error of a run that
they have started, no such run may end for its nesting either. The stream may be shared with others: when
the run has ended, whichever way, the cursor is where it was.
-/
theorem run_rest (entry : Entry) (settings : Settings) (g : Grammar) (journal : Array Event)
    (tokens : List String) (cursor : Nat)
    : let ofStream := entry.run settings (.stream ⟨tokens.toArray, cursor⟩) ⟨g, journal⟩
      let ofList := entry.run settings (.ofValue (.texts (tokens.drop cursor))) ⟨g, journal⟩
      (g.IsStrict → (∀ name position, ofStream.1 ≠ .error (.nesting name position)) →
        (∀ name position, ofList.1 ≠ .error (.nesting name position)) → ofList = ofStream)
      ∧ (¬ entry.NestsTooDeep settings (.stream ⟨tokens.toArray, cursor⟩) ⟨g, journal⟩ →
        ¬ entry.NestsTooDeep settings (.ofValue (.texts (tokens.drop cursor))) ⟨g, journal⟩ →
        ofList = ofStream)
      ∧ ∀ group place, group.stream? place = some ⟨tokens.toArray, cursor⟩ →
        ∃ after, entry.runShared settings place ⟨group, ⟨g, journal⟩⟩
            = some (ofStream.1, ⟨after, ofStream.2⟩)
          ∧ after.stream? place = some ⟨tokens.toArray, cursor⟩ := by
  have hopened : TokenStream.openSource g.splitter (.stream ⟨tokens.toArray, cursor⟩)
      = .ok ⟨tokens.toArray, cursor⟩ := rfl
  have hopened' := TokenStream.openSource_texts g.splitter (tokens.drop cursor)
  have hrest := TokenStream.sameRest_drop tokens cursor
  have hshallow (hstream : ¬ entry.NestsTooDeep settings (.stream ⟨tokens.toArray, cursor⟩) ⟨g, journal⟩)
      (hlist : ¬ entry.NestsTooDeep settings (.ofValue (.texts (tokens.drop cursor))) ⟨g, journal⟩)
      : entry.run settings (.ofValue (.texts (tokens.drop cursor))) ⟨g, journal⟩
        = entry.run settings (.stream ⟨tokens.toArray, cursor⟩) ⟨g, journal⟩ := by
    rcases Nat.le_total (settings.nestingLimit (TokenStream.size ⟨tokens.toArray, cursor⟩))
      (settings.nestingLimit (TokenStream.size ⟨(tokens.drop cursor).toArray, 0⟩)) with hlimit | hlimit
    . exact run_eq_of_sameRest hopened hopened' hrest hlimit hstream
    . exact (run_eq_of_sameRest hopened' hopened hrest.symm hlimit hlist).symm
  refine ⟨?_, hshallow, ?_⟩
  . intro hstrict hstream hlist
    apply hshallow
    . intro hdeep
      rcases exists_nesting_of_nestsTooDeep hstrict hdeep with ⟨name, position, hanswer⟩
      exact hstream name position hanswer
    . intro hdeep
      rcases exists_nesting_of_nestsTooDeep hstrict hdeep with ⟨name, position, hanswer⟩
      exact hlist name position hanswer
  . intro group place hplace
    rcases entry.runShared_eq settings hplace ⟨g, journal⟩ with ⟨after, hafter, hkeeps⟩
    refine ⟨after, hafter, ?_⟩
    rw [hkeeps place (StreamGroup.lt_of_stream? hplace)]
    exact hplace

/--
A rule whose action matches two tokens of its own against another rule.
-/
def outerRule : Rule where
  name := "outer"
  options := [["\"a", "outer"], ["\"a"]]
  action := some fun _ _ => .parseAs (.text "inner") (.ofValue (.texts ["", "b"])) fun answer =>
    match answer with
    | .ok _ => .names fun names => .done (.texts names)
    | .error fault => .fail fault

/--
The grammar of this rule and of the one that its action matches.
-/
def visiting : Grammar where
  rules := ⟨[outerRule, { name := "inner", options := [["\"b"]] }]⟩

theorem visiting_isStrict : visiting.IsStrict := by
  intro rule hrule node
  rcases List.mem_cons.mp hrule with rfl | hrule
  . show Script.strict (.parseAs _ _ _) = .parseAs _ _ _
    rw [Script.strict]
    congr
    funext answer
    cases answer with
    | ok found => rfl
    | error fault =>
      cases fault with
      | _ => rfl
  . rw [List.mem_singleton.mp hrule]
    rfl

/--
What an action returns after it has started a run. It goes on from every error.
-/
def surface : Except Fault (Option Match) → Script
  | .ok _ => .done (.text "found")
  | .error _ => .done (.text "lost")

/--
A rule whose action matches a token of its own against another rule.
-/
def divingRule : Rule where
  name := "diving"
  options := [["\"a"]]
  action := some fun _ _ => .parseAs (.text "deep") (.ofValue (.texts ["b"])) surface

/--
The grammar of this rule and of the ones that its action comes to.
-/
def diving : Grammar where
  rules := ⟨[divingRule, { name := "deep", options := [["deeper"]] },
    { name := "deeper", options := [["deepest"]] }, { name := "deepest", options := [["\"b"]] }]⟩

theorem run_rest_visiting
    : first.run {} (.ofValue (.texts ["", "a", "a", "c"])) ⟨visiting, #[]⟩
        = first.run {} (.stream ⟨#["a", "", "a", "a", "c"], 1⟩) ⟨visiting, #[]⟩
      ∧ (first.run {} (.stream ⟨#["a", "", "a", "a", "c"], 1⟩) ⟨visiting, #[]⟩).1.toOption.map
          (Option.map Match.tokens) = some (some ["a", "a"])
      ∧ first.run {} (.ofValue (.texts ["a"])) ⟨diving, #[]⟩
        = first.run {} (.stream ⟨#["x", "a"], 1⟩) ⟨diving, #[]⟩
      ∧ ∃ after, first.runShared {} 1 ⟨⟨#["a", "", "a", "a", "c"], [0, 1]⟩, ⟨visiting, #[]⟩⟩
            = some ((first.run {} (.stream ⟨#["a", "", "a", "a", "c"], 1⟩) ⟨visiting, #[]⟩).1,
              ⟨after, (first.run {} (.stream ⟨#["a", "", "a", "a", "c"], 1⟩) ⟨visiting, #[]⟩).2⟩)
          ∧ after.stream? 1 = some ⟨#["a", "", "a", "a", "c"], 1⟩ := by
  have hmatch : (first.run {} (.stream ⟨#["a", "", "a", "a", "c"], 1⟩) ⟨visiting, #[]⟩).1.toOption.map
      (Option.map Match.tokens) = some (some ["a", "a"]) := by
    decide +kernel
  rcases run_rest first {} visiting #[] ["a", "", "a", "a", "c"] 1 with ⟨hanswer, _, hcursor⟩
  refine ⟨hanswer visiting_isStrict ?_ ?_, hmatch, ?_, ?_⟩
  . exact ne_nesting_of_found _ hmatch
  . exact ne_nesting_of_found ["a", "a"] (by decide +kernel)
  . apply (run_rest first {} diving #[] ["x", "a"] 1).2.1
    . exact not_nestsTooDeep_of_found ["a"] (by decide +kernel)
    . exact not_nestsTooDeep_of_found ["a"] (by decide +kernel)
  . exact hcursor ⟨#["a", "", "a", "a", "c"], [0, 1]⟩ 1 rfl

/--
An action that goes on from the error of a used up limit gives away how many tokens there are in front of
the cursor: the limit is higher where there are more of them.
-/
theorem run_rest_diving
    : (first.run ⟨false, (· + 2)⟩ (.stream ⟨#["x", "a"], 1⟩) ⟨diving, #[]⟩).1.toOption.map
          (Option.map fun found => found.result.text?) = some (some (some "found"))
      ∧ (first.run ⟨false, (· + 2)⟩ (.ofValue (.texts (["x", "a"].drop 1))) ⟨diving, #[]⟩).1.toOption.map
          (Option.map fun found => found.result.text?) = some (some (some "lost"))
      ∧ (first.run ⟨false, (· + 2)⟩ (.stream ⟨#["x", "a"], 1⟩) ⟨diving, #[]⟩).1
        ≠ (first.run ⟨false, (· + 2)⟩ (.ofValue (.texts (["x", "a"].drop 1))) ⟨diving, #[]⟩).1 := by
  have hfound : (first.run ⟨false, (· + 2)⟩ (.stream ⟨#["x", "a"], 1⟩) ⟨diving, #[]⟩).1.toOption.map
      (Option.map fun found => found.result.text?) = some (some (some "found")) := by
    decide +kernel
  have hlost : (first.run ⟨false, (· + 2)⟩ (.ofValue (.texts (["x", "a"].drop 1)))
      ⟨diving, #[]⟩).1.toOption.map (Option.map fun found => found.result.text?)
        = some (some (some "lost")) := by
    decide +kernel
  refine ⟨hfound, hlost, ?_⟩
  intro hsame
  rw [hsame, hlost] at hfound
  simp at hfound

end Grammar.Entry
end TokenGrammar
