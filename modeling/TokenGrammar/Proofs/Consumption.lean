import TokenGrammar.Proofs.Account

/-!
This module contains what the tokens of a match have to do with the tokens that remain in the
stream. Who refers to a rule moves on by the number of tokens that the rule reports, and that falls
short of where the cursor stood inside the rule when empty tokens were stepped over there, or when a
rule matched nothing in front of a token. Tokens behind such a reference may be read a second time.
Where that is excluded a match is a subsequence of the remaining tokens.
-/

namespace TokenGrammar

/--
An empty token stands directly before one that is not empty.
-/
def Gap (tokens : List String) : Prop :=
  ∃ token, token ≠ "" ∧ ["", token] <:+: tokens

namespace Gap

theorem of_suffix {tokens tokens' : List String} (h : Gap tokens) (hsuffix : tokens <:+ tokens')
    : Gap tokens' := by
  rcases h with ⟨token, htoken, hinfix⟩
  exact ⟨token, htoken, hinfix.trans hsuffix.isInfix⟩

theorem dropWhile_of_not {tokens : List String} (h : ¬ Gap ("" :: tokens))
    : tokens.dropWhile (· == "") = [] := by
  induction tokens with
  | nil => rfl
  | cons token tokens ih =>
    have htoken : token = "" := by
      apply Classical.byContradiction
      intro hne
      apply h
      exact ⟨token, hne, [], tokens, rfl⟩
    subst htoken
    rw [List.dropWhile_cons_of_pos (by simp)]
    apply ih
    intro hgap
    exact h (hgap.of_suffix (List.suffix_cons _ _))

theorem head?_of_not {tokens : List String} {token : String} (h : ¬ Gap tokens)
    (hsight : TokenStream.inSight tokens = some token)
    : tokens.head? = some token := by
  cases tokens with
  | nil => cases hsight
  | cons first tokens =>
    by_cases hfirst : first = ""
    . subst hfirst
      rw [TokenStream.inSight_empty_cons] at hsight
      rcases List.head?_eq_some_iff.mp hsight with ⟨rest, hrest⟩
      have htoken : token = "" := by
        apply Classical.byContradiction
        intro hne
        apply h
        exact ⟨token, hne, [], rest, by rw [hrest]; rfl⟩
      rw [htoken]
      rfl
    . rw [TokenStream.inSight_cons hfirst] at hsight
      exact hsight

theorem isPrefix_of_not {tokens : List String} (h : ¬ Gap tokens)
    : (TokenStream.inSight tokens).toList <+: tokens := by
  cases hsight : TokenStream.inSight tokens with
  | none => simp
  | some token =>
    rcases List.head?_eq_some_iff.mp (head?_of_not h hsight) with ⟨rest, hrest⟩
    rw [hrest]
    simp

theorem tail_dropWhile_of_not {tokens : List String} (h : ¬ Gap tokens)
    : (tokens.dropWhile (· == "")).tail = tokens.drop (TokenStream.inSight tokens).toList.length
      ∨ (tokens.dropWhile (· == "")).tail = [] := by
  cases tokens with
  | nil =>
    left
    rfl
  | cons token tokens =>
    by_cases htoken : token = ""
    . subst htoken
      right
      rw [List.dropWhile_cons_of_pos (by simp), dropWhile_of_not h]
      rfl
    . left
      rw [TokenStream.inSight_cons htoken, List.dropWhile_cons_of_neg (by simpa using htoken)]
      rfl

end Gap

namespace TokenStream

theorem mem_of_inSight {tokens : List String} {token : String} (h : inSight tokens = some token)
    : token ∈ tokens := by
  cases tokens with
  | nil => cases h
  | cons first tokens =>
    by_cases hfirst : first = ""
    . subst hfirst
      rw [inSight_empty_cons] at h
      apply List.mem_cons_of_mem
      exact List.mem_of_mem_head? h
    . rw [inSight_cons hfirst] at h
      cases h
      exact List.mem_cons_self

theorem tail_of_inSight {tokens : List String} (h : inSight tokens = none) : tokens.tail = [] := by
  cases tokens with
  | nil => rfl
  | cons first tokens =>
    by_cases hfirst : first = ""
    . subst hfirst
      rw [inSight_empty_cons, List.head?_eq_none_iff] at h
      exact h
    . rw [inSight_cons hfirst] at h
      cases h

theorem sublist_of_inSight (tokens : List String)
    : ((inSight tokens).toList ++ (tokens.dropWhile (· == "")).tail).Sublist tokens := by
  cases tokens with
  | nil => simp
  | cons first tokens =>
    by_cases hfirst : first = ""
    . subst hfirst
      rw [inSight_empty_cons, List.dropWhile_cons_of_pos (by simp)]
      apply List.Sublist.cons
      cases tokens with
      | nil => simp
      | cons second tokens =>
        apply List.Sublist.cons_cons
        by_cases hsecond : second = ""
        . subst hsecond
          rw [List.dropWhile_cons_of_pos (by simp)]
          exact (List.tail_sublist _).trans (List.dropWhile_sublist _)
        . rw [List.dropWhile_cons_of_neg (by simpa using hsecond)]
          simp
    . rw [inSight_cons hfirst, List.dropWhile_cons_of_neg (by simpa using hfirst)]
      simp

end TokenStream

namespace Matcher

/--
The form may match nothing in front of a token: it comes down to an empty option.
-/
inductive Form.Hollow (rules : RuleSet) : Form → Prop where
  | reference {element name target} (hread : Element.read element = .ok (.reference name))
      (hfind : rules.find? name = some target) (hbody : Hollow rules (.choice target.options))
      : Hollow rules (.element element)
  | blank : Hollow rules (.sequence [])
  | single {element} (h : Hollow rules (.element element)) : Hollow rules (.sequence [element])
  | choice {option options} (hmem : option ∈ options) (h : Hollow rules (.sequence option))
      : Hollow rules (.choice options)

/--
Inside the form the cursor may get further than the number of tokens that are reported. An element
with a hollow rule makes it do so when there are elements behind it, and so does a token behind a
gap.
-/
inductive Form.Strays (rules : RuleSet) (gap : Prop) : Form → Prop where
  | terminal {element terminal} (hgap : gap) (hread : Element.read element = .ok terminal)
      (hterminal : ∀ name, terminal ≠ .reference name) : Strays rules gap (.element element)
  | reference {element name target} (hread : Element.read element = .ok (.reference name))
      (hfind : rules.find? name = some target) (hbody : Strays rules gap (.choice target.options))
      : Strays rules gap (.element element)
  | hollow {element elements} (hbehind : elements ≠ []) (h : Hollow rules (.element element))
      : Strays rules gap (.sequence (element :: elements))
  | first {element elements} (h : Strays rules gap (.element element))
      : Strays rules gap (.sequence (element :: elements))
  | rest {element elements} (h : Strays rules gap (.sequence elements))
      : Strays rules gap (.sequence (element :: elements))
  | choice {option options} (hmem : option ∈ options) (h : Strays rules gap (.sequence option))
      : Strays rules gap (.choice options)

/--
Tokens may be read a second time: a rule that strays is referred to and there are elements behind
it.
-/
inductive Form.Rereads (rules : RuleSet) (gap : Prop) : Form → Prop where
  | reference {element name target} (hread : Element.read element = .ok (.reference name))
      (hfind : rules.find? name = some target) (hbody : Rereads rules gap (.choice target.options))
      : Rereads rules gap (.element element)
  | behind {element elements name target} (hbehind : elements ≠ [])
      (hread : Element.read element = .ok (.reference name))
      (hfind : rules.find? name = some target)
      (hbody : Form.Strays rules gap (.choice target.options))
      : Rereads rules gap (.sequence (element :: elements))
  | first {element elements} (h : Rereads rules gap (.element element))
      : Rereads rules gap (.sequence (element :: elements))
  | rest {element elements} (h : Rereads rules gap (.sequence elements))
      : Rereads rules gap (.sequence (element :: elements))
  | choice {option options} (hmem : option ∈ options) (h : Rereads rules gap (.sequence option))
      : Rereads rules gap (.choice options)

section

variable {rules : RuleSet} {gap : Prop} {option : List String} {options : List (List String)}

theorem Form.Hollow.cons (h : (Form.choice options).Hollow rules)
    : (Form.choice (option :: options)).Hollow rules := by
  cases h with
  | choice hmem h => exact .choice (List.mem_cons_of_mem _ hmem) h

theorem Form.Strays.cons (h : (Form.choice options).Strays rules gap)
    : (Form.choice (option :: options)).Strays rules gap := by
  cases h with
  | choice hmem h => exact .choice (List.mem_cons_of_mem _ hmem) h

theorem Form.Rereads.cons (h : (Form.choice options).Rereads rules gap)
    : (Form.choice (option :: options)).Rereads rules gap := by
  cases h with
  | choice hmem h => exact .choice (List.mem_cons_of_mem _ hmem) h

end

namespace Yields

variable {rules : RuleSet} {gap : Prop} {form : Form} {stream after : TokenStream}
  {tokens : List String}

theorem rest_suffix (h : Yields rules form stream (some (tokens, after)))
    (hpos : 0 ≤ stream.position)
    : after.rest <:+ stream.rest.drop tokens.length := by
  rcases h.advance hpos with ⟨htokens, hposition⟩
  exact TokenStream.rest_suffix_drop hpos htokens hposition

theorem mem_drop (h : Yields rules form stream (some (tokens, after))) (hpos : 0 ≤ stream.position)
    {k : Nat} {token : String} (htoken : tokens[k]? = some token)
    : token ∈ stream.rest.drop k := by
  induction h using success_induct generalizing k with
  | @accepted _ _ _ _ sight _ hpeek hread haccepts hnext =>
    rw [TokenStream.peek_zero hpos] at hpeek
    injection hpeek with hsight
    cases sight with
    | none => simp at htoken
    | some first =>
      cases k with
      | zero =>
        cases htoken
        exact TokenStream.mem_of_inSight hsight
      | succ k => simp at htoken
  | found hpeek hread hfind hbody ih =>
    exact ih hpos htoken
  | finished =>
    simp at htoken
  | @joined _ _ stream there _ front more hfirst hrest ihfirst ihrest =>
    by_cases hk : k < front.length
    . rw [List.getElem?_append_left hk] at htoken
      exact ihfirst hpos htoken
    . rw [List.getElem?_append_right (by omega)] at htoken
      rcases hfirst.advance hpos with ⟨htokens, hthere⟩
      have hmem := ihrest (by omega) htoken
      rw [← TokenStream.rest_move (by omega)] at hmem
      have hplace : stream.position + k ≤ (there.move (k - front.length : Nat)).position := by
        rw [TokenStream.move_position]
        omega
      have hsuffix : (there.move (k - front.length : Nat)).rest <:+ stream.rest.drop k :=
        TokenStream.rest_suffix_drop hpos htokens hplace
      exact hsuffix.mem hmem
  | chosen hoption ih =>
    exact ih hpos htoken
  | passed hoption hrest ih => exact ih hpos htoken

theorem gap_of_first {there : TokenStream}
    (h : Yields rules form stream (some (tokens, there))) (hpos : 0 ≤ stream.position)
    (hgap : Gap stream.rest → gap)
    : Gap there.rest → gap := by
  intro hthere
  apply hgap
  exact hthere.of_suffix ((h.rest_suffix hpos).trans (List.drop_suffix _ _))

theorem inSight_of_nil (h : Yields rules form stream (some (tokens, after)))
    (hpos : 0 ≤ stream.position) (hstrays : ¬ form.Strays rules gap) (hhollow : ¬ form.Hollow rules)
    (htokens : tokens = [])
    : TokenStream.inSight stream.rest = none := by
  induction h using success_induct with
  | @accepted _ _ _ _ sight _ hpeek hread haccepts hnext =>
    rw [TokenStream.peek_zero hpos] at hpeek
    injection hpeek with hsight
    cases sight with
    | none => exact hsight
    | some first => cases htokens
  | found hpeek hread hfind hbody ih =>
    apply ih hpos _ _ htokens
    . intro h
      exact hstrays (.reference hread hfind h)
    . intro h
      exact hhollow (.reference hread hfind h)
  | finished => exact (hhollow .blank).elim
  | @joined element elements _ _ _ _ _ hfirst hrest ihfirst ihrest =>
    rw [List.append_eq_nil_iff] at htokens
    apply ihfirst hpos _ _ htokens.1
    . intro h
      exact hstrays (.first h)
    . intro h
      by_cases hbehind : elements = []
      . subst hbehind
        exact hhollow (.single h)
      . exact hstrays (.hollow hbehind h)
  | chosen hoption ih =>
    apply ih hpos _ _ htokens
    . intro h
      exact hstrays (.choice List.mem_cons_self h)
    . intro h
      exact hhollow (.choice List.mem_cons_self h)
  | passed hoption hrest ih =>
    apply ih hpos _ _ htokens
    . intro h
      exact hstrays h.cons
    . intro h
      exact hhollow h.cons

-- when the tokens end at the cursor, or are empty from there on, nothing is left behind it
theorem rest_of_element {element : String}
    (h : Yields rules (.element element) stream (some (tokens, after)))
    (hpos : 0 ≤ stream.position) (hgap : Gap stream.rest → gap)
    (hstrays : ¬ (Form.element element).Strays rules gap)
    (hhollow : ¬ (Form.element element).Hollow rules)
    : after.rest = stream.rest.drop tokens.length ∨ after.rest = [] := by
  have hnothing := h.inSight_of_nil hpos hstrays hhollow
  cases h with
  | accepted hpeek hread haccepts hnext =>
    rcases TokenStream.rest_of_peek_next hpos hpeek hnext with ⟨hsight, hafter⟩
    rw [hafter, ← hsight]
    apply Gap.tail_dropWhile_of_not
    intro h
    exact hstrays (.terminal (hgap h) hread (ne_reference_of_accepts haccepts))
  | found hpeek hread hfind hbody =>
    cases tokens with
    | nil =>
      right
      have := TokenStream.rest_move_one hpos
      rw [TokenStream.tail_of_inSight (hnothing rfl)] at this
      exact this
    | cons token tokens =>
      left
      rw [TokenStream.rest_move_max hpos, Nat.max_eq_left]
      simp

theorem isPrefix (h : Yields rules form stream (some (tokens, after))) (hpos : 0 ≤ stream.position)
    (hgap : Gap stream.rest → gap) (hstrays : ¬ form.Strays rules gap)
    : tokens <+: stream.rest := by
  induction h using success_induct with
  | accepted hpeek hread haccepts hnext =>
    rcases TokenStream.rest_of_peek_next hpos hpeek hnext with ⟨hsight, _⟩
    rw [← hsight]
    apply Gap.isPrefix_of_not
    intro h
    exact hstrays (.terminal (hgap h) hread (ne_reference_of_accepts haccepts))
  | found hpeek hread hfind hbody ih =>
    apply ih hpos hgap
    intro h
    exact hstrays (.reference hread hfind h)
  | finished =>
    simp
  | @joined element elements stream there _ front more hfirst hrest ihfirst ihrest =>
    have hstrays' : ¬ (Form.element element).Strays rules gap := by
      intro h
      exact hstrays (.first h)
    have hfront := ihfirst hpos hgap hstrays'
    by_cases hbehind : elements = []
    . subst hbehind
      cases hrest
      rw [List.append_nil]
      exact hfront
    . have hhollow : ¬ (Form.element element).Hollow rules := by
        intro h
        exact hstrays (.hollow hbehind h)
      rcases hfirst.advance hpos with ⟨_, hposition⟩
      have hmore := ihrest (by omega) (hfirst.gap_of_first hpos hgap)
        (fun h => hstrays (.rest h))
      rcases hfirst.rest_of_element hpos hgap hstrays' hhollow with hthere | hthere
      . rcases hfront with ⟨rest, hrest⟩
        rw [hthere, ← hrest, List.drop_left] at hmore
        rw [← hrest, List.prefix_append_right_inj]
        exact hmore
      . rw [hthere, List.prefix_nil] at hmore
        rw [hmore, List.append_nil]
        exact hfront
  | chosen hoption ih =>
    apply ih hpos hgap
    intro h
    exact hstrays (.choice List.mem_cons_self h)
  | passed hoption hrest ih =>
    apply ih hpos hgap
    intro h
    exact hstrays h.cons

theorem sublist_of_element {element : String}
    (h : Yields rules (.element element) stream (some (tokens, after))) (hpos : 0 ≤ stream.position)
    (hgap : Gap stream.rest → gap)
    (hstrays : ∀ name target, Element.read element = .ok (.reference name) →
      rules.find? name = some target → ¬ (Form.choice target.options).Strays rules gap)
    : (tokens ++ after.rest).Sublist stream.rest := by
  cases h with
  | accepted hpeek hread haccepts hnext =>
    rcases TokenStream.rest_of_peek_next hpos hpeek hnext with ⟨hsight, hafter⟩
    rw [hafter, ← hsight]
    apply TokenStream.sublist_of_inSight
  | found hpeek hread hfind hbody =>
    rcases hbody.isPrefix hpos hgap (hstrays _ _ hread hfind) with ⟨rest, hrest⟩
    have hbehind : (stream.rest.drop (max tokens.length 1)).Sublist
        (stream.rest.drop tokens.length) :=
      List.drop_sublist_drop_left _ (Nat.le_max_left _ _)
    rw [← TokenStream.rest_move_max hpos, ← hrest, List.drop_left] at hbehind
    rw [← hrest]
    exact hbehind.append_left tokens

theorem sublist (h : Yields rules form stream (some (tokens, after))) (hpos : 0 ≤ stream.position)
    (hgap : Gap stream.rest → gap) (hrereads : ¬ form.Rereads rules gap)
    : tokens.Sublist stream.rest := by
  induction h using success_induct with
  | accepted hpeek hread haccepts hnext =>
    rcases TokenStream.rest_of_peek_next hpos hpeek hnext with ⟨hsight, _⟩
    rw [← hsight]
    exact (List.sublist_append_left _ _).trans (TokenStream.sublist_of_inSight _)
  | found hpeek hread hfind hbody ih =>
    apply ih hpos hgap
    intro h
    exact hrereads (.reference hread hfind h)
  | finished =>
    simp
  | @joined element elements stream there _ front more hfirst hrest ihfirst ihrest =>
    by_cases hbehind : elements = []
    . subst hbehind
      cases hrest
      rw [List.append_nil]
      apply ihfirst hpos hgap
      intro h
      exact hrereads (.first h)
    . rcases hfirst.advance hpos with ⟨_, hposition⟩
      have hmore : more.Sublist there.rest :=
        ihrest (by omega) (hfirst.gap_of_first hpos hgap) (fun h => hrereads (.rest h))
      have hfront := hfirst.sublist_of_element hpos hgap (by
        intro name target hread hfind h
        exact hrereads (.behind hbehind hread hfind h))
      exact (hmore.append_left front).trans hfront
  | chosen hoption ih =>
    apply ih hpos hgap
    intro h
    exact hrereads (.choice List.mem_cons_self h)
  | passed hoption hrest ih =>
    apply ih hpos hgap
    intro h
    exact hrereads h.cons

end Yields
end Matcher

namespace Grammar.Entry

/--
What a match reports is what the stream holds: the token at each place of the match is found there
or further on. The tokens of a match are a subsequence of the remaining ones unless some may be read
a second time.
-/
theorem run_tokens {entry : Entry} {g : Grammar} {rule : Rule} {source : Source}
    {stream : TokenStream} {settings : Settings} {journal : Array Event} {found : Match}
    (hrule : entry.rule? g.rules = .ok rule)
    (hsource : TokenStream.openSource g.splitter source = .ok stream) (hpos : 0 ≤ stream.position)
    (hfound : (entry.run settings source ⟨g, journal⟩).1 = .ok (some found))
    : (∀ k token, found.tokens[k]? = some token → token ∈ stream.rest.drop k)
      ∧ (¬ (Matcher.Form.choice rule.options).Rereads g.rules (Gap stream.rest) →
        found.tokens.Sublist stream.rest) := by
  have hmem := RuleSet.mem_of_find? (find?_of_rule? hrule)
  rcases holds_of_run hrule hsource (Course.recognised_ofDepth hmem _ stream) hfound
    with ⟨there, hyields⟩
  constructor
  . intro k token htoken
    exact hyields.mem_drop hpos htoken
  . intro hrereads
    exact hyields.sublist hpos (fun h => h) hrereads

/--
The empty rule makes the other one step over a token, but nothing is behind a reference to that one.
-/
def overstepping : Grammar where
  rules := ⟨[{ name := "s", options := [["e", "\"a"]] }, { name := "e", options := [[]] }]⟩

theorem run_tokens_overstepping
    : ∃ found,
        (first.run {} (.stream ⟨#["z", "a"], 0⟩) ⟨overstepping, #[]⟩).1 = .ok (some found)
        ∧ found.tokens = ["a"]
        ∧ "a" ∈ ["z", "a"].drop 0
        ∧ found.tokens.Sublist ["z", "a"] := by
  have hfound : ∃ found,
      (first.run {} (.stream ⟨#["z", "a"], 0⟩) ⟨overstepping, #[]⟩).1 = .ok (some found)
      ∧ found.tokens = ["a"] := by
    apply exists_found
    decide +kernel
  have hrereads (gap : Prop)
      : ¬ (Matcher.Form.choice [["e", "\"a"]]).Rereads overstepping.rules gap := by
    have hempty : overstepping.rules.find? "e" = some { name := "e", options := [[]] } := rfl
    have hname : Element.read "e" = .ok (.reference "e") := rfl
    have hliteral : Element.read "\"a" = .ok (.literal "a") := rfl
    intro h
    cases h with
    | choice hmem h =>
      rw [List.mem_singleton.mp hmem] at h
      cases h with
      | behind _ hread hfind hbody =>
        rw [hname] at hread
        cases hread
        rw [hempty] at hfind
        cases hfind
        -- the blank option of the rule has no element that could stray
        cases hbody with
        | choice hmem h =>
          rw [List.mem_singleton.mp hmem] at h
          cases h
      | first h =>
        cases h with
        | reference hread hfind hbody =>
          rw [hname] at hread
          cases hread
          rw [hempty] at hfind
          cases hfind
          cases hbody with
          | choice hmem h =>
            rw [List.mem_singleton.mp hmem] at h
            cases h
      | rest h =>
        cases h with
        | behind hbehind => exact hbehind rfl
        | rest h => cases h
        | first h =>
          cases h with
          | reference hread =>
            rw [hliteral] at hread
            cases hread
  rcases hfound with ⟨found, hrun, htokens⟩
  have hmatch := run_tokens (show first.rule? overstepping.rules = .ok _ from rfl)
    (show TokenStream.openSource overstepping.splitter (.stream ⟨#["z", "a"], 0⟩) = .ok _ from rfl)
    (by decide) hrun
  exact ⟨found, hrun, htokens, hmatch.1 0 "a" (by rw [htokens]; rfl), hmatch.2 (hrereads _)⟩

/--
A rule is referred to twice that steps over an empty token.
-/
def doubled : Grammar where
  rules := ⟨[{ name := "r", options := [["s", "s"]] }, { name := "s", options := [["\"a"]] }]⟩

/--
The rule that oversteps, with a literal behind it.
-/
def overstepped : Grammar where
  rules := ⟨[{ name := "r", options := [["s", "\"a"]] }, { name := "s", options := [["e", "\"a"]] },
    { name := "e", options := [[]] }]⟩

-- each time the second element reads the token again that the first one has reported
theorem run_not_sublist
    : (∃ found, (first.run {} (.stream ⟨#["", "a"], 0⟩) ⟨doubled, #[]⟩).1 = .ok (some found)
        ∧ ¬ found.tokens.Sublist ["", "a"])
      ∧ ∃ found, (first.run {} (.stream ⟨#["z", "a"], 0⟩) ⟨overstepped, #[]⟩).1 = .ok (some found)
        ∧ ¬ found.tokens.Sublist ["z", "a"] := by
  have hdoubled : ∃ found,
      (first.run {} (.stream ⟨#["", "a"], 0⟩) ⟨doubled, #[]⟩).1 = .ok (some found)
      ∧ found.tokens = ["a", "a"] := by
    apply exists_found
    decide +kernel
  have hoverstepped : ∃ found,
      (first.run {} (.stream ⟨#["z", "a"], 0⟩) ⟨overstepped, #[]⟩).1 = .ok (some found)
      ∧ found.tokens = ["a", "a"] := by
    apply exists_found
    decide +kernel
  constructor
  . rcases hdoubled with ⟨found, hrun, htokens⟩
    refine ⟨found, hrun, ?_⟩
    rw [htokens]
    decide
  . rcases hoverstepped with ⟨found, hrun, htokens⟩
    refine ⟨found, hrun, ?_⟩
    rw [htokens]
    decide

end Grammar.Entry
end TokenGrammar
