import TokenGrammar.Proofs.Pattern.Brackets

/-!
This module contains how regular expressions are read: what is written as an expression is read as a pattern
that denotes the language of the expression. So a pattern element accepts exactly the tokens of that language.
-/

namespace TokenGrammar
namespace Pattern

open Reading (Yields yields_pure yields_ofExcept yields_expect yields_accept yields_accept_ne)

namespace Single

def charSet : Single → CharSet
  | .one letter _ => .single .exact letter.char.toNat
  | .any => .exceptLineFeed
  | .named category negated => ⟨[.named category false negated], false, .exact⟩
  | .set brackets => brackets.charSet

theorem contains_charSet (single : Single) (c : Char)
    : single.charSet.contains c = true ↔ single.Contains c := by
  cases single with
  | one letter h =>
    rw [charSet, CharSet.contains_single, beq_iff_eq]
    rfl
  | any =>
    rw [Contains, Ne, ← Char.toNat_inj]
    simp [charSet, CharSet.exceptLineFeed, CharSet.contains, ClassItem.contains, Folding.variants]
  | named category negated =>
    rw [Contains, charSet, CharSet.contains]
    cases negated with
    | _ => simp [ClassItem.contains]
  | set brackets => exact brackets.contains_charSet c

theorem denotes_charSet (single : Single)
    : (Regex.one single.charSet).Denotes (oneOf fun c => single.Contains c) :=
  Regex.denotes_one single.contains_charSet

end Single

namespace Draft

/--
The draft with further branches and items, and with other groups.
-/
def grown (draft : Draft) (branches : List Regex) (items : List Item) (groups : List (Option Width))
    : Draft :=
  { draft with
    current := { draft.current with
      branches := branches ++ draft.current.branches
      items := items ++ draft.current.items }
    groups := groups }

theorem grown_grown (draft : Draft) (branches branches' : List Regex) (items items' : List Item)
    (groups groups' : List (Option Width))
    : (draft.grown branches items groups).grown branches' items' groups'
        = draft.grown (branches' ++ branches) (items' ++ items) groups' := by
  simp [grown]

/--
The draft with a group opened in it.
-/
def opened (draft : Draft) (opener : Opener) (groups : List (Option Width)) : Draft :=
  { draft with
    current := ⟨opener, draft.current.flags, [], []⟩
    outer := draft.current :: draft.outer
    groups := groups }

theorem exists_closeGroup (draft : Draft) (opener : Opener) (groups : List (Option Width))
    (branches : List Regex) (items : List Item) (groups' : List (Option Width))
    : ∃ groups'', ((draft.opened opener groups).grown branches items groups').closeGroup
        = .ok (draft.grown [] [⟨((draft.opened opener groups).grown branches items groups').current.regex,
            .yes⟩] groups'') :=
  ⟨_, rfl⟩

/--
No flag is set, and the innermost group is no choice by a remembered text.
-/
structure Plain (draft : Draft) : Prop where
  flags : draft.flags = {}
  opener : ∀ index, draft.current.opener ≠ .whether index

theorem Plain.grown {draft : Draft} (h : draft.Plain) (branches : List Regex) (items : List Item)
    (groups : List (Option Width))
    : (draft.grown branches items groups).Plain := ⟨h.flags, h.opener⟩

theorem readAll_cons {draft draft' : Draft} {lexeme : Lexeme} {input rest : List Lexeme}
    (h : (draft.step lexeme).Yields input draft' rest)
    : draft.readAll (lexeme :: input) = draft'.readAll rest := by
  rcases h with ⟨_, h⟩
  rw [readAll, h]

theorem step_plain {draft : Draft} (h : draft.Plain) (c : Char) : draft.step (.plain c) = draft.readPlain c := by
  have hverbose : draft.flags.verbose = false := by rw [h.flags]
  unfold step
  dsimp only
  rw [hverbose]
  rfl

theorem readPlain_of_not_mem {c : Char} (h : c ∉ specials) (draft : Draft)
    : draft.readPlain c = pure (draft.add (.one (.single draft.flags.folding c.toNat))) := by
  unfold readPlain
  split
  case h_12 => rfl
  all_goals exact absurd (by decide) h

theorem yields_step_escaped {draft : Draft} {c : Char} {escape : Escape} {regex : Regex}
    (hread : Escape.read c = pure escape) (hadd : draft.addEscape escape = .ok (draft.add regex))
    (rest : List Lexeme)
    : (draft.step (.escaped c)).Yields rest (draft.add regex) rest := by
  have hescape : (Escape.read c).Yields rest escape rest := by
    rw [hread]
    exact yields_pure _ rest
  exact hescape.bind (yields_ofExcept hadd rest)

theorem readAll_single {draft : Draft} (h : draft.Plain) (single : Single) (rest : List Lexeme)
    : draft.readAll (single.lexemes ++ rest) = (draft.add (.one single.charSet)).readAll rest := by
  have hfolding : draft.flags.folding = .exact := by
    rw [h.flags]
    rfl
  have hcode (n : Nat) : draft.addEscape (.code n) = .ok (draft.add (.one (.single .exact n))) := by
    unfold addEscape
    rw [hfolding]
  cases single with
  | one letter hletter =>
    apply readAll_cons
    cases letter with
    | plain c hc =>
      have hspecial : c ∉ specials := fun hmem => hletter c hmem rfl
      dsimp only [Letter.lexeme]
      rw [step_plain h, readPlain_of_not_mem hspecial, hfolding]
      exact yields_pure _ rest
    | escaped c code hc => exact yields_step_escaped (Escape.read_of_writes hc) (hcode code.toNat) rest
  | any =>
    apply readAll_cons
    have hdot : draft.readPlain '.' = pure (draft.add (.one .exceptLineFeed)) := by
      unfold readPlain
      rw [h.flags]
      rfl
    rw [step_plain h, hdot]
    exact yields_pure _ rest
  | named category negated =>
    apply readAll_cons
    apply yields_step_escaped (Escape.read_letter category negated)
    unfold addEscape
    rw [h.flags]
    rfl
  | set brackets =>
    unfold Single.lexemes Brackets.lexemes
    rw [List.cons_append, List.append_assoc]
    apply readAll_cons
    rw [step_plain h]
    have hread := Bracket.yields_read brackets rest
    rw [← h.flags] at hread
    exact hread.bind (yields_pure _ rest)

end Draft

/--
The first lexeme is no mark that could belong to a repetition in front of it.
-/
def Unmarked (lexemes : List Lexeme) : Prop := ∀ c ∈ ['?', '+'], lexemes.head? ≠ some (.plain c)

theorem unmarked_cons {lexeme : Lexeme} (h : ∀ c ∈ ['?', '+'], lexeme ≠ .plain c) (rest : List Lexeme)
    : Unmarked (lexeme :: rest) := by
  intro c hc
  rw [List.head?_cons, Ne, Option.some.injEq]
  exact h c hc

theorem unmarked_single (single : Single) (rest : List Lexeme) : Unmarked (single.lexemes ++ rest) := by
  cases single with
  | one letter h =>
    have hspecials : ['?', '+'] ⊆ specials := by simp [specials]
    exact unmarked_cons (fun c hc => h c (hspecials hc)) rest
  | _ => exact unmarked_cons (by simp) _

/--
No expression begins with such a mark, whatever an empty branch is followed by.
-/
theorem Expression.unmarked (expression : Expression part) {rest : List Lexeme}
    (h : part ≠ .atom → Unmarked rest)
    : Unmarked (expression.lexemes ++ rest) := by
  induction expression generalizing rest with
  | one single => exact unmarked_single single rest
  | group remembered body ih => exact unmarked_cons (by simp) _
  | empty => exact h (by simp)
  | cat atom times others hatom _ =>
    rw [lexemes, List.append_assoc]
    exact hatom (by simp)
  | last branch ih => exact ih fun _ => h (by simp)
  | alt branch others hbranch _ =>
    rw [lexemes, List.append_assoc, List.cons_append]
    exact hbranch fun _ => unmarked_cons (by simp) _

namespace Draft

theorem yields_greed {rest : List Lexeme} (h : Unmarked rest) : Greed.read.Yields rest .greedy rest := by
  apply (yields_accept_ne (h '?' (by decide))).bind
  apply (yields_accept_ne (h '+' (by decide))).bind
  exact yields_pure _ rest

theorem yields_repetition (draft : Draft) (regex : Regex) (groups : List (Option Width)) (rounds : Rounds)
    {rest : List Lexeme} (h : Unmarked rest)
    : ((draft.grown [] [⟨regex, .yes⟩] groups).readRepetition rounds).Yields rest
        (draft.grown [] [⟨.rounds .greedy rounds.least rounds.most regex, .repeated⟩] groups) rest := by
  apply (yields_ofExcept rfl rest).bind
  apply (yields_greed h).bind
  exact yields_ofExcept rfl rest

theorem readAll_times {draft : Draft} (h : draft.Plain) {regex : Regex} {L : Language Char}
    (hregex : regex.Denotes L) (groups : List (Option Width)) (times : Times) {rest : List Lexeme}
    (hrest : Unmarked rest)
    : ∃ item : Item, item.regex.Denotes (times.language L)
        ∧ (draft.grown [] [⟨regex, .yes⟩] groups).readAll (times.lexemes ++ rest)
          = (draft.grown [] [item] groups).readAll rest := by
  have hplain := h.grown [] [⟨regex, .yes⟩] groups
  cases times with
  | once => exact ⟨⟨regex, .yes⟩, hregex, rfl⟩
  | star =>
    refine ⟨⟨.rounds .greedy 0 none regex, .repeated⟩, hregex.star, readAll_cons ?_⟩
    rw [step_plain hplain]
    exact yields_repetition draft regex groups ⟨0, none⟩ hrest
  | plus =>
    refine ⟨⟨.rounds .greedy 1 none regex, .repeated⟩, hregex.plus, readAll_cons ?_⟩
    rw [step_plain hplain]
    exact yields_repetition draft regex groups ⟨1, none⟩ hrest
  | perhaps =>
    refine ⟨⟨.rounds .greedy 0 (some 1) regex, .repeated⟩, hregex.perhaps, readAll_cons ?_⟩
    rw [step_plain hplain]
    exact yields_repetition draft regex groups ⟨0, some 1⟩ hrest

end Draft

namespace Regex

theorem denotes_sequence_cons {part : Regex} {parts : List Regex} {L M : Language Char}
    (hpart : part.Denotes L) (hparts : (sequence parts).Denotes M)
    : (sequence (part :: parts)).Denotes (L * M) := by
  cases parts with
  | nil =>
    refine ⟨?_, hpart.fixed⟩
    intro next N h place
    -- nothing is read for an empty sequence, so what accepts `N` accepts `M * N` as well
    have hnext : next.Accepts (M * N) := hparts.finds h
    rw [mul_assoc]
    exact hpart.finds hnext place
  | cons other parts => exact hpart.cat hparts

theorem denotes_choice_cons {branch : Regex} {branches : List Regex} {L M : Language Char}
    (hne : branches ≠ []) (hbranch : branch.Denotes L) (hbranches : (choice branches).Denotes M)
    : (choice (branch :: branches)).Denotes (L + M) := by
  cases branches with
  | nil => exact (hne rfl).elim
  | cons other branches => exact hbranch.alt hbranches

end Regex

namespace Expression

/--
What is written as an expression is read, and it denotes the language of the expression: an atom is read as
one item, a branch as the items of a branch, and a whole as branches of which the last one is still open.
-/
def Reads (draft : Draft) (rest : List Lexeme) : {part : Part} → Expression part → Prop
  | .atom, expression => ∃ regex groups, regex.Denotes expression.language
    ∧ draft.readAll (expression.lexemes ++ rest) = (draft.grown [] [⟨regex, .yes⟩] groups).readAll rest
  | .branch, expression => ∃ items groups,
    (Regex.sequence (items.reverse.map Item.regex)).Denotes expression.language
    ∧ draft.readAll (expression.lexemes ++ rest) = (draft.grown [] items groups).readAll rest
  | .whole, expression => draft.current.items = [] → ∃ branches items groups,
    (Regex.choice (branches.reverse ++ [.sequence (items.reverse.map Item.regex)])).Denotes
      expression.language
    ∧ draft.readAll (expression.lexemes ++ rest) = (draft.grown branches items groups).readAll rest

theorem reads_cat {draft : Draft} (h : draft.Plain) {rest : List Lexeme} (hrest : Unmarked rest)
    {atom : Expression .atom} {others : Expression .branch} (times : Times)
    (hatom : ∀ rest, atom.Reads draft rest)
    (hothers : ∀ {draft : Draft}, draft.Plain → others.Reads draft rest)
    : (cat atom times others).Reads draft rest := by
  have hunmarked : Unmarked (others.lexemes ++ rest) := others.unmarked fun _ => hrest
  rcases hatom (times.lexemes ++ (others.lexemes ++ rest)) with ⟨regex, groups, hregex, hread⟩
  rcases Draft.readAll_times h hregex groups times hunmarked with ⟨item, hitem, htimes⟩
  rcases hothers (h.grown [] [item] groups) with ⟨items, groups', hitems, hreads⟩
  refine ⟨items ++ [item], groups', ?_, ?_⟩
  . rw [List.reverse_append]
    exact Regex.denotes_sequence_cons hitem hitems
  . rw [lexemes, List.append_assoc, List.append_assoc, hread, htimes, hreads, Draft.grown_grown]
    rfl

theorem reads_alt {draft : Draft} (h : draft.Plain) {rest : List Lexeme}
    {branch : Expression .branch} {others : Expression .whole}
    (hbranch : ∀ {rest}, Unmarked rest → branch.Reads draft rest)
    (hothers : ∀ {draft : Draft}, draft.Plain → others.Reads draft rest)
    : (alt branch others).Reads draft rest := by
  intro hempty
  have hunmarked : Unmarked (.plain '|' :: (others.lexemes ++ rest)) := unmarked_cons (by simp) _
  rcases hbranch hunmarked with ⟨items, groups, hitems, hread⟩
  have hplain := h.grown [] items groups
  have hnext : (draft.grown [] items groups).nextBranch
      = .ok (draft.grown [.sequence (items.reverse.map Item.regex)] [] groups) := by
    unfold Draft.nextBranch
    dsimp only
    split
    . next hopener _ => exact (hplain.opener _ hopener).elim
    . simp [Draft.grown, Frame.branch, hempty]
  rcases hothers (h.grown [.sequence (items.reverse.map Item.regex)] [] groups) hempty with
    ⟨branches, items', groups', hbranches, hreads⟩
  refine ⟨branches ++ [.sequence (items.reverse.map Item.regex)], items', groups', ?_, ?_⟩
  . rw [List.reverse_append, List.append_assoc]
    exact Regex.denotes_choice_cons (by simp) hitems hbranches
  . have hstep : ((draft.grown [] items groups).step (.plain '|')).Yields (others.lexemes ++ rest)
        (draft.grown [.sequence (items.reverse.map Item.regex)] [] groups) (others.lexemes ++ rest) := by
      rw [Draft.step_plain hplain]
      exact yields_ofExcept hnext _
    rw [lexemes, List.append_assoc, List.cons_append, hread, Draft.readAll_cons hstep, hreads,
      Draft.grown_grown, List.append_nil]

/--
The opened group is closed behind its body, and what it means is one item of the group around it.
-/
theorem readAll_body {draft : Draft} (h : draft.Plain) {body : Expression .whole}
    (hbody : ∀ {draft : Draft}, draft.Plain → ∀ {rest}, Unmarked rest → body.Reads draft rest)
    {opener : Opener} (hopener : opener = .plain ∨ ∃ index, opener = .remembered index)
    (groups : List (Option Width)) (rest : List Lexeme)
    : ∃ regex groups', regex.Denotes body.language
        ∧ (draft.opened opener groups).readAll (body.lexemes ++ .plain ')' :: rest)
          = (draft.grown [] [⟨regex, .yes⟩] groups').readAll rest := by
  have hplain : (draft.opened opener groups).Plain := by
    refine ⟨h.flags, ?_⟩
    rcases hopener with rfl | ⟨index, rfl⟩
    . exact nofun
    . exact nofun
  have hunmarked : Unmarked (.plain ')' :: rest) := unmarked_cons (by simp) rest
  rcases hbody hplain hunmarked rfl with ⟨branches, items, groups', hdenotes, hread⟩
  have hgrown := hplain.grown branches items groups'
  rcases Draft.exists_closeGroup draft opener groups branches items groups' with ⟨groups'', hclose⟩
  have hstep := yields_ofExcept hclose rest
  change (((draft.opened opener groups).grown branches items groups').readPlain ')').Yields rest _ rest
    at hstep
  rw [← Draft.step_plain hgrown] at hstep
  rw [hread, Draft.readAll_cons hstep]
  refine ⟨_, groups'', ?_, rfl⟩
  rw [← List.append_nil branches, ← List.append_nil items] at hdenotes
  rcases hopener with rfl | ⟨index, rfl⟩
  . exact hdenotes
  . exact hdenotes.group index

theorem reads_group {draft : Draft} (h : draft.Plain) {body : Expression .whole}
    (hbody : ∀ {draft : Draft}, draft.Plain → ∀ {rest}, Unmarked rest → body.Reads draft rest)
    (remembered : Bool) (rest : List Lexeme)
    : (group remembered body).Reads draft rest := by
  have hunmarked : Unmarked (body.lexemes ++ .plain ')' :: rest) :=
    body.unmarked fun _ => unmarked_cons (by simp) rest
  cases remembered with
  | false =>
    have hstep : (draft.step (.plain '(')).Yields
        (.plain '?' :: .plain ':' :: (body.lexemes ++ .plain ')' :: rest))
        (draft.opened .plain draft.groups) (body.lexemes ++ .plain ')' :: rest) := by
      rw [Draft.step_plain h]
      apply (yields_accept '?' _).bind
      apply (yields_expect (.plain ':') _).bind
      exact yields_pure _ _
    rcases readAll_body h hbody (.inl rfl) draft.groups rest with ⟨regex, groups, hregex, hread⟩
    refine ⟨regex, groups, hregex, ?_⟩
    rw [← hread, ← Draft.readAll_cons hstep, lexemes]
    simp
  | true =>
    have hstep : (draft.step (.plain '(')).Yields (body.lexemes ++ .plain ')' :: rest)
        (draft.opened (.remembered (draft.groups.length + 1)) (draft.groups ++ [none]))
        (body.lexemes ++ .plain ')' :: rest) := by
      rw [Draft.step_plain h]
      apply (yields_accept_ne (hunmarked '?' (by decide))).bind
      exact yields_pure _ _
    rcases readAll_body h hbody (.inr ⟨_, rfl⟩) (draft.groups ++ [none]) rest with
      ⟨regex, groups, hregex, hread⟩
    refine ⟨regex, groups, hregex, ?_⟩
    rw [← hread, ← Draft.readAll_cons hstep, lexemes]
    simp

theorem reads (expression : Expression part) {draft : Draft} (h : draft.Plain) {rest : List Lexeme}
    (hrest : part ≠ .atom → Unmarked rest)
    : expression.Reads draft rest := by
  induction expression generalizing draft rest with
  | one single =>
    exact ⟨_, draft.groups, single.denotes_charSet, Draft.readAll_single h single rest⟩
  | group remembered body ih =>
    exact reads_group h (fun h _ hrest => ih h fun _ => hrest) remembered rest
  | empty => exact ⟨[], draft.groups, Regex.denotes_empty, rfl⟩
  | cat atom times others hatom hothers =>
    exact reads_cat h (hrest (by simp)) times (fun rest => hatom h (by simp)) fun h =>
      hothers h fun _ => hrest (by simp)
  | last branch ih =>
    intro hempty
    rcases ih h fun _ => hrest (by simp) with ⟨items, groups, hitems, hread⟩
    exact ⟨[], items, groups, hitems, hread⟩
  | alt branch others hbranch hothers =>
    exact reads_alt h (fun hrest => hbranch h fun _ => hrest) fun h => hothers h fun _ => hrest (by simp)

end Expression

/--
The lexeme stands in texts: it is no backslash by itself.
-/
def Lexeme.Proper : Lexeme → Prop
  | .plain c => c ≠ '\\'
  | .escaped _ => True
  | .dangling => False

@[simp]
theorem Lexeme.proper_plain (c : Char) : (Lexeme.plain c).Proper ↔ c ≠ '\\' := Iff.rfl

@[simp]
theorem Lexeme.proper_escaped (c : Char) : (Lexeme.escaped c).Proper := trivial

theorem Lexeme.ofChars_flatMap {lexemes : List Lexeme} (h : ∀ lexeme ∈ lexemes, lexeme.Proper)
    : ofChars (lexemes.flatMap chars) = lexemes := by
  induction lexemes with
  | nil => rfl
  | cons lexeme lexemes ih =>
    rw [List.forall_mem_cons] at h
    rw [List.flatMap_cons]
    cases lexeme with
    | plain c =>
      have hc : c ≠ '\\' := h.1
      rw [chars, List.singleton_append, ofChars, ih h.2]
      . simp [hc]
      . simp [hc]
    | escaped c =>
      show .escaped c :: ofChars (lexemes.flatMap chars) = _
      rw [ih h.2]
    | dangling => exact h.1.elim

theorem Letter.proper (letter : Letter) : letter.lexeme.Proper := by
  cases letter with
  | plain c h => exact h
  | escaped c code h => trivial

theorem Member.proper (member : Member)
    : ∀ lexeme ∈ member.lexemes.1 :: member.lexemes.2, lexeme.Proper := by
  cases member with
  | one letter => simp [lexemes, letter.proper]
  | range first last _ _ => simp [lexemes, first.proper, last.proper]
  | named category negated => simp [lexemes]

theorem Brackets.proper (brackets : Brackets) : ∀ lexeme ∈ brackets.lexemes, lexeme.Proper := by
  have hmembers : ∀ lexeme ∈ (brackets.first :: brackets.others).flatMap
      (fun member => member.lexemes.1 :: member.lexemes.2), lexeme.Proper := by
    intro lexeme hlexeme
    rcases List.mem_flatMap.mp hlexeme with ⟨member, _, hmem⟩
    exact member.proper lexeme hmem
  have hmarks (c : Char) (hc : c ≠ '\\') (b : Bool)
      : ∀ lexeme ∈ (if b then [Lexeme.plain c] else []), lexeme.Proper := by
    cases b with
    | _ => simp [hc]
  unfold lexemes inside
  rw [List.forall_mem_cons, List.forall_mem_append, List.forall_mem_append, List.forall_mem_append]
  exact ⟨by simp, hmarks '^' (by decide) _, hmembers, hmarks '-' (by decide) _,
    by simp⟩

theorem Single.proper (single : Single) : ∀ lexeme ∈ single.lexemes, lexeme.Proper := by
  cases single with
  | one letter h => simp [lexemes, letter.proper]
  | any => simp [lexemes]
  | named category negated => simp [lexemes]
  | set brackets => exact brackets.proper

theorem Times.proper (times : Times) : ∀ lexeme ∈ times.lexemes, lexeme.Proper := by
  cases times with
  | _ => simp [lexemes]

namespace Expression

theorem proper (expression : Expression part) : ∀ lexeme ∈ expression.lexemes, lexeme.Proper := by
  induction expression with
  | one single => exact single.proper
  | group remembered body ih =>
    cases remembered with
    | _ => simpa [lexemes, or_imp, forall_and] using ih
  | empty => simp [lexemes]
  | cat atom times rest hatom hrest =>
    rw [lexemes, List.forall_mem_append, List.forall_mem_append]
    exact ⟨hatom, times.proper, hrest⟩
  | last branch ih => exact ih
  | alt branch others hbranch hothers =>
    rw [lexemes, List.forall_mem_append, List.forall_mem_cons]
    exact ⟨hbranch, by simp, hothers⟩

theorem exists_ofText (expression : Expression .whole)
    : ∃ regex, Regex.ofText expression.text = .ok regex ∧ regex.Denotes expression.language := by
  have hplain : Draft.Plain {} := ⟨rfl, nofun⟩
  have hunmarked : Unmarked [] := fun _ _ => nofun
  rcases expression.reads hplain (fun _ => hunmarked) rfl with ⟨branches, items, groups, hdenotes, hread⟩
  have hregex : (Draft.grown {} branches items groups).current.regex.Denotes expression.language := by
    rw [← List.append_nil branches, ← List.append_nil items] at hdenotes
    exact hdenotes
  have hpermits (regex : Regex) : (Draft.grown {} branches items groups).permits regex = true := by
    simp [Draft.permits, Draft.grown]
  have hfinish : (Draft.grown {} branches items groups).finish
      = .ok (Draft.grown {} branches items groups).current.regex := by
    unfold Draft.finish
    rw [if_neg (by simp [Draft.grown]), if_neg (by simp [Draft.grown, Draft.flagsClash, FlagEffect.compatible]),
      if_neg (by simp [Draft.grown])]
    dsimp only
    rw [hregex.fixed, hpermits]
    rfl
  refine ⟨_, ?_, hregex⟩
  unfold Regex.ofText text
  rw [String.toList_ofList, Lexeme.ofChars_flatMap expression.proper, ← List.append_nil expression.lexemes,
    hread, Draft.readAll]
  exact hfinish

theorem toList_element (expression : Expression part)
    : expression.element.toList = '/' :: (expression.text.toList ++ ['/']) := by
  unfold element
  simp

theorem writesPattern_element (expression : Expression part)
    : Element.writesPattern expression.element = true := by
  simp [Element.writesPattern, toList_element]

theorem patternBody_element (expression : Expression part)
    : Element.patternBody expression.element = expression.text := by
  simp [Element.patternBody, toList_element]

theorem exists_ofText_element {expression : Expression .whole} (h : expression.text ≠ "")
    : ∃ regex, Element.ofText expression.element = .ok (.pattern regex)
        ∧ regex.Denotes expression.language := by
  rcases expression.exists_ofText with ⟨regex, hread, hregex⟩
  refine ⟨regex, ?_, hregex⟩
  have hliteral : ¬ Element.writesLiteral expression.element = true := by
    simp [Element.writesLiteral, toList_element]
  unfold Element.ofText Element.readPattern
  rw [if_neg hliteral, if_pos expression.writesPattern_element, expression.patternBody_element, if_neg (by simpa using h), hread]
  rfl

/--
A pattern element accepts exactly the tokens of the language of its expression. It accepts that no token is left if
the empty text is in the language.
-/
theorem patternAccepts_iff_mem_language (expression : Expression .whole) (h : expression.text ≠ "")
    : (∀ token, ∃ answer, Element.patternAccepts expression.element (some token) = .ok answer
        ∧ (answer = true ↔ token.toList ∈ expression.language))
      ∧ ∃ answer, Element.patternAccepts expression.element none = .ok answer
        ∧ (answer = true ↔ [] ∈ expression.language) := by
  rcases exists_ofText_element h with ⟨regex, hread, hregex⟩
  have haccepts (token : Option String) : Element.patternAccepts expression.element token
      = .ok (regex.matchesWhole (token.getD "")) := by
    unfold Element.patternAccepts
    rw [expression.writesPattern_element, hread]
    rfl
  constructor
  . intro token
    exact ⟨_, haccepts (some token), hregex.matchesWhole token⟩
  . exact ⟨_, haccepts none, hregex.matchesWhole ""⟩

/--
A letter that is asked for once, in front of the rest of a branch.
-/
def letter (c : Char) (hbackslash : c ≠ '\\') (hspecial : c ∉ specials)
    (rest : Expression .branch) : Expression .branch :=
  .cat (.one (.one (.plain c hbackslash) fun d hd heq => hspecial (by cases heq; exact hd))) .once rest

/--
Any number of rounds, in each of which `a`, `ab` or nothing is chosen, in this order.
-/
def starredBranches : Expression .whole :=
  .last (.cat (.group false
    (.alt (letter 'a' (by decide) (by decide) .empty)
      (.alt (letter 'a' (by decide) (by decide) (letter 'b' (by decide) (by decide) .empty))
        (.last .empty)))) .star .empty)

/--
The branch that comes first fits both letters `a` of the first token, but the whole token only fits if it is not
chosen for the second one.
-/
theorem patternAccepts_iff_mem_language_starred
    : starredBranches.text ≠ "" ∧ starredBranches.element = "/(?:a|ab|)*/"
      ∧ (Element.patternAccepts starredBranches.element (some "aab") = .ok true
        ∧ "aab".toList ∈ starredBranches.language)
      ∧ (Element.patternAccepts starredBranches.element (some "abb") = .ok false
        ∧ "abb".toList ∉ starredBranches.language)
      ∧ Element.patternAccepts starredBranches.element none = .ok true
        ∧ [] ∈ starredBranches.language := by
  have htext : starredBranches.text ≠ "" := by decide +kernel
  have hvalue {answer value : Bool} {result : Except Fault Bool} (h : result = .ok answer)
      (hresult : result.toOption = some value)
      : answer = value := by
    rw [h] at hresult
    exact Option.some.inj hresult
  rcases patternAccepts_iff_mem_language starredBranches htext with ⟨htokens, answer, hanswer, hnone⟩
  rcases htokens "aab" with ⟨first, hfirst, haccepted⟩
  rcases htokens "abb" with ⟨second, hsecond, hrefused⟩
  obtain rfl : first = true := hvalue hfirst (by decide +kernel)
  obtain rfl : second = false := hvalue hsecond (by decide +kernel)
  obtain rfl : answer = true := hvalue hanswer (by decide +kernel)
  exact ⟨htext, by decide +kernel, ⟨hfirst, haccepted.mp rfl⟩, ⟨hsecond, fun h => nomatch hrefused.mpr h⟩,
    hanswer, hnone.mp rfl⟩

end Expression

end Pattern
end TokenGrammar
