import TokenGrammar.Proofs.Lookahead
import TokenGrammar.Proofs.Remainder

/-!
This module contains what empty tokens do to the match of a rule without references: nothing, as long as
no two of them stand side by side. The cursor of the run that meets them drifts away from the one of the
run that does not, yet what is ahead of the two stays the same, apart from empty tokens that stand alone.
-/

namespace TokenGrammar

/--
No two empty tokens stand side by side.
-/
def Isolated (tokens : List String) : Prop := ¬ ["", ""] <:+: tokens

instance (tokens : List String) : Decidable (Isolated tokens) :=
  inferInstanceAs (Decidable (¬ ["", ""] <:+: tokens))

theorem Isolated.of_suffix {tokens rest : List String} (h : Isolated tokens) (hrest : rest <:+ tokens)
    : Isolated rest :=
  fun hpair => h (hpair.trans hrest.isInfix)

theorem isolated_filled (tokens : List String) : Isolated (filled tokens) := by
  intro hpair
  have hmem : "" ∈ filled tokens := hpair.subset List.mem_cons_self
  exact ne_empty_of_mem_filled hmem rfl

theorem filled_filled (tokens : List String) : filled (filled tokens) = filled tokens := by
  simp [filled]

theorem filled_tail_dropWhile (tokens : List String)
    : filled (tokens.dropWhile (· == "")).tail = (filled tokens).tail := by
  induction tokens with
  | nil => rfl
  | cons token tokens ih =>
    by_cases htoken : token = ""
    . subst htoken
      rw [filled_empty_cons, ← ih]
      rfl
    . rw [filled_cons htoken, List.dropWhile_cons_of_neg (by simpa using htoken)]
      rfl

theorem Isolated.inSight_eq {tokens : List String} (h : Isolated tokens)
    : TokenStream.inSight tokens = (filled tokens).head? := by
  apply Classical.byContradiction
  intro hsight
  rcases (TokenStream.inSight_ne_iff tokens).mp hsight with ⟨hfirst, hsecond⟩
  rcases tokens with _ | ⟨first, _ | ⟨second, tokens⟩⟩
  . cases hfirst
  . cases hsecond
  . cases hfirst
    cases hsecond
    exact h (List.prefix_append ["", ""] tokens).isInfix

/--
The same tokens are left in the two streams, but for empty ones, of which no two stand side by side.
-/
structure TokenStream.SameFilled (stream stream' : TokenStream) : Prop where
  nonneg : 0 ≤ stream.position
  nonneg' : 0 ≤ stream'.position
  isolated : Isolated stream.rest
  isolated' : Isolated stream'.rest
  filled : filled stream.rest = filled stream'.rest

namespace TokenStream

variable {stream stream' : TokenStream}

theorem SameFilled.symm (h : SameFilled stream stream') : SameFilled stream' stream :=
  ⟨h.nonneg', h.nonneg, h.isolated', h.isolated, h.filled.symm⟩

theorem next_of_isolated (hpos : 0 ≤ stream.position) (h : Isolated stream.rest)
    : ∃ token after, stream.next = .ok (token, after) ∧ 0 ≤ after.position ∧ Isolated after.rest
      ∧ filled after.rest = (filled stream.rest).tail := by
  rcases next_eq hpos with ⟨after, hnext, _, hposition, hafter⟩
  have hsuffix : after.rest <:+ stream.rest := by
    rw [hafter]
    exact (List.tail_suffix _).trans (List.dropWhile_suffix _)
  refine ⟨_, after, hnext, by omega, h.of_suffix hsuffix, ?_⟩
  rw [hafter, filled_tail_dropWhile]

theorem lookalike_sameFilled : Lookalike SameFilled where
  peek := by
    intro stream stream' h
    rw [peek_zero h.nonneg, peek_zero h.nonneg', h.isolated.inSight_eq, h.isolated'.inSight_eq, h.filled]
  next := by
    intro stream stream' h
    rcases next_of_isolated h.nonneg h.isolated with ⟨_, after, hnext, hpos, hafter, hfilled⟩
    rcases next_of_isolated h.nonneg' h.isolated' with ⟨_, after', hnext', hpos', hafter', hfilled'⟩
    have hleft : filled after.rest = filled after'.rest := by rw [hfilled, hfilled', h.filled]
    rw [hnext, hnext']
    exact ⟨hpos, hpos', hafter, hafter', hleft⟩

theorem sameFilled_texts {tokens : List String} (h : Isolated tokens)
    : SameFilled ⟨tokens.toArray, 0⟩ ⟨(filled tokens).toArray, 0⟩ where
  nonneg := Int.le_refl 0
  nonneg' := Int.le_refl 0
  isolated := h
  isolated' := isolated_filled tokens
  filled := (filled_filled tokens).symm

end TokenStream

/--
The rule is made of literals and patterns, malformed ones among them. It refers to no rule.
-/
def Rule.Flat (rule : Rule) : Prop :=
  ∀ option ∈ rule.options, ∀ element ∈ option,
    Element.writesLiteral element ∨ Element.writesPattern element

instance (rule : Rule) : Decidable rule.Flat :=
  inferInstanceAs (Decidable (∀ option ∈ rule.options, ∀ element ∈ option,
    Element.writesLiteral element ∨ Element.writesPattern element))

theorem Element.read_ne_reference {element : String}
    (h : writesLiteral element ∨ writesPattern element) (name : String)
    : read element ≠ .ok (.reference name) := by
  unfold read
  split
  . nofun
  . unfold ofText
    split
    . nofun
    . next hliteral =>
      rw [if_pos (h.resolve_left hliteral)]
      cases readPattern element with
      | _ => nofun

theorem Rule.Heeds.flat {rule rule' : Rule} (h : rule.Heeds rule') (hflat : rule'.Flat) : rule.Flat := by
  unfold Flat
  rw [← h.options]
  exact hflat

section

variable {g g' : Grammar} {excused : Fault → Prop} {rule rule' : Rule} {stream stream' : TokenStream}

/--
A script that starts no run is carried out whatever the runs would be matched by.
-/
theorem Run.perform_runFree {matcher matcher' : Matcher} (hg : g.running ≠ 0) {script : Script}
    (hfree : script.RunFree)
    : Parallels g g Eq Eq (perform matcher script) (perform matcher' script) := by
  induction script using Script.induct with
  | done result => exact Parallels.pure rfl
  | fail fault => exact Parallels.throw fault
  | declare name options action next ih =>
    intro journal journal' hjournals
    rw [perform_declare hg, perform_declare hg]
    exact ih _ (hfree (.error (Grammar.refusal name))) journal journal' hjournals
  | parseAs name source next ih => exact hfree.elim
  | names next ih =>
    apply Parallels.grammar_bind
    exact ih _ (hfree g.rules.names)

namespace Matcher

theorem ofDepth_flat (hfactory : g'.factory = g.factory) (hname : rule'.name = rule.name)
    (hoptions : rule'.options = rule.options) (hflat : rule.Flat) (tracing : Bool) {depth depth' : Nat}
    (hact : ∀ node, Run.Follows excused g g' Eq Eq (Run.act (ofDepth tracing depth) rule node)
      (Run.act (ofDepth tracing depth') rule' node))
    (hplace : stream.SameFilled stream')
    : Run.Follows excused g g' Eq (Option.Rel (Match.Related Eq))
        (ofDepth tracing (depth + 1) rule stream) (ofDepth tracing (depth' + 1) rule' stream') := by
  unfold ofDepth
  rw [hoptions]
  apply matchOptions_follows (agreement_of_eq hfactory)
    TokenStream.lookalike_sameFilled hname _ _ hplace
  . intro option hoption element helement name hread
    exact (Element.read_ne_reference (hflat option hoption element helement) name hread).elim
  . rintro node _ rfl
    exact hact node

theorem ofDepth_flat_heeds (h : g.Heeds g') (hg : g.running ≠ 0) (hg' : g'.running ≠ 0)
    (hrule : rule.Heeds rule') (hflat : rule.Flat) (tracing : Bool) {depth depth' : Nat}
    (hdepth : depth ≤ depth') (hplace : stream.SameFilled stream')
    : Run.Follows Fault.OutOfDepth g g' Eq (Option.Rel (Match.Related Eq))
        (ofDepth tracing depth rule stream) (ofDepth tracing depth' rule' stream') := by
  cases depth with
  | zero => exact Run.Follows.throw_excused (.inl rfl)
  | succ depth =>
    rcases Nat.exists_eq_add_one_of_ne_zero (by omega : depth' ≠ 0) with ⟨depth', rfl⟩
    apply ofDepth_flat h.factory hrule.name hrule.options hflat tracing _ hplace
    apply Run.act_heeds h hg hg' hrule
    intro rule rule' hrule stream
    exact ofDepth_heeds tracing (by omega) h.sealed g.sealed_running_ne_zero g'.sealed_running_ne_zero
      hrule TokenStream.bisimulation_eq rfl

theorem ofDepth_flat_runFree (hg : g.running ≠ 0) (hflat : rule.Flat)
    (hfree : ∀ node, (rule.act node).RunFree) (tracing : Bool) {depth depth' : Nat}
    (hdepth : 0 < depth) (hdepth' : 0 < depth') (hplace : stream.SameFilled stream')
    : Run.Follows Run.Unexcused g g Eq (Option.Rel (Match.Related Eq))
        (ofDepth tracing depth rule stream) (ofDepth tracing depth' rule stream') := by
  rcases Nat.exists_eq_add_one_of_ne_zero (Nat.ne_of_gt hdepth) with ⟨depth, rfl⟩
  rcases Nat.exists_eq_add_one_of_ne_zero (Nat.ne_of_gt hdepth') with ⟨depth', rfl⟩
  apply ofDepth_flat rfl rfl rfl hflat tracing _ hplace
  intro node
  apply Run.Parallels.follows
  exact Run.act_parallels_of_perform Run.push_congr rfl rfl (Run.perform_runFree hg (hfree node))

end Matcher

namespace Grammar.Entry

variable {entry : Entry} {settings : Settings} {source source' : Source} {journal : Array Event}

theorem run_eq_of_sameFilled (hrule : entry.rule? g.rules = .ok rule) (hflat : rule.Flat)
    (hsource : TokenStream.openSource g.splitter source = .ok stream)
    (hsource' : TokenStream.openSource g.splitter source' = .ok stream')
    (hplace : stream.SameFilled stream')
    (hlimit : settings.nestingLimit stream.size ≤ settings.nestingLimit stream'.size)
    (hdepth : ¬ entry.NestsTooDeep settings source ⟨g, journal⟩)
    : entry.run settings source' ⟨g, journal⟩ = entry.run settings source ⟨g, journal⟩ := by
  have hopened : Run.Corresponds
      (fun stream stream' => stream.SameFilled stream'
        ∧ settings.nestingLimit stream.size ≤ settings.nestingLimit stream'.size)
      (TokenStream.openSource g.splitter source) (TokenStream.openSource g.splitter source') := by
    rw [hsource, hsource']
    exact ⟨hplace, hlimit⟩
  apply run_eq_of_follows _ hdepth
  apply run_follows g.strict_heeds.names g.strict_heeds.rules hopened
  intro target target' htarget hheeds stream stream' ⟨hplace, hlimit⟩
  rw [hrule] at htarget
  cases htarget
  exact Matcher.ofDepth_flat_heeds g.strict_heeds.sealed g.strict.sealed_running_ne_zero
    g.sealed_running_ne_zero hheeds (hheeds.flat hflat) settings.tracing hlimit hplace

-- the limit is at least one, and flat rules need no more of it, so it cannot make a difference
theorem run_eq_of_runFree (hrule : entry.rule? g.rules = .ok rule) (hflat : rule.Flat)
    (hfree : ∀ node, (rule.act node).RunFree)
    (hsource : TokenStream.openSource g.splitter source = .ok stream)
    (hsource' : TokenStream.openSource g.splitter source' = .ok stream')
    (hplace : stream.SameFilled stream') (hposition : stream'.position = stream.position)
    (hlimit : 0 < settings.nestingLimit stream.size)
    (hlimit' : 0 < settings.nestingLimit stream'.size)
    : entry.run settings source' ⟨g, journal⟩ = entry.run settings source ⟨g, journal⟩ := by
  have hopened : Run.Corresponds (fun opened opened' => opened = stream ∧ opened' = stream')
      (TokenStream.openSource g.splitter source) (TokenStream.openSource g.splitter source') := by
    rw [hsource, hsource']
    exact ⟨rfl, rfl⟩
  have hruns : Run.Follows Run.Unexcused g g Eq (Option.Rel (Match.Related Eq))
      (entry.run settings source) (entry.run settings source') := by
    rw [run_eq, run_eq]
    apply Run.Follows.grammar_bind
    apply Run.Follows.bind (Run.Parallels.ofExcept_self _).follows
    rintro target _ ⟨rfl, htarget⟩
    rw [hrule] at htarget
    cases htarget
    apply Run.Follows.start hopened
    . intro fault position hfault
      exact hfault
    . rintro fault _ _ _ ⟨rfl, rfl⟩
      rw [hposition]
    . rintro _ _ ⟨rfl, rfl⟩
      exact Matcher.ofDepth_flat_runFree g.sealed_running_ne_zero hflat hfree settings.tracing hlimit
        hlimit' hplace
  have hsame : Run.Parallels g g Eq Eq (entry.run settings source) (entry.run settings source') :=
    hruns.parallels.mono fun _ _ => Match.eq_of_related
  exact hsame.mimics.apply_eq journal

/--
A rule whose patterns also take that there is no token.
-/
def sparseRule : Rule where
  name := "sparse"
  options := [["\"a", "/b*/", "/c*/"], []]

/--
The grammar of that rule.
-/
def sparse : Grammar where
  rules := ⟨[sparseRule]⟩

end Grammar.Entry
end
end TokenGrammar
