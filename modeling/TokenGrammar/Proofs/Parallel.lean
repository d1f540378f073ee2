import TokenGrammar.Proofs.Entry

/-!
This module contains the rules for two runs side by side. The runs may have different grammars,
journals and values. `Follows` says that the second one takes the course of the first one, unless the
first one ends with an error of certain kinds: related answers, or the same error. `Parallels` is the
case in which no error is excused, and `Mimics` the one in which nothing but the grammars differs.
-/

namespace TokenGrammar
namespace Run

variable {α β γ δ : Type}

/--
The one run returns and the other one too, with related results, or both end with the same error.
-/
def Corresponds (answers : α → β → Prop) : Except Fault α → Except Fault β → Prop
  | .ok a, .ok b => answers a b
  | .error fault, .error fault' => fault = fault'
  | _, _ => False

theorem Corresponds.eq {answer answer' : Except Fault α}
    (h : Corresponds Eq answer answer')
    : answer = answer' := by
  cases answer with
  | error fault =>
    cases answer' with
    | error fault' => exact congrArg Except.error h
    | ok found' => exact h.elim
  | ok found =>
    cases answer' with
    | error fault' => exact h.elim
    | ok found' => exact congrArg Except.ok h

theorem Corresponds.eq_map {f : β → α} {answer : Except Fault α}
    {answer' : Except Fault β} (h : Corresponds (fun a b => a = f b) answer answer')
    : answer = answer'.map f := by
  cases answer with
  | error fault =>
    cases answer' with
    | error fault' => exact congrArg Except.error h
    | ok b => exact h.elim
  | ok a =>
    cases answer' with
    | error fault' => exact h.elim
    | ok b => exact congrArg Except.ok h

theorem Corresponds.mono {answers answers' : α → β → Prop} {answer : Except Fault α}
    {answer' : Except Fault β} (h : Corresponds answers' answer answer')
    (hanswers : ∀ a b, answers' a b → answers a b)
    : Corresponds answers answer answer' := by
  unfold Corresponds at *
  split at h
  . exact hanswers _ _ h
  . exact h
  . exact h

theorem Corresponds.refl {answers : α → α → Prop} {answer : Except Fault α}
    (h : ∀ a, answer = .ok a → answers a a)
    : Corresponds answers answer answer := by
  cases answer with
  | error fault => rfl
  | ok a => exact h a rfl

theorem Corresponds.bind {mid : α → β → Prop} {answers : γ → δ → Prop} {answer : Except Fault α}
    {answer' : Except Fault β} {f : α → Except Fault γ} {f' : β → Except Fault δ}
    (h : Corresponds mid answer answer')
    (hok : ∀ a b, mid a b → Corresponds answers (f a) (f' b))
    : Corresponds answers (answer >>= f) (answer' >>= f') := by
  cases answer with
  | error fault =>
    cases answer' with
    | error fault' => exact h
    | ok b => exact h.elim
  | ok a =>
    cases answer' with
    | error fault' => exact h.elim
    | ok b => exact hok a b h

theorem Corresponds.returned {answers : α → β → Prop} {answer : Except Fault α}
    {answer' : Except Fault β} (h : Corresponds answers answer answer')
    : Corresponds (fun a b => answer' = .ok b ∧ answers a b) answer answer' := by
  cases answer with
  | error fault =>
    cases answer' with
    | error fault' => exact h
    | ok b => exact h.elim
  | ok a =>
    cases answer' with
    | error fault' => exact h.elim
    | ok b => exact ⟨rfl, h⟩

/--
Started with a grammar each and with related journals, the runs leave the grammars as they are, their
answers correspond, and the journals are related again.
-/
def Parallels (g g' : Grammar) (journals : Array Event → Array Event → Prop)
    (answers : α → β → Prop) (run : Run α) (run' : Run β) : Prop :=
  ∀ journal journal', journals journal journal' →
    Corresponds answers (run ⟨g, journal⟩).1 (run' ⟨g', journal'⟩).1
    ∧ (run ⟨g, journal⟩).2.grammar = g ∧ (run' ⟨g', journal'⟩).2.grammar = g'
    ∧ journals (run ⟨g, journal⟩).2.journal (run' ⟨g', journal'⟩).2.journal

/--
The first run leaves its grammar as it is. Unless it ends with an excused error, the second one does so
too, their answers correspond, and the journals are related again.
-/
def Follows (excused : Fault → Prop) (g g' : Grammar) (journals : Array Event → Array Event → Prop)
    (answers : α → β → Prop) (run : Run α) (run' : Run β) : Prop :=
  ∀ journal journal', journals journal journal' →
    (run ⟨g, journal⟩).2.grammar = g
    ∧ ((∃ fault, (run ⟨g, journal⟩).1 = .error fault ∧ excused fault)
      ∨ Corresponds answers (run ⟨g, journal⟩).1 (run' ⟨g', journal'⟩).1
        ∧ (run' ⟨g', journal'⟩).2.grammar = g'
        ∧ journals (run ⟨g, journal⟩).2.journal (run' ⟨g', journal'⟩).2.journal)

/--
No error is excused.
-/
def Unexcused (_ : Fault) : Prop := False

theorem push_congr (event : Event) (journal journal' : Array Event) (h : journal = journal')
    : journal.push event = journal'.push event := by
  rw [h]

variable {excused excused' : Fault → Prop} {g g' : Grammar}
  {journals : Array Event → Array Event → Prop}

theorem Parallels.follows {answers : α → β → Prop} {run : Run α} {run' : Run β}
    (h : Parallels g g' journals answers run run')
    : Follows excused g g' journals answers run run' := by
  intro journal journal' hjournals
  rcases h journal journal' hjournals with ⟨hanswers, hgrammar, hgrammar', hafter⟩
  exact ⟨hgrammar, .inr ⟨hanswers, hgrammar', hafter⟩⟩

namespace Follows

theorem parallels {answers : α → β → Prop} {run : Run α} {run' : Run β}
    (h : Follows Unexcused g g' journals answers run run')
    : Parallels g g' journals answers run run' := by
  intro journal journal' hjournals
  rcases h journal journal' hjournals with
    ⟨hgrammar, ⟨fault, _, hexcused⟩ | ⟨hanswers, hgrammar', hafter⟩⟩
  . exact hexcused.elim
  . exact ⟨hanswers, hgrammar, hgrammar', hafter⟩

theorem apply_eq {run run' : Run α} (h : Follows excused g g' Eq Eq run run') {journal : Array Event}
    (hanswer : ∀ fault, (run ⟨g, journal⟩).1 = .error fault → ¬ excused fault)
    : run' ⟨g', journal⟩ = ((run ⟨g, journal⟩).1, ⟨g', (run ⟨g, journal⟩).2.journal⟩) := by
  rcases h journal journal rfl with ⟨_, ⟨fault, hfault, hexcused⟩ | ⟨hanswers, hgrammar', hjournals⟩⟩
  . exact (hanswer fault hfault hexcused).elim
  . rw [hanswers.eq, hjournals]
    rcases hrun : run' ⟨g', journal⟩ with ⟨answer, grammar, after⟩
    rw [hrun] at hgrammar'
    cases hgrammar'
    rfl

theorem pure {answers : α → β → Prop} {a : α} {b : β} (h : answers a b)
    : Follows excused g g' journals answers (pure a) (pure b) := by
  intro journal journal' hjournals
  exact ⟨rfl, .inr ⟨h, rfl, hjournals⟩⟩

theorem throw {answers : α → β → Prop} (fault : Fault)
    : Follows excused g g' journals answers (throw fault) (throw fault) := by
  intro journal journal' hjournals
  exact ⟨rfl, .inr ⟨rfl, rfl, hjournals⟩⟩

theorem throw_excused {answers : α → β → Prop} {fault : Fault} {run' : Run β} (h : excused fault)
    : Follows excused g g' journals answers (MonadExcept.throw fault) run' := by
  intro journal journal' _
  exact ⟨rfl, .inl ⟨fault, rfl, h⟩⟩

theorem mono {answers answers' : α → β → Prop} {run : Run α} {run' : Run β}
    (h : Follows excused' g g' journals answers' run run')
    (hexcused : ∀ fault, excused' fault → excused fault)
    (hanswers : ∀ a b, answers' a b → answers a b)
    : Follows excused g g' journals answers run run' := by
  intro journal journal' hjournals
  rcases h journal journal' hjournals with ⟨hgrammar, ⟨fault, hrun, hfault⟩ | ⟨hsame, hrest⟩⟩
  . exact ⟨hgrammar, .inl ⟨fault, hrun, hexcused fault hfault⟩⟩
  . exact ⟨hgrammar, .inr ⟨hsame.mono hanswers, hrest⟩⟩

theorem bind_returned {mid : α → β → Prop} {answers : γ → δ → Prop} {run : Run α} {run' : Run β}
    {f : α → Run γ} {f' : β → Run δ} (hrun : Follows excused g g' journals mid run run')
    (hok : ∀ a b, mid a b → (∃ journal, (run ⟨g, journal⟩).1 = .ok a) →
      Follows excused g g' journals answers (f a) (f' b))
    : Follows excused g g' journals answers (run >>= f) (run' >>= f') := by
  intro journal journal' hjournals
  rw [bind_apply, bind_apply]
  have hmid := hrun journal journal' hjournals
  rcases hresult : run ⟨g, journal⟩ with ⟨answer, grammar, after⟩
  rcases hresult' : run' ⟨g', journal'⟩ with ⟨answer', grammar', after'⟩
  rw [hresult, hresult'] at hmid
  rcases hmid with ⟨rfl, ⟨fault, rfl, hexcused⟩ | ⟨hanswers, rfl, hafter⟩⟩
  . exact ⟨rfl, .inl ⟨fault, rfl, hexcused⟩⟩
  . cases answer with
    | error fault =>
      cases answer' with
      | error fault' => exact ⟨rfl, .inr ⟨hanswers, rfl, hafter⟩⟩
      | ok b => exact hanswers.elim
    | ok a =>
      cases answer' with
      | error fault' => exact hanswers.elim
      | ok b =>
        have hreturned : ∃ journal, (run ⟨grammar, journal⟩).1 = .ok a := ⟨journal, by rw [hresult]⟩
        exact hok a b hanswers hreturned after after' hafter

theorem bind {mid : α → β → Prop} {answers : γ → δ → Prop} {run : Run α} {run' : Run β}
    {f : α → Run γ} {f' : β → Run δ} (hrun : Follows excused g g' journals mid run run')
    (hok : ∀ a b, mid a b → Follows excused g g' journals answers (f a) (f' b))
    : Follows excused g g' journals answers (run >>= f) (run' >>= f') :=
  hrun.bind_returned fun a b hmid _ => hok a b hmid

theorem grammar_bind {answers : α → β → Prop} {f : Grammar → Run α} {f' : Grammar → Run β}
    (h : Follows excused g g' journals answers (f g) (f' g'))
    : Follows excused g g' journals answers (Run.grammar >>= f) (Run.grammar >>= f') := by
  intro journal journal' hjournals
  exact h journal journal' hjournals

theorem ofExcept {answers : α → β → Prop} {answer : Except Fault α} {answer' : Except Fault β}
    (h : Corresponds answers answer answer')
    : Follows excused g g' journals answers (ofExcept answer) (ofExcept answer') := by
  intro journal journal' hjournals
  cases answer with
  | error fault =>
    cases answer' with
    | error fault' => exact ⟨rfl, .inr ⟨h, rfl, hjournals⟩⟩
    | ok b => exact h.elim
  | ok a =>
    cases answer' with
    | error fault' => exact h.elim
    | ok b => exact ⟨rfl, .inr ⟨h, rfl, hjournals⟩⟩

-- who looks at the outcome of the first run may go on from an excused error, but only to fail with
-- one that is excused as well
theorem outcome_bind {mid : α → β → Prop} {answers : γ → δ → Prop} {run : Run α} {run' : Run β}
    {f : Except Fault α → Run γ} {f' : Except Fault β → Run δ}
    (hrun : Follows excused' g g' journals mid run run')
    (hexcused : ∀ fault, excused' fault →
      ∃ fault', f (.error fault) = MonadExcept.throw fault' ∧ excused fault')
    (hanswer : ∀ answer answer', Corresponds mid answer answer' →
      Follows excused g g' journals answers (f answer) (f' answer'))
    : Follows excused g g' journals answers (run.outcome >>= f) (run'.outcome >>= f') := by
  intro journal journal' hjournals
  rw [bind_apply, bind_apply, outcome_apply, outcome_apply]
  have hmid := hrun journal journal' hjournals
  rcases hresult : run ⟨g, journal⟩ with ⟨answer, grammar, after⟩
  rcases hresult' : run' ⟨g', journal'⟩ with ⟨answer', grammar', after'⟩
  rw [hresult, hresult'] at hmid
  rcases hmid with ⟨rfl, ⟨fault, rfl, hfault⟩ | ⟨hanswers, rfl, hafter⟩⟩
  . rcases hexcused fault hfault with ⟨fault', hf, hfault'⟩
    dsimp only
    rw [hf]
    exact ⟨rfl, .inl ⟨fault', rfl, hfault'⟩⟩
  . exact hanswer answer answer' hanswers after after' hafter

theorem sealing {answers : α → β → Prop} {run : Run α} {run' : Run β}
    (h : Follows excused g.sealed g'.sealed journals answers run run')
    : Follows excused g g' journals answers run.sealing run'.sealing := by
  intro journal journal' hjournals
  rcases h journal journal' hjournals with ⟨hgrammar, hrest⟩
  rw [sealing_apply, sealing_apply, hgrammar]
  rcases hrest with hexcused | ⟨hanswers, hgrammar', hafter⟩
  . exact ⟨rfl, .inl hexcused⟩
  . rw [hgrammar']
    exact ⟨rfl, .inr ⟨hanswers, rfl, hafter⟩⟩

/--
Two runs are started on streams that go together. An error that the matcher is excused for is excused
when it is reported, and any other one is reported alike.
-/
theorem start {places : TokenStream → TokenStream → Prop}
    {answers : Option Match → Option Match → Prop} {matcher matcher' : Matcher}
    {rule rule' : Rule} {source source' : Source}
    (hopened : Corresponds places (TokenStream.openSource g.splitter source)
      (TokenStream.openSource g'.splitter source'))
    (hexcused : ∀ fault position, excused' fault → excused (reported rule position fault))
    (hreported : ∀ fault stream stream', ¬ excused' fault → places stream stream' →
      reported rule' stream'.position fault = reported rule stream.position fault)
    (h : ∀ stream stream', places stream stream' → Follows excused' g.sealed g'.sealed journals
      answers (matcher rule stream) (matcher' rule' stream'))
    : Follows excused g g' journals answers (start matcher rule source)
        (start matcher' rule' source') := by
  rw [start_eq, start_eq]
  apply grammar_bind
  apply bind (ofExcept hopened)
  intro stream stream' hplaces
  apply sealing
  apply outcome_bind (h stream stream' hplaces)
  . intro fault hfault
    exact ⟨_, rfl, hexcused fault stream.position hfault⟩
  . intro answer answer' hanswers
    rcases answer with fault | answer
    . rcases answer' with fault' | answer'
      . cases hanswers
        by_cases hfault : excused' fault
        . exact throw_excused (hexcused fault stream.position hfault)
        . dsimp only
          rw [hreported fault stream stream' hfault hplaces]
          exact throw _
      . exact hanswers.elim
    . rcases answer' with fault' | answer'
      . exact hanswers.elim
      . exact pure hanswers

end Follows

namespace Parallels

theorem pure {answers : α → β → Prop} {a : α} {b : β} (h : answers a b)
    : Parallels g g' journals answers (pure a) (pure b) :=
  (Follows.pure h).parallels

theorem throw {answers : α → β → Prop} (fault : Fault)
    : Parallels g g' journals answers (throw fault) (throw fault) :=
  (Follows.throw fault).parallels

theorem bind {mid : α → β → Prop} {answers : γ → δ → Prop} {run : Run α} {run' : Run β}
    {f : α → Run γ} {f' : β → Run δ} (hrun : Parallels g g' journals mid run run')
    (hok : ∀ a b, mid a b → Parallels g g' journals answers (f a) (f' b))
    : Parallels g g' journals answers (run >>= f) (run' >>= f') :=
  (hrun.follows.bind fun a b hmid => (hok a b hmid).follows).parallels

theorem mono {answers answers' : α → β → Prop} {run : Run α} {run' : Run β}
    (h : Parallels g g' journals answers' run run') (hanswers : ∀ a b, answers' a b → answers a b)
    : Parallels g g' journals answers run run' :=
  (h.follows.mono (fun _ h => h) hanswers).parallels

theorem newNode {nodes : Node → Node → Prop}
    (hasked : ∀ journal journal', journals journal journal' →
      journals (journal.push (.asked (Event.asks journal + 1)))
        (journal'.push (.asked (Event.asks journal' + 1))))
    (hmade : ∀ journal journal', journals journal journal' →
      Corresponds nodes (g.factory.newNode (Event.asks journal))
        (g'.factory.newNode (Event.asks journal')))
    : Parallels g g' journals nodes newNode newNode := by
  intro journal journal' hjournals
  rw [newNode_apply, newNode_apply]
  exact ⟨hmade journal journal' hjournals, rfl, rfl, hasked journal journal' hjournals⟩

theorem apply_eq {run run' : Run α} (h : Parallels g g' Eq Eq run run') (journal : Array Event)
    : run' ⟨g', journal⟩ = ((run ⟨g, journal⟩).1, ⟨g', (run ⟨g, journal⟩).2.journal⟩) := by
  have hfollows : Follows Unexcused g g' Eq Eq run run' := h.follows
  exact hfollows.apply_eq fun _ _ hexcused => hexcused

theorem grammar_bind {answers : α → β → Prop} {f : Grammar → Run α} {f' : Grammar → Run β}
    (h : Parallels g g' journals answers (f g) (f' g'))
    : Parallels g g' journals answers (Run.grammar >>= f) (Run.grammar >>= f') := by
  intro journal journal' hjournals
  exact h journal journal' hjournals

theorem ofExcept {answers : α → β → Prop} {answer : Except Fault α} {answer' : Except Fault β}
    (h : Corresponds answers answer answer')
    : Parallels g g' journals answers (ofExcept answer) (ofExcept answer') :=
  (Follows.ofExcept h).parallels

theorem ofExcept_self (answer : Except Fault α)
    : Parallels g g' journals (fun a b => a = b ∧ answer = .ok a) (Run.ofExcept answer)
        (Run.ofExcept answer) :=
  ofExcept (.refl fun _ hanswer => ⟨rfl, hanswer⟩)

theorem note {event event' : Event}
    (h : ∀ journal journal', journals journal journal' →
      journals (journal.push event) (journal'.push event'))
    : Parallels g g' journals (fun _ _ => True) (Run.note event) (Run.note event') := by
  intro journal journal' hjournals
  exact ⟨trivial, rfl, rfl, h journal journal' hjournals⟩

theorem trace (tracing : Bool) {line : TraceLine}
    (h : ∀ journal journal', journals journal journal' →
      journals (journal.push (.traced line)) (journal'.push (.traced line)))
    : Parallels g g' journals (fun _ _ => True) (Run.trace tracing line)
        (Run.trace tracing line) := by
  cases tracing with
  | false => exact pure trivial
  | true => exact note h

theorem outcome {answers : α → β → Prop} {run : Run α} {run' : Run β}
    (h : Parallels g g' journals answers run run')
    : Parallels g g' journals (Corresponds answers) run.outcome run'.outcome := by
  intro journal journal' hjournals
  exact h journal journal' hjournals

theorem ensures {run run' : Run α} {holds : α → Prop} {failing : Fault → Prop}
    (h : Parallels g g' Eq Eq run run') (hrun' : Ensures g' run' holds failing)
    : Ensures g run holds failing := by
  intro journal
  rcases h journal journal rfl with ⟨hanswers, hgrammar, _, _⟩
  rw [hanswers.eq]
  exact ⟨(hrun' journal).1, hgrammar⟩

theorem start_of_opened {answers : Option Match → Option Match → Prop} {matcher matcher' : Matcher}
    {rule rule' : Rule} {source : Source}
    (hopened : TokenStream.openSource g'.splitter source = TokenStream.openSource g.splitter source)
    (hname : rule'.name = rule.name)
    (h : ∀ stream, Parallels g.sealed g'.sealed journals answers (matcher rule stream)
      (matcher' rule' stream))
    : Parallels g g' journals answers (start matcher rule source)
        (start matcher' rule' source) := by
  have hplaces : Corresponds Eq (TokenStream.openSource g.splitter source)
      (TokenStream.openSource g'.splitter source) := by
    rw [hopened]
    exact .refl fun _ _ => rfl
  have hmatcher (stream stream' : TokenStream) (hstream : stream = stream')
      : Follows Unexcused g.sealed g'.sealed journals answers (matcher rule stream)
          (matcher' rule' stream') := by
    cases hstream
    exact (h stream).follows
  apply Follows.parallels
  apply Follows.start hplaces _ _ hmatcher
  . intro fault position hfault
    exact hfault
  . rintro fault stream _ _ rfl
    unfold reported
    rw [hname]

theorem start {answers : Option Match → Option Match → Prop} {matcher matcher' : Matcher}
    {rule rule' : Rule} {source : Source}
    (hsplitter : g'.splitter = g.splitter) (hname : rule'.name = rule.name)
    (h : ∀ stream, Parallels g.sealed g'.sealed journals answers (matcher rule stream)
      (matcher' rule' stream))
    : Parallels g g' journals answers (start matcher rule source)
        (start matcher' rule' source) := by
  apply start_of_opened _ hname h
  rw [hsplitter]

end Parallels

/--
Started with a grammar each, the runs leave the grammars as they are, and they end with the same
answer and the same journal.
-/
def Mimics (g g' : Grammar) (run run' : Run α) : Prop :=
  ∀ journal, (run ⟨g, journal⟩).2.grammar = g
    ∧ run' ⟨g', journal⟩ = ((run ⟨g, journal⟩).1, ⟨g', (run ⟨g, journal⟩).2.journal⟩)

theorem Parallels.mimics {run run' : Run α} (h : Parallels g g' Eq Eq run run')
    : Mimics g g' run run' := by
  intro journal
  exact ⟨(h journal journal rfl).2.1, h.apply_eq journal⟩

namespace Mimics

theorem apply_eq {run run' : Run α} (h : Mimics g g run run') (journal : Array Event)
    : run' ⟨g, journal⟩ = run ⟨g, journal⟩ := by
  rcases h journal with ⟨hgrammar, hrun'⟩
  rw [hrun']
  rcases hrun : run ⟨g, journal⟩ with ⟨answer, grammar, after⟩
  rw [hrun] at hgrammar
  cases hgrammar
  rfl

theorem parallels {run run' : Run α} (h : Mimics g g' run run')
    : Parallels g g' Eq Eq run run' := by
  rintro journal _ rfl
  rcases h journal with ⟨hgrammar, hrun'⟩
  rw [hrun']
  exact ⟨.refl fun _ _ => rfl, hgrammar, rfl, rfl⟩

theorem pure (a : α) : Mimics g g' (pure a) (pure a) :=
  (Parallels.pure rfl).mimics

theorem throw (fault : Fault) : Mimics g g' (throw fault : Run α) (throw fault) :=
  (Parallels.throw fault).mimics

theorem bind {run run' : Run α} {f f' : α → Run β} (hrun : Mimics g g' run run')
    (hok : ∀ a, Mimics g g' (f a) (f' a))
    : Mimics g g' (run >>= f) (run' >>= f') := by
  apply Parallels.mimics
  apply hrun.parallels.bind
  rintro a _ rfl
  exact (hok a).parallels

theorem grammar_bind {f f' : Grammar → Run β} (h : Mimics g g' (f g) (f' g'))
    : Mimics g g' (Run.grammar >>= f) (Run.grammar >>= f') :=
  h.parallels.grammar_bind.mimics

theorem note (event : Event) : Mimics g g' (note event) (note event) :=
  ((Parallels.note (push_congr event)).mono fun _ _ _ => rfl).mimics

theorem outcome {run run' : Run α} (h : Mimics g g' run run')
    : Mimics g g' run.outcome run'.outcome :=
  (h.parallels.outcome.mono fun _ _ => Corresponds.eq).mimics

end Mimics
end Run
end TokenGrammar
