import TokenGrammar.Proofs.Pattern.Expression

/-!
This module contains how sets of characters are read: a set between square brackets, with all that may stand
in it, is read as the set of its members.
-/

namespace TokenGrammar
namespace Pattern

namespace Reading

/--
The reader takes what is in front of the rest, and it has an answer.
-/
def Yields (reader : Reading α) (input : List Lexeme) (answer : α) (rest : List Lexeme) : Prop :=
  ∃ h, reader input = .ok ⟨answer, rest, h⟩

theorem yields_pure (answer : α) (input : List Lexeme)
    : Yields (pure answer) input answer input :=
  ⟨Nat.le_refl _, rfl⟩

theorem Yields.bind {first : Reading α} {next : α → Reading β} {input rest rest' : List Lexeme} {a : α}
    {b : β} (hfirst : first.Yields input a rest) (hnext : (next a).Yields rest b rest')
    : Yields (first >>= next) input b rest' := by
  rcases hfirst with ⟨h, hfirst⟩
  rcases hnext with ⟨h', hnext⟩
  refine ⟨Nat.le_trans h' h, ?_⟩
  simp only [Bind.bind]
  rw [hfirst]
  dsimp only
  rw [hnext]

theorem yields_ofExcept {result : Except PatternFault α} {answer : α} (h : result = .ok answer)
    (input : List Lexeme)
    : Yields (ofExcept result) input answer input := by
  rw [h]
  exact yields_pure answer input

theorem yields_expect (lexeme : Lexeme) (rest : List Lexeme)
    : Yields expect (lexeme :: rest) lexeme rest :=
  ⟨Nat.le_succ _, rfl⟩

theorem yields_accept (c : Char) (rest : List Lexeme)
    : Yields (accept c) (.plain c :: rest) true rest := by
  refine ⟨Nat.le_succ _, ?_⟩
  unfold accept
  dsimp only
  rw [if_pos (beq_self_eq_true c)]

theorem yields_accept_ne {c : Char} {input : List Lexeme} (h : input.head? ≠ some (.plain c))
    : Yields (accept c) input false input := by
  refine ⟨Nat.le_refl _, ?_⟩
  unfold accept
  split
  . next d rest =>
    have hne : ¬ (c == d) = true := by
      rw [beq_iff_eq]
      rintro rfl
      exact h rfl
    rw [if_neg hne]
  . rfl

end Reading

open Reading (Yields yields_pure yields_ofExcept yields_expect yields_accept yields_accept_ne)

namespace Escape

section

variable {c : Char} (h : c.isAlphanum = false)

include h

theorem isDigit_of_not_alphanum : ¬ c.isDigit = true := by
  rw [Char.isAlphanum, Bool.or_eq_false_iff] at h
  rw [h.2]
  exact Bool.false_ne_true

theorem isOctalDigit_of_not_alphanum : ¬ isOctalDigit c = true := by
  intro hoctal
  apply isDigit_of_not_alphanum h
  unfold isOctalDigit at hoctal
  rw [Bool.and_eq_true, decide_eq_true_eq, decide_eq_true_eq] at hoctal
  rw [Char.isDigit, Bool.and_eq_true, decide_eq_true_eq, decide_eq_true_eq]
  exact ⟨hoctal.1, Nat.le_trans hoctal.2 (by decide)⟩

theorem lettered_of_not_alphanum : named? c = none ∧ control? c = none ∧ hexWidth? c = none := by
  refine ⟨?_, ?_, ?_⟩
  . unfold named?
    split
    case h_7 => rfl
    all_goals exact absurd h (by decide)
  . unfold control?
    split
    case h_7 => rfl
    all_goals exact absurd h (by decide)
  . unfold hexWidth?
    split
    case h_4 => rfl
    all_goals exact absurd h (by decide)

theorem itself_of_not_alphanum : itself c = pure (.code c.toNat) := by
  rw [Char.isAlphanum, Bool.or_eq_false_iff] at h
  unfold itself
  rw [h.1]
  rfl

theorem readInClass_of_not_alphanum : readInClass c = pure (.code c.toNat) := by
  rcases lettered_of_not_alphanum h with ⟨hnamed, hcontrol, hwidth⟩
  have hbackspace : ¬ (c == 'b') = true := by
    rw [beq_iff_eq]
    rintro rfl
    exact absurd h (by decide)
  unfold readInClass
  simp only [hnamed, hcontrol, hwidth]
  rw [if_neg hbackspace, if_neg (isOctalDigit_of_not_alphanum h), if_neg (isDigit_of_not_alphanum h),
    itself_of_not_alphanum h]

theorem read_of_not_alphanum : read c = pure (.code c.toNat) := by
  rcases lettered_of_not_alphanum h with ⟨hnamed, hcontrol, hwidth⟩
  unfold read
  simp only [hnamed, hcontrol, hwidth]
  split
  case h_5 => rw [if_neg (isDigit_of_not_alphanum h), itself_of_not_alphanum h]
  all_goals exact absurd h (by decide)

end

theorem readInClass_of_writes {c code : Char} (h : Writes c code)
    : readInClass c = pure (.code code.toNat) := by
  rcases h with ⟨h, rfl⟩ | h
  . exact readInClass_of_not_alphanum h
  . unfold readInClass
    rw [h]

theorem read_of_writes {c code : Char} (h : Writes c code) : read c = pure (.code code.toNat) := by
  rcases h with ⟨h, rfl⟩ | h
  . exact read_of_not_alphanum h
  . have hletter : c ∈ ['a', 't', 'n', 'v', 'f', 'r'] := by
      unfold control? at h
      split at h
      case h_7 => cases h
      all_goals decide
    have hnamed : ∀ c ∈ ['a', 't', 'n', 'v', 'f', 'r'], named? c = none := by simp [named?]
    unfold read
    rw [hnamed c hletter]
    dsimp only
    split
    case h_5 => rw [h]
    all_goals exact absurd hletter (by decide)

theorem readInClass_letter (category : Category) (negated : Bool)
    : readInClass (category.letter negated) = pure (.named category negated) := by
  cases category with
  | _ =>
    cases negated with
    | _ => rfl

theorem read_letter (category : Category) (negated : Bool)
    : read (category.letter negated) = pure (.named category negated) := by
  cases category with
  | _ =>
    cases negated with
    | _ => rfl

end Escape

namespace Member

def item : Member → ClassItem
  | .one letter => .range letter.char.toNat letter.char.toNat
  | .range first last _ _ => .range first.char.toNat last.char.toNat
  | .named category negated => .named category false negated

theorem contains_item (member : Member) (c : Char)
    : member.item.contains .exact c = true ↔ member.Contains c := by
  cases member with
  | one letter =>
    rw [Contains, ← Char.toNat_inj]
    simp only [item, ClassItem.contains, Folding.variants, List.any_cons, List.any_nil, Bool.or_false,
      Bool.and_eq_true, decide_eq_true_eq]
    omega
  | range first last _ _ =>
    simp [item, Contains, ClassItem.contains, Folding.variants]
  | named category negated =>
    rw [Contains, item, ClassItem.contains]
    cases negated with
    | _ => simp

end Member

namespace Brackets

def minusItems (brackets : Brackets) : List ClassItem :=
  if brackets.minus then [.range 45 45] else []

def charSet (brackets : Brackets) : CharSet where
  items := (brackets.first :: brackets.others).map Member.item ++ brackets.minusItems
  negated := brackets.negated

theorem contains_charSet (brackets : Brackets) (c : Char)
    : brackets.charSet.contains c = true ↔ brackets.Contains c := by
  have hminus : (brackets.minusItems.any (·.contains .exact c)) = true
      ↔ brackets.minus = true ∧ c = '-' := by
    unfold minusItems
    rw [← Char.toNat_inj]
    cases brackets.minus with
    | false => simp
    | true =>
      simp [ClassItem.contains, Folding.variants]
      omega
  have hlists : (brackets.charSet.items.any (·.contains .exact c)) = true ↔ brackets.Lists c := by
    rw [charSet, List.any_append, Bool.or_eq_true, hminus, List.any_map, List.any_eq_true]
    unfold Lists
    simp only [Function.comp, Member.contains_item]
  unfold CharSet.contains Contains
  rw [← hlists]
  cases hnegated : brackets.negated with
  | _ => simp [charSet, hnegated]

end Brackets

namespace Bracket

theorem yields_member_letter (letter : Letter) (input : List Lexeme)
    : (member false letter.lexeme).Yields input (.inl letter.char.toNat) input := by
  cases letter with
  | plain c h => exact yields_pure _ input
  | escaped c code h =>
    have hcode : (Escape.readInClass c).Yields input (.code code.toNat) input := by
      rw [Escape.readInClass_of_writes h]
      exact yields_pure _ input
    exact hcode.bind (yields_pure _ input)

theorem yields_member_named (category : Category) (negated : Bool) (input : List Lexeme)
    : (member false (.escaped (category.letter negated))).Yields input
        (.inr (.named category false negated)) input := by
  have hnamed : (Escape.readInClass (category.letter negated)).Yields input (.named category negated)
      input := by
    rw [Escape.readInClass_letter]
    exact yields_pure _ input
  exact hnamed.bind (yields_pure _ input)

theorem exists_member {member : Member} (h : ¬ member.IsRange)
    : member.lexemes.2 = [] ∧ ∃ found, item found = member.item
        ∧ ∀ input, (Bracket.member false member.lexemes.1).Yields input found input := by
  cases member with
  | one letter => exact ⟨rfl, _, rfl, yields_member_letter letter⟩
  | range first last _ _ => exact (h trivial).elim
  | named category negated => exact ⟨rfl, _, rfl, yields_member_named category negated⟩

theorem yields_part {member : Member} {rest : List Lexeme}
    (h : member.IsRange ∨ rest.head? ≠ some (.plain '-'))
    : (part false member.lexemes.1).Yields (member.lexemes.2 ++ rest) ([member.item], false) rest := by
  by_cases hrange : member.IsRange
  . cases member with
    | range first last le bracket =>
      apply (yields_member_letter first _).bind
      apply (yields_accept '-' _).bind
      apply (yields_expect last.lexeme rest).bind
      rw [if_neg (by simpa using bracket)]
      apply (yields_member_letter last rest).bind
      dsimp only
      rw [if_pos le]
      exact yields_pure _ rest
    | _ => exact hrange.elim
  . rcases exists_member hrange with ⟨hlexemes, found, hitem, hmember⟩
    rw [hlexemes, List.nil_append, ← hitem]
    apply (hmember rest).bind
    apply (yields_accept_ne (h.resolve_left hrange)).bind
    exact yields_pure _ rest

-- the minus sign that ends a set is read together with the member in front of it
theorem yields_part_minus {member : Member} (h : ¬ member.IsRange) (rest : List Lexeme)
    : (part false member.lexemes.1).Yields (member.lexemes.2 ++ .plain '-' :: .plain ']' :: rest)
        ([member.item, .range 45 45], true) rest := by
  rcases exists_member h with ⟨hlexemes, found, hitem, hmember⟩
  rw [hlexemes, List.nil_append, ← hitem]
  apply (hmember _).bind
  apply (yields_accept '-' _).bind
  apply (yields_expect (.plain ']') rest).bind
  rw [if_pos (by rfl)]
  exact yields_pure _ rest

section

variable {lexeme : Lexeme} {found items all : List ClassItem} {input rest rest' : List Lexeme}

theorem yields_parts_close (h : found ≠ [])
    : (parts false found).Yields (.plain ']' :: rest) found rest := by
  refine ⟨Nat.le_succ _, ?_⟩
  rw [parts, if_pos]
  simpa using h

theorem yields_parts_cons (hopen : lexeme ≠ .plain ']' ∨ found = [])
    (hpart : (part false lexeme).Yields input (items, false) rest)
    (hparts : (parts false (found ++ items)).Yields rest all rest')
    : (parts false found).Yields (lexeme :: input) all rest' := by
  rcases hpart with ⟨h, hpart⟩
  rcases hparts with ⟨h', hparts⟩
  refine ⟨Nat.le_succ_of_le (Nat.le_trans h' h), ?_⟩
  rw [parts, if_neg, hpart]
  . dsimp only
    rw [if_neg Bool.false_ne_true, hparts]
  . rcases hopen with hopen | rfl
    . simp [hopen]
    . simp

theorem yields_parts_last (hopen : lexeme ≠ .plain ']' ∨ found = [])
    (hpart : (part false lexeme).Yields input (items, true) rest)
    : (parts false found).Yields (lexeme :: input) (found ++ items) rest := by
  rcases hpart with ⟨h, hpart⟩
  refine ⟨Nat.le_succ_of_le h, ?_⟩
  rw [parts, if_neg, hpart]
  . dsimp only
    rw [if_pos rfl]
  . rcases hopen with hopen | rfl
    . simp [hopen]
    . simp

end

-- the induction is on the members behind the first one, whatever has been found before
theorem yields_parts {first : Member} {others : List Member} {found : List ClassItem}
    (hfollows : (first :: others).IsChain Member.Follows)
    (hopen : first.lexemes.1 ≠ .plain ']' ∨ found = []) (minus : Bool) (rest : List Lexeme)
    : (parts false found).Yields
        ((first :: others).flatMap (fun member => member.lexemes.1 :: member.lexemes.2)
          ++ ((if minus then [.plain '-'] else []) ++ .plain ']' :: rest))
        (found ++ ((first :: others).map Member.item ++ if minus then [.range 45 45] else [])) rest := by
  induction others generalizing first found with
  | nil =>
    have hsome : found ++ [first.item] ≠ [] := by simp
    rw [List.flatMap_singleton, List.cons_append]
    cases minus with
    | false => exact yields_parts_cons hopen (yields_part (.inr (by simp))) (yields_parts_close hsome)
    | true =>
      by_cases hrange : first.IsRange
      . -- behind a range the minus sign is a member by itself
        have hminus : (part false (.plain '-')).Yields (.plain ']' :: rest) ([.range 45 45], false)
            (.plain ']' :: rest) :=
          @yields_part (.one (.plain '-' (by decide))) _ (.inr (by simp))
        have hclose : (parts false (found ++ [first.item] ++ [.range 45 45])).Yields
            (.plain ']' :: rest) _ rest :=
          yields_parts_close (by simp)
        rw [List.append_assoc] at hclose
        apply yields_parts_cons hopen (yields_part (.inl hrange))
        apply yields_parts_cons (.inl (by simp)) hminus
        rw [List.append_assoc]
        exact hclose
      . exact yields_parts_last hopen (yields_part_minus hrange rest)
  | cons next others ih =>
    rw [List.isChain_cons_cons] at hfollows
    rcases hfollows with ⟨⟨hbracket, hminus⟩, hothers⟩
    rw [List.flatMap_cons, List.append_assoc, List.cons_append]
    apply yields_parts_cons hopen (yields_part (hminus.imp_right (by simp)))
    have hnext := @ih next (found ++ [first.item]) hothers (.inl hbracket)
    rw [List.append_assoc] at hnext
    exact hnext

theorem yields_caret (brackets : Brackets) (rest : List Lexeme)
    : (Reading.accept '^').Yields
        ((if brackets.negated then [.plain '^'] else []) ++ (brackets.inside ++ rest)) brackets.negated
        (brackets.inside ++ rest) := by
  have hcaret := brackets.caret
  cases hnegated : brackets.negated with
  | true => exact yields_accept '^' _
  | false =>
    rw [hnegated] at hcaret
    apply yields_accept_ne
    simpa [Brackets.inside] using hcaret

theorem yields_read (brackets : Brackets) (rest : List Lexeme)
    : (read {}).Yields ((if brackets.negated then [.plain '^'] else []) ++ (brackets.inside ++ rest))
        brackets.charSet rest := by
  have hparts := yields_parts brackets.follows (.inr rfl) brackets.minus rest
  apply (yields_caret brackets rest).bind
  unfold Brackets.inside
  rw [List.append_assoc, List.append_assoc]
  exact hparts.bind (yields_pure _ rest)

end Bracket

end Pattern
end TokenGrammar
