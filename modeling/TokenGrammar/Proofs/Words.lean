import Mathlib.Data.String.Basic
import TokenGrammar.Proofs.Blanking
import TokenGrammar.Proofs.Cursor
import TokenGrammar.Proofs.Revision

/-!
This module contains the texts that words are written in, with runs of blanks before, between and behind them.
The words are found again in each of these texts, be it split or given as an option of a rule. Every text is one
of them, so its words are never empty, and nothing but blanks is lost.
-/

namespace TokenGrammar
namespace Text

/--
A word has at least one character and no blanks.
-/
structure IsWord (text : String) : Prop where
  nonempty : text ≠ ""
  unbroken : ∀ c ∈ text.toList, isBlank c = false

instance (text : String) : Decidable (IsBlankText text) :=
  decidable_of_iff (text.toList.all isBlank = true) List.all_eq_true

instance (text : String) : Decidable (IsWord text) :=
  decidable_of_iff (text ≠ "" ∧ text.toList.all (!isBlank ·) = true)
    ⟨fun ⟨hne, hall⟩ => ⟨hne, by simpa using hall⟩, fun ⟨hne, hunbroken⟩ => ⟨hne, by simpa using hunbroken⟩⟩

/--
Words, each of them with the blanks behind it. There may be none behind the last word only.
-/
inductive Spaced : List (String × String) → Prop where
  | nil : Spaced []
  | cons {word gap : String} {pieces : List (String × String)} (hword : IsWord word) (hgap : IsBlankText gap)
      (hapart : pieces ≠ [] → gap ≠ "") (h : Spaced pieces)
      : Spaced ((word, gap) :: pieces)

/--
A way to write words in one text: the blanks in front of them, and the words with the blanks behind them.
-/
structure Spacing where
  margin : String
  pieces : List (String × String)
  blank : IsBlankText margin
  spaced : Spaced pieces

namespace Spacing

def words (spacing : Spacing) : List String := spacing.pieces.map Prod.fst

def text (spacing : Spacing) : String :=
  spacing.margin ++ String.join (spacing.pieces.map fun piece => piece.1 ++ piece.2)

end Spacing

theorem isBlankText_ofList {cs : List Char} (h : ∀ c ∈ cs, isBlank c = true) : IsBlankText (String.ofList cs) := by
  unfold IsBlankText
  rw [String.toList_ofList]
  exact h

theorem filter_of_isBlankText {text : String} (h : IsBlankText text) : text.toList.filter (!isBlank ·) = [] := by
  rw [List.filter_eq_nil_iff]
  intro c hc
  rw [h c hc]
  exact Bool.false_ne_true

theorem wordsOf_eq (cs : List Char)
    : wordsOf cs
        =
      match cs.dropWhile isBlank with
      | [] => []
      | c :: rest =>
        (c :: rest.takeWhile fun d => !isBlank d) :: wordsOf (rest.dropWhile fun d => !isBlank d) := by
  rw [wordsOf]
  split
  . next hnil => rw [hnil]
  . next hcons => rw [hcons]

theorem wordsOf_blanks_append {blanks : List Char} (h : ∀ c ∈ blanks, isBlank c = true) (rest : List Char)
    : wordsOf (blanks ++ rest) = wordsOf rest := by
  rw [wordsOf_eq, wordsOf_eq rest, List.dropWhile_append_of_pos h]

theorem wordsOf_word_append {word rest : List Char} (hne : word ≠ []) (hword : ∀ c ∈ word, isBlank c = false)
    (hrest : ∀ c, rest.head? = some c → isBlank c = true)
    : wordsOf (word ++ rest) = word :: wordsOf rest := by
  cases word with
  | nil => exact (hne rfl).elim
  | cons c word =>
    rw [List.forall_mem_cons] at hword
    have hunbroken : ∀ d ∈ word, (!isBlank d) = true := by simpa using hword.2
    have hends : ∀ d, rest.head? = some d → (!isBlank d) = false := by
      intro d hd
      rw [hrest d hd]
      rfl
    rw [wordsOf_eq, List.cons_append, List.dropWhile_cons_of_neg (by simp [hword.1])]
    dsimp only
    rw [takeWhile_append_of_ends hunbroken hends, dropWhile_append_of_ends hunbroken hends]

/--
The characters of words and of the blanks behind them.
-/
def charsOf (pieces : List (String × String)) : List Char :=
  pieces.flatMap fun piece => piece.1.toList ++ piece.2.toList

theorem charsOf_cons (word gap : String) (pieces : List (String × String))
    : charsOf ((word, gap) :: pieces) = word.toList ++ (gap.toList ++ charsOf pieces) := by
  rw [charsOf, List.flatMap_cons, List.append_assoc]
  rfl

namespace Spaced

variable {pieces : List (String × String)}

theorem isWord (h : Spaced pieces) {piece : String × String} (hpiece : piece ∈ pieces) : IsWord piece.1 := by
  induction h with
  | nil => cases hpiece
  | cons hword hgap hapart h ih =>
    rcases List.mem_cons.mp hpiece with rfl | hpiece
    . exact hword
    . exact ih hpiece

theorem head?_charsOf (h : Spaced pieces) (hne : pieces ≠ [])
    : ∃ c, (charsOf pieces).head? = some c ∧ isBlank c = false := by
  cases h with
  | nil => exact (hne rfl).elim
  | @cons word gap pieces hword hgap hapart h =>
    rw [charsOf_cons]
    cases hchars : word.toList with
    | nil => exact (hword.nonempty (by simpa using hchars)).elim
    | cons c rest => exact ⟨c, rfl, hword.unbroken c (by rw [hchars]; exact List.mem_cons_self)⟩

theorem wordsOf_charsOf (h : Spaced pieces)
    : wordsOf (charsOf pieces) = pieces.map fun piece => piece.1.toList := by
  induction h with
  | nil =>
    rw [charsOf, List.flatMap_nil, wordsOf_eq]
    rfl
  | @cons word gap pieces hword hgap hapart h ih =>
    have hne : word.toList ≠ [] := by simpa using hword.nonempty
    have hblank : ∀ c, (gap.toList ++ charsOf pieces).head? = some c → isBlank c = true := by
      intro c hc
      cases hchars : gap.toList with
      | nil =>
        have hlast : pieces = [] := by
          by_contra hmore
          exact hapart hmore (by simpa using hchars)
        rw [hchars, hlast] at hc
        cases hc
      | cons d rest =>
        rw [hchars] at hc
        cases hc
        exact hgap c (by rw [hchars]; exact List.mem_cons_self)
    rw [charsOf_cons, wordsOf_word_append hne hword.unbroken hblank, wordsOf_blanks_append hgap, ih,
      List.map_cons]

theorem filter_charsOf (h : Spaced pieces)
    : (charsOf pieces).filter (!isBlank ·) = pieces.flatMap fun piece => piece.1.toList := by
  induction h with
  | nil => rfl
  | @cons word gap pieces hword hgap hapart h ih =>
    have hkept : word.toList.filter (!isBlank ·) = word.toList :=
      List.filter_eq_self.mpr (by simpa using hword.unbroken)
    rw [charsOf_cons, List.filter_append, List.filter_append, hkept, filter_of_isBlankText hgap, ih,
      List.nil_append, List.flatMap_cons]

end Spaced

namespace Spacing

variable (spacing : Spacing)

theorem toList_text : spacing.text.toList = spacing.margin.toList ++ charsOf spacing.pieces := by
  unfold text charsOf
  rw [String.toList_append, String.toList_join, List.flatMap_map]
  simp only [String.toList_append]

theorem words_text : Text.words spacing.text = spacing.words := by
  unfold Text.words words
  rw [toList_text, wordsOf_blanks_append spacing.blank, spacing.spaced.wordsOf_charsOf, List.map_map]
  simp only [Function.comp_def, String.ofList_toList]

theorem join_words : String.join spacing.words = String.ofList (spacing.text.toList.filter (!isBlank ·)) := by
  rw [toList_text, List.filter_append, filter_of_isBlankText spacing.blank, spacing.spaced.filter_charsOf,
    List.nil_append, String.join_eq]
  unfold words
  rw [List.map_map]
  rfl

theorem isWord_of_mem {word : String} (h : word ∈ spacing.words) : IsWord word := by
  rcases List.mem_map.mp h with ⟨piece, hpiece, rfl⟩
  exact spacing.spaced.isWord hpiece

end Spacing

/--
Every text writes some words.
-/
theorem exists_spacing (cs : List Char) : ∃ spacing : Spacing, spacing.text.toList = cs := by
  fun_induction wordsOf cs with
  | case1 cs hnil =>
    refine ⟨⟨String.ofList cs, [], isBlankText_ofList (List.dropWhile_eq_nil_iff.mp hnil), .nil⟩, ?_⟩
    rw [Spacing.toList_text, String.toList_ofList, charsOf, List.flatMap_nil, List.append_nil]
  | case2 cs c rest hcons ih =>
    rcases ih with ⟨⟨margin, pieces, hblank, hspaced⟩, htext⟩
    rw [Spacing.toList_text] at htext
    dsimp only at htext
    have hword : IsWord (String.ofList (c :: rest.takeWhile fun d => !isBlank d)) := by
      have hfirst := List.head?_dropWhile_not isBlank cs
      rw [hcons] at hfirst
      constructor
      . simp
      . rw [String.toList_ofList, List.forall_mem_cons]
        refine ⟨hfirst, fun d hd => ?_⟩
        simpa using List.mem_takeWhile_imp hd
    -- what is behind a word begins with a blank, and the next word does not
    have hapart : pieces ≠ [] → margin ≠ "" := by
      rintro hne rfl
      rcases hspaced.head?_charsOf hne with ⟨d, hd, hunbroken⟩
      have hfirst := List.head?_dropWhile_not (fun d => !isBlank d) rest
      rw [← htext, String.toList_empty, List.nil_append, hd] at hfirst
      simp [hunbroken] at hfirst
    refine ⟨⟨String.ofList (cs.takeWhile isBlank), (_, margin) :: pieces,
      isBlankText_ofList fun _ => List.mem_takeWhile_imp, .cons hword hblank hapart hspaced⟩, ?_⟩
    rw [Spacing.toList_text, charsOf_cons, htext, String.toList_ofList, String.toList_ofList, List.cons_append,
      List.takeWhile_append_dropWhile, ← hcons, List.takeWhile_append_dropWhile]

end Text

namespace Rule

theorem withOptions_text (rule : Rule) (text : String)
    : rule.withOptions (.text text)
        = .ok ({ rule with written := [text], options := [Text.words text] }, none) := rfl

theorem make_text {name : String} (hname : name ≠ "") (text : String) (action : Option Action)
    : make (.text name) (.text text) (action.elim .absent .function)
        = (none, .ok { name, written := [text], options := [Text.words text], action }) := by
  unfold make
  rw [readName_of_nonempty hname]
  dsimp only
  rw [withOptions_text]
  cases action with
  | none => rfl
  | some action => rfl

end Rule

namespace Text

/--
Words are the same after they were written in a text, whatever blanks are put around them: the text is split into
them, and an option written as the text consists of them, when a rule is made as well as later on. Conversely, the
words of any text have characters but no blanks, and one behind another they are the text without its blanks.
-/
theorem words_of_spacing
    : (∀ spacing : Spacing,
        words spacing.text = spacing.words
          ∧ TokenStream.ofText .absent spacing.text = .ok ⟨spacing.words.toArray, 0⟩
          ∧ (∀ name ≠ "", ∀ action : Option Action,
            Rule.make (.text name) (.text spacing.text) (action.elim .absent .function)
              = (none, .ok { name, written := [spacing.text], options := [spacing.words], action }))
          ∧ ∀ rule : Rule, rule.withOptions (.text spacing.text)
            = .ok ({ rule with written := [spacing.text], options := [spacing.words] }, none))
      ∧ ∀ text : String, (∀ piece ∈ words text, IsWord piece)
        ∧ String.join (words text) = String.ofList (text.toList.filter (!isBlank ·)) := by
  constructor
  . intro spacing
    rw [← spacing.words_text]
    exact ⟨rfl, TokenStream.ofItems_texts (words spacing.text),
      fun _ hname => Rule.make_text hname spacing.text, fun rule => rule.withOptions_text spacing.text⟩
  . intro text
    rcases exists_spacing text.toList with ⟨spacing, htext⟩
    rw [← String.toList_inj.mp htext, spacing.words_text]
    exact ⟨fun _ => spacing.isWord_of_mem, spacing.join_words⟩

/--
A literal and a reference, with blanks of several kinds around them.
-/
def loose : Spacing where
  margin := "\t "
  pieces := [("\x22a", "\u2003\n"), ("S", "\x1c")]
  blank := by decide
  spaced := .cons (by decide) (by decide) (by decide) (.cons (by decide) (by decide) nofun .nil)

theorem words_of_spacing_loose
    : loose.text = "\t \x22a\u2003\nS\x1c"
      ∧ words loose.text = ["\x22a", "S"]
      ∧ "r" ≠ ""
      ∧ Rule.make (.text "r") (.text loose.text) .absent
        = (none, .ok { name := "r", written := [loose.text], options := [["\x22a", "S"]] })
      ∧ "S" ∈ words loose.text ∧ IsWord "S" := by
  have htext : loose.text = "\t \x22a\u2003\nS\x1c" := by decide
  have hname : "r" ≠ "" := by decide
  rcases words_of_spacing with ⟨hspacing, hpieces⟩
  rcases hspacing loose with ⟨hwords, _, hmake, _⟩
  have hmem : "S" ∈ words loose.text := by
    rw [hwords]
    exact List.mem_cons_of_mem _ List.mem_cons_self
  exact ⟨htext, hwords, hname, hmake "r" hname none, hmem, (hpieces loose.text).1 "S" hmem⟩

end Text
end TokenGrammar
