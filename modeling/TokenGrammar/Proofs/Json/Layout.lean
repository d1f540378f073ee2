import TokenGrammar.Proofs.Json.Scanning

/-!
This module contains the texts that are written for JSON documents: their tokens in order, with any number of blanks
before, between and behind them. The tokens are found again in each of these texts.
-/

namespace TokenGrammar
namespace Json

open Pattern Text

/--
A token that is written for a scalar. The digits of numbers may be of any script, those of ASCII among them.
-/
structure Token (kind : ScalarKind) where
  text : String
  mem : text.toList ∈ kind.language

/--
The trees of JSON documents. The keys of members are strings; nothing is asked of the values of tokens.
-/
inductive Tree where
  | scalar {kind : ScalarKind} (token : Token kind)
  | array (elements : List Tree)
  | object (members : List (Token .string × Tree))

/--
The characters that may stand between the tokens of a document.
-/
def blanks : List Char := [' ', '\t', '\n', '\r']

/--
The text writes the tokens with blanks around them.
-/
inductive Layout : List String → List Char → Prop where
  | nil : Layout [] []
  | blank {tokens : List String} {c : Char} {cs : List Char} (hc : c ∈ blanks) (h : Layout tokens cs)
      : Layout tokens (c :: cs)
  | token {token : String} {tokens : List String} {cs : List Char} (h : Layout tokens cs)
      : Layout (token :: tokens) (token.toList ++ cs)

/--
The token is a mark.
-/
def IsMark (token : String) : Prop := ∃ c ∈ marks, token = String.ofList [c]

/--
The tokens begin with a mark, if there are any.
-/
def MarkFirst (tokens : List String) : Prop := ∀ token, tokens.head? = some token → IsMark token

/--
The tokens are marks and scalars, and no scalar stands behind another one.
-/
inductive Parted : List String → Prop where
  | nil : Parted []
  | mark {token : String} {tokens : List String} (hmark : IsMark token) (h : Parted tokens)
      : Parted (token :: tokens)
  | scalar {kind : ScalarKind} (token : Token kind) {tokens : List String} (hfirst : MarkFirst tokens)
      (h : Parted tokens)
      : Parted (token.text :: tokens)

/--
The tokens can be put in front of a mark.
-/
def Closed (tokens : List String) : Prop :=
  ∀ {rest}, MarkFirst rest → Parted rest → Parted (tokens ++ rest)

namespace Tree

theorem sizeOf_member {member : Token .string × Tree} {members : List (Token .string × Tree)}
    (h : member ∈ members)
    : sizeOf member.2 < sizeOf (object members) := by
  have hmember := List.sizeOf_lt_of_mem h
  rcases member with ⟨key, tree⟩
  simp only [Prod.mk.sizeOf_spec, object.sizeOf_spec] at *
  omega

/--
The tokens that write a document.
-/
def tokens : Tree → List String
  | .scalar token => [token.text]
  | .array elements =>
    "[" :: ([","].intercalate (elements.map fun element => element.tokens) ++ ["]"])
  | .object members =>
    "\x7b" ::
      ([","].intercalate (members.map fun member => member.1.text :: ":" :: member.2.tokens)
        ++ ["\x7d"])
termination_by tree => sizeOf tree
decreasing_by
  . have := List.sizeOf_lt_of_mem ‹_›
    simp only [array.sizeOf_spec]
    omega
  . exact sizeOf_member ‹_›

end Tree

theorem isMark_ofList {c : Char} (hc : c ∈ marks) : IsMark (String.ofList [c]) := ⟨c, hc, rfl⟩

theorem MarkFirst.cons {token : String} (h : IsMark token) (tokens : List String)
    : MarkFirst (token :: tokens) := by
  intro first hfirst
  cases hfirst
  exact h

theorem MarkFirst.nil : MarkFirst [] := by
  intro token hnone
  cases hnone

theorem closed_intercalate {pieces : List (List String)} (h : ∀ piece ∈ pieces, Closed piece)
    : Closed ([","].intercalate pieces) := by
  have hcomma : IsMark "," := isMark_ofList (c := ',') (by decide)
  induction pieces with
  | nil =>
    intro rest _ hrest
    exact hrest
  | cons piece pieces ih =>
    rw [List.forall_mem_cons] at h
    intro rest hfirst hrest
    by_cases hpieces : pieces = []
    . subst hpieces
      rw [List.intercalate_singleton]
      exact h.1 hfirst hrest
    . rw [List.intercalate_cons_of_ne_nil hpieces, List.append_assoc, List.append_assoc]
      exact h.1 (.cons hcomma _) (.mark hcomma (ih h.2 hfirst hrest))

-- the brackets of a list are marks, and so are the commas between its parts
theorem closed_enclosed {opening closing : String} {pieces : List (List String)} (hopening : IsMark opening)
    (hclosing : IsMark closing) (h : ∀ piece ∈ pieces, Closed piece)
    : Closed (opening :: ([","].intercalate pieces ++ [closing])) := by
  intro rest _ hrest
  rw [List.cons_append, List.append_assoc]
  exact .mark hopening (closed_intercalate h (.cons hclosing rest) (.mark hclosing hrest))

theorem closed_tokens (tree : Tree) : Closed tree.tokens := by
  match tree with
  | .scalar token =>
    rw [Tree.tokens]
    intro rest hfirst hrest
    exact .scalar token hfirst hrest
  | .array elements =>
    rw [Tree.tokens]
    apply closed_enclosed (isMark_ofList (c := '[') (by decide)) (isMark_ofList (c := ']') (by decide))
    intro piece hpiece
    rcases List.mem_map.mp hpiece with ⟨element, helement, rfl⟩
    exact closed_tokens element
  | .object members =>
    have hcolon : IsMark ":" := isMark_ofList (c := ':') (by decide)
    rw [Tree.tokens]
    apply closed_enclosed (isMark_ofList (c := '\x7b') (by decide)) (isMark_ofList (c := '\x7d') (by decide))
    intro piece hpiece
    rcases List.mem_map.mp hpiece with ⟨member, hmember, rfl⟩
    intro rest hfirst hrest
    exact .scalar member.1 (.cons hcolon _) (.mark hcolon (closed_tokens member.2 hfirst hrest))
termination_by sizeOf tree
decreasing_by
  . have := List.sizeOf_lt_of_mem helement
    simp only [Tree.array.sizeOf_spec]
    omega
  . exact Tree.sizeOf_member hmember

theorem lexer_blank {c : Char} (hc : c ∈ blanks) (rest : List Char) : lexer (c :: rest) = 0 := by
  have hothers : ∀ c ∈ blanks, Other c := by simp [blanks, Other, marks, BeginsNumber]
  exact lexer_of_other (hothers c hc) rest

theorem lexer_mark {c : Char} (hc : c ∈ marks) (rest : List Char) : lexer (c :: rest) = 1 := by
  have hothers : ∀ c ∈ marks, c ≠ '\x22' ∧ ¬ BeginsNumber c := by simp [marks, BeginsNumber]
  rw [lexer_cons, lexerFor, if_neg (hothers c hc).1, if_neg (hothers c hc).2, if_pos hc,
    markLexer_of_mem hc]

theorem numberLexer_scalar {token rest : List Char} (h : token ∈ ScalarKind.number.language)
    (hrest : ∀ c, rest.head? = some c → c ∈ blanks ++ marks)
    : numberLexer (token ++ rest) = token.length := by
  have hdigits : (blanks ++ marks).all (! isDigit ·) = true := by decide
  have hends : ∀ c ∈ blanks ++ marks, c ≠ '.' ∧ ¬ (c = 'e' ∨ c = 'E') := by simp [blanks, marks]
  rw [List.all_eq_true] at hdigits
  cases rest with
  | nil => exact numberLexer_of_mem h rfl rfl rfl
  | cons d rest =>
    have hd := hrest d rfl
    have hdigit : ¬ isDigit d = true := by simpa using hdigits d hd
    rcases hends d hd with ⟨hpoint, hletter⟩
    exact numberLexer_of_mem h (digitsLength_cons_of_not hdigit rest) (fractionLength_of_ne hpoint rest)
      (exponentLength_of_ne hletter rest)

/--
A token of a scalar is found where a blank or a mark stands behind it, or nothing.
-/
theorem lexer_scalar {kind : ScalarKind} {token rest : List Char} (h : token ∈ kind.language)
    (hrest : ∀ c, rest.head? = some c → c ∈ blanks ++ marks)
    : token ≠ [] ∧ lexer (token ++ rest) = token.length := by
  cases kind with
  | string =>
    rcases mem_oneOf_mul.mp h with ⟨_, tail, rfl, rfl, htail⟩
    refine ⟨List.cons_ne_nil _ tail, ?_⟩
    rw [List.cons_append, lexer_cons, lexerFor, if_pos rfl, stringLexer_quote, stringRest?_of_mem htail]
    rfl
  | number =>
    have hlexer := numberLexer_scalar h hrest
    rcases number_begins h with ⟨c, cs, rfl, hc⟩
    refine ⟨List.cons_ne_nil c cs, ?_⟩
    rw [List.cons_append] at hlexer ⊢
    rw [lexer_cons, lexerFor, if_neg hc.ne_quote, if_pos hc, hlexer]
  | constant =>
    rcases h with ⟨name, hname, rfl⟩
    simp only [constants, List.mem_cons, List.not_mem_nil, or_false] at hname
    rcases hname with rfl | rfl | rfl
    . exact ⟨by decide, lexer_cons 't' _⟩
    . exact ⟨by decide, lexer_cons 'f' _⟩
    . exact ⟨by decide, lexer_cons 'n' _⟩

-- in front of a mark, the text goes on with blanks or with the mark
theorem Layout.head?_mem {tokens : List String} {cs : List Char} (h : Layout tokens cs)
    (hfirst : MarkFirst tokens) {c : Char} (hc : cs.head? = some c)
    : c ∈ blanks ++ marks := by
  cases h with
  | nil => cases hc
  | blank hblank _ =>
    cases hc
    exact List.mem_append_left _ hblank
  | token _ =>
    rcases hfirst _ rfl with ⟨mark, hmark, rfl⟩
    rw [String.toList_ofList] at hc
    cases hc
    exact List.mem_append_right _ hmark

theorem lexemes_layout {tokens : List String} {cs : List Char} (h : Layout tokens cs)
    (hparted : Parted tokens)
    : lexemes lexer cs = tokens.map String.toList := by
  induction h with
  | nil => rw [lexemes, List.map_nil]
  | blank hc _ ih =>
    rw [lexemes, lexer_blank hc]
    exact ih hparted
  | @token token tokens cs hlayout ih =>
    cases hparted with
    | mark hmark htokens =>
      rcases hmark with ⟨c, hc, rfl⟩
      rw [String.toList_ofList, lexemes_append (List.cons_ne_nil c []) (lexer_mark hc cs), ih htokens,
        List.map_cons, String.toList_ofList]
    | scalar token hfirst htokens =>
      rcases lexer_scalar token.mem fun _ => hlayout.head?_mem hfirst with ⟨hne, hlexer⟩
      rw [lexemes_append hne hlexer, ih htokens, List.map_cons]

/--
The tokens of a document are found again in every text that writes them.
-/
theorem tokens_of_layout (tree : Tree) (text : String) (h : Layout tree.tokens text.toList)
    : tokens text = tree.tokens := by
  have hparted := closed_tokens tree .nil .nil
  rw [List.append_nil] at hparted
  unfold tokens
  rw [lexemes_layout h hparted, List.map_map]
  have hid : String.ofList ∘ String.toList = id := funext fun _ => String.ofList_toList
  rw [hid, List.map_id]

/--
A string that holds marks, a number and a quote.
-/
def punctuated : Token .string where
  text := "\x22[1,\\\x22\x22"
  mem := by
    have htail : stringRest? ['[', '1', ',', '\\', '\x22', '\x22'] = some 6 := rfl
    exact mem_oneOf_mul.mpr ⟨_, _, rfl, rfl, mem_of_stringRest? htail⟩

def halved : Token .number where
  text := "-0.5E+3"
  mem := by
    have hlexer : numberLexer ("-0.5E+3".toList ++ []) = "-0.5E+3".toList.length := by decide
    exact mem_of_numberLexer hlexer (by decide)

def nested : Tree := .object [(punctuated, .array [.scalar halved, .scalar punctuated])]

/--
The tokens of the tree, some of them with blanks between them.
-/
def spread : String := "\t\x7b\x22[1,\\\x22\x22 : [-0.5E+3,\r\n\x22[1,\\\x22\x22]\x7d "

theorem tokens_of_layout_nested : Layout nested.tokens spread.toList ∧ tokens spread = nested.tokens := by
  have htokens : nested.tokens
      = ["\x7b", punctuated.text, ":", "[", halved.text, ",", punctuated.text, "]", "\x7d"] := by
    simp [nested, Tree.tokens]
  have hspread : spread.toList
      = '\t' :: ("\x7b".toList ++ (punctuated.text.toList ++ (' ' :: (":".toList ++ (' ' :: ("[".toList
        ++ (halved.text.toList ++ (",".toList ++ ('\r' :: '\n' :: (punctuated.text.toList
        ++ ("]".toList ++ ("\x7d".toList ++ [' '])))))))))))) := by
    decide
  have hlayout : Layout nested.tokens spread.toList := by
    rw [htokens, hspread]
    exact .blank (by decide) (.token (.token (.blank (by decide) (.token (.blank (by decide) (.token (.token
      (.token (.blank (by decide) (.blank (by decide) (.token (.token (.token (.blank (by decide)
      .nil))))))))))))))
  exact ⟨hlayout, tokens_of_layout nested spread hlayout⟩

end Json
end TokenGrammar
