import TokenGrammar.Proofs.Json.Soundness

/-!
This module contains the language of JSON documents. What writes a document is found with the document's
value, although every choice of the matcher is final: a listing ends where no comma follows, and no item
starts with a mark that closes.
-/

namespace TokenGrammar
namespace Json

open Evaluation

variable {decode : Decoder}

theorem choose_eq (decode : Decoder) (depth : Nat) (symbol : Symbol) (tokens : List String)
    : decode.ranked.choose depth symbol tokens
        =
      choice (decode.ranked.evaluate depth) (symbol.production decode).action
        (symbol.production decode).options tokens := rfl

theorem element_symbol {symbol : Symbol} {tokens taken : List String} {result : Value} {depth : Nat}
    (h : decode.ranked.Gives symbol tokens taken result)
    (hdepth : decode.ranked.need symbol tokens.length ≤ depth)
    : element (decode.ranked.evaluate depth) (.reference symbol.name) tokens
        = .ok (some ⟨taken, [result]⟩) :=
  h.reference hdepth

theorem ScalarKind.Accepts.ne_mark {kind : ScalarKind} {token mark : String} (h : kind.Accepts token)
    (hmark : mark ∈ ["[", "]", "\x7b", "\x7d"])
    : token ≠ mark := by
  rintro rfl
  rw [accepts_iff, kind.accepts_mark token hmark] at h
  cases h

theorem lacks_scalar {kind : ScalarKind} {token : String} (h : ¬ kind.Accepts token)
    (rest : List String)
    : decode.ranked.Answers (.scalar kind) (token :: rest) none := by
  apply Ranked.answers_of_choose
  intro depth _
  rw [ScalarKind.accepts_iff] at h
  rw [choose_eq]
  simp only [Symbol.production, Production.onNode]
  rw [choice_terminals _ _ kind.not_reference_mem, if_neg h]

theorem gives_scalar {kind : ScalarKind} {token : String} {value : Value} (h : kind.Accepts token)
    (hvalue : decode token = .ok value) (rest : List String)
    : decode.ranked.Gives (.scalar kind) (token :: rest) [token] value := by
  apply Ranked.answers_of_choose
  intro depth _
  have haction : decode.scalar (.list [.text token]) = .ok value := hvalue
  rw [ScalarKind.accepts_iff] at h
  rw [choose_eq]
  simp only [Symbol.production, Production.onNode]
  rw [choice_terminals _ _ kind.not_reference_mem, if_pos h, haction]
  rfl

theorem lacks_container {kind : Kind} {tokens : List String} (h : tokens.head? ≠ some kind.opening)
    : decode.ranked.Answers (.container kind) tokens none := by
  apply Ranked.answers_of_choose
  intro depth _
  rw [choose_eq]
  simp only [Symbol.production, Production.onNode]
  rw [choice, series, element_literal_ne _ h]
  dsimp only
  rw [choice, series, element_literal_ne _ h]
  rfl

theorem gives_value {tokens taken : List String} {value : Value}
    (h : ∀ symbol ∈ Symbol.choices,
      decode.ranked.Answers symbol tokens none ∨ decode.ranked.Gives symbol tokens taken value)
    (hsome : ∃ symbol ∈ Symbol.choices, decode.ranked.Gives symbol tokens taken value)
    : decode.ranked.Gives .value tokens taken value := by
  apply Ranked.answers_of_choose
  intro depth hdepth
  apply choice_references (fun _ => rfl)
  . intro name hname
    rcases List.mem_map.mp hname with ⟨symbol, hsymbol, rfl⟩
    have hneed := Ranked.need_of_rank (rank_choice hsymbol) hdepth
    exact (h symbol hsymbol).imp (fun hnone => hnone depth hneed) fun hfound => hfound depth hneed
  . rcases hsome with ⟨symbol, hsymbol, hfound⟩
    have hneed := Ranked.need_of_rank (rank_choice hsymbol) hdepth
    exact ⟨symbol.name, List.mem_map_of_mem hsymbol, hfound depth hneed⟩

theorem gives_value_of_scalar {kind : ScalarKind} (scalar : Scalar decode kind) (rest : List String)
    : decode.ranked.Gives .value (scalar.token :: rest) [scalar.token] scalar.value := by
  apply gives_value
  . intro symbol hsymbol
    cases symbol with
    | scalar kind' =>
      -- other kinds may accept the token as well, but all of them decode it in the same way
      by_cases haccepts : kind'.Accepts scalar.token
      . exact .inr (gives_scalar haccepts scalar.decodes rest)
      . exact .inl (lacks_scalar haccepts rest)
    | container container =>
      apply Or.inl
      apply lacks_container
      have hne : scalar.token ≠ container.opening := by
        cases container with
        | _ => exact scalar.accepts.ne_mark (by decide)
      simpa using hne
    | _ => simp [Symbol.choices] at hsymbol
  . refine ⟨.scalar kind, ?_, gives_scalar scalar.accepts scalar.decodes rest⟩
    cases kind with
    | _ => simp [Symbol.choices]

theorem gives_value_of_container {kind : Kind} {tokens taken : List String} {value : Value}
    (h : decode.ranked.Gives (.container kind) (kind.opening :: tokens) taken value)
    : decode.ranked.Gives .value (kind.opening :: tokens) taken value := by
  apply gives_value
  . intro symbol hsymbol
    cases symbol with
    | scalar scalar =>
      apply Or.inl
      apply lacks_scalar
      intro haccepts
      cases kind with
      | _ => exact haccepts.ne_mark (by decide) rfl
    | container container =>
      by_cases heq : container = kind
      . rw [heq]
        exact .inr h
      . apply Or.inl
        apply lacks_container
        revert heq
        cases container with
        | _ =>
          cases kind with
          | _ => simp [Kind.opening]
    | _ => simp [Symbol.choices] at hsymbol
  . refine ⟨.container kind, ?_, h⟩
    cases kind with
    | _ => simp [Symbol.choices]

/--
An item is found in front of whatever may follow it.
-/
def Kind.Finds (kind : Kind) (decode : Decoder) (part : Match) : Prop :=
  ∀ rest, decode.ranked.Gives kind.item (part.tokens ++ rest) part.tokens part.result

theorem Kind.IsItem.tokens_eq {kind : Kind} {part : Match} (h : kind.IsItem decode part)
    : ∃ token rest, part.tokens = token :: rest ∧ token ≠ kind.closing := by
  cases kind with
  | array =>
    rcases h with ⟨document, rfl⟩
    unfold Document.found Document.render
    cases document with
    | scalar scalar => exact ⟨_, _, rfl, scalar.accepts.ne_mark (by decide)⟩
    | _ => exact ⟨_, _, rfl, by decide⟩
  | object =>
    rcases h with ⟨⟨key, document⟩, rfl⟩
    exact ⟨_, _, rfl, key.accepts.ne_mark (by decide)⟩

theorem gives_pair {key : Key decode} {tokens taken : List String} {value : Value}
    (h : decode.ranked.Gives .value tokens taken value)
    : decode.ranked.Gives .pair (key.token :: ":" :: tokens) (key.token :: ":" :: taken)
        (.tuple [.text key.name, value]) := by
  apply Ranked.answers_of_choose
  intro depth hdepth
  have hkey := element_symbol (gives_scalar key.accepts key.decodes (":" :: tokens))
    (Ranked.need_of_rank rank_key hdepth)
  have hcolon := element_literal (decode.ranked.evaluate depth) ":" tokens
  have hless : tokens.length < (key.token :: ":" :: tokens).length := by
    simp only [List.length_cons]
    omega
  have hvalue := element_symbol h (Ranked.need_of_lt hless hdepth)
  rw [choose_eq]
  simp only [Symbol.production, Production.onNode]
  rw [choice, series_cons_token hkey, series_cons_token hcolon, series_singleton, hvalue,
    key.value_eq]
  rfl

theorem gives_listing_single {kind : Kind} {part : Match} {rest : List String} (hne : part.tokens ≠ [])
    (hpart : kind.Finds decode part) (hrest : rest.head? ≠ some ",")
    : decode.ranked.Gives (.listing kind) (part.tokens ++ rest) part.tokens (.list [part.result]) := by
  apply Ranked.answers_of_choose
  intro depth hdepth
  have hitem := element_symbol (hpart rest) (Ranked.need_of_rank (rank_item kind) hdepth)
  rw [choose_eq]
  simp only [Symbol.production, Production.onNode]
  rw [choice, series_cons hitem rfl hne, series, element_literal_ne _ hrest]
  dsimp only [Except.map, Option.map]
  rw [choice, series_singleton, hitem]
  rfl

theorem gives_listing_cons {kind : Kind} {part : Match} {rest taken : List String}
    {results : List Value} (hne : part.tokens ≠ []) (hpart : kind.Finds decode part)
    (h : decode.ranked.Gives (.listing kind) rest taken (.list results))
    : decode.ranked.Gives (.listing kind) (part.tokens ++ "," :: rest) (part.tokens ++ "," :: taken)
        (.list (part.result :: results)) := by
  apply Ranked.answers_of_choose
  intro depth hdepth
  have hitem := element_symbol (hpart ("," :: rest)) (Ranked.need_of_rank (rank_item kind) hdepth)
  have hcomma := element_literal (decode.ranked.evaluate depth) "," rest
  have hlisting := element_symbol h (Ranked.need_of_lt (by simp; omega) hdepth)
  rw [choose_eq]
  simp only [Symbol.production, Production.onNode]
  rw [choice, series_cons hitem rfl hne, series_cons_token hcomma, series_singleton, hlisting]
  rfl

theorem gives_listing {kind : Kind} {parts : List Match} {rest : List String} (hsome : parts ≠ [])
    (hitems : ∀ part ∈ parts, kind.IsItem decode part ∧ kind.Finds decode part)
    (hrest : rest.head? ≠ some ",")
    : decode.ranked.Gives (.listing kind) ([","].intercalate (parts.map Match.tokens) ++ rest)
        ([","].intercalate (parts.map Match.tokens)) (.list (parts.map Match.result)) := by
  induction parts with
  | nil => exact (hsome rfl).elim
  | cons part parts ih =>
    rcases hitems part List.mem_cons_self with ⟨hitem, hpart⟩
    have hne : part.tokens ≠ [] := by
      rcases hitem.tokens_eq with ⟨token, rest, htokens, _⟩
      simp [htokens]
    by_cases hparts : parts = []
    . subst hparts
      simpa using gives_listing_single hne hpart hrest
    . have hothers := ih hparts fun part hpart => hitems part (List.mem_cons_of_mem _ hpart)
      rw [List.map_cons, List.intercalate_cons_of_ne_nil (by simpa using hparts)]
      simpa using gives_listing_cons hne hpart hothers

theorem gives_container_empty {kind : Kind} {value : Value} (hvalue : kind.value [] = .ok value)
    (rest : List String)
    : decode.ranked.Gives (.container kind) (kind.opening :: kind.closing :: rest)
        [kind.opening, kind.closing] value := by
  apply Ranked.answers_of_choose
  intro depth _
  have hopening := element_literal (decode.ranked.evaluate depth) kind.opening (kind.closing :: rest)
  have hclosing := element_literal (decode.ranked.evaluate depth) kind.closing rest
  rw [choose_eq]
  simp only [Symbol.production, Production.onNode]
  rw [choice, series_cons_token hopening, series_singleton, hclosing]
  dsimp only [Except.map, Option.map, Piece.append, List.singleton_append]
  rw [kind.value_nil, hvalue]

theorem gives_container_listing {kind : Kind} {parts : List Match} {token : String}
    {others rest : List String} {value : Value} (hne : token ≠ kind.closing)
    (h : decode.ranked.Gives (.listing kind) (token :: (others ++ kind.closing :: rest)) (token :: others)
      (.list (parts.map Match.result)))
    (hvalue : kind.value parts = .ok value)
    : decode.ranked.Gives (.container kind) (kind.opening :: token :: (others ++ kind.closing :: rest))
        (kind.opening :: token :: (others ++ [kind.closing])) value := by
  apply Ranked.answers_of_choose
  intro depth hdepth
  have hopening := element_literal (decode.ranked.evaluate depth) kind.opening
    (token :: (others ++ kind.closing :: rest))
  have hclosing := element_literal (decode.ranked.evaluate depth) kind.closing rest
  have hlisting := element_symbol h (Ranked.need_of_lt (by simp) hdepth)
  have hhead : (token :: (others ++ kind.closing :: rest)).head? ≠ some kind.closing := by
    simpa using hne
  have haction : kind.action (.list ([.text kind.opening] ++ ([.list (parts.map Match.result)]
      ++ [.text kind.closing]))) = .ok value := hvalue
  rw [choose_eq]
  simp only [Symbol.production, Production.onNode]
  rw [choice, series_cons_token hopening, series, element_literal_ne _ hhead]
  dsimp only [Except.map, Option.map]
  rw [choice, series_cons_token hopening, series_cons hlisting rfl (List.cons_ne_nil _ _),
    series_singleton, hclosing]
  dsimp only [Except.map, Option.map, Piece.append]
  rw [haction]
  rfl

theorem gives_container {kind : Kind} {parts : List Match} {value : Value}
    (hitems : ∀ part ∈ parts, kind.IsItem decode part ∧ kind.Finds decode part)
    (hvalue : kind.value parts = .ok value)
    (rest : List String)
    : decode.ranked.Gives (.container kind) (kind.render parts ++ rest) (kind.render parts) value := by
  cases parts with
  | nil => exact gives_container_empty hvalue rest
  | cons part parts =>
    have hcomma : (kind.closing :: rest).head? ≠ some "," := by
      cases kind with
      | _ => simp [Kind.closing]
    have hlisting := gives_listing (by simp) hitems hcomma
    rcases (hitems part List.mem_cons_self).1.tokens_eq with ⟨token, others, htokens, hne⟩
    unfold Kind.render
    rw [List.map_cons, htokens, List.intercalate_cons_cons_left] at hlisting ⊢
    simpa using gives_container_listing hne hlisting hvalue

theorem gives_document (document : Document decode) (rest : List String)
    : decode.ranked.Gives .value (document.render ++ rest) document.render document.value := by
  induction document using Document.render.induct generalizing rest with
  | case1 kind scalar =>
    rw [Document.render, Document.value]
    exact gives_value_of_scalar scalar rest
  | case2 elements ih =>
    rw [render_array]
    apply gives_value_of_container
    apply gives_container _ (value_array elements)
    intro part hpart
    rcases List.mem_map.mp hpart with ⟨element, helement, rfl⟩
    exact ⟨⟨element, rfl⟩, ih element helement⟩
  | case3 members ih =>
    rw [render_object]
    apply gives_value_of_container
    apply gives_container _ (value_object members)
    intro part hpart
    rcases List.mem_map.mp hpart with ⟨member, hmember, rfl⟩
    exact ⟨⟨member, rfl⟩, fun rest => gives_pair (ih member hmember rest)⟩

theorem load_eq (decode : Decoder) (settings : Settings) (text : String)
    : ∃ rule, decode.load settings text
        =
      entire (.notDocument text) (tokens text)
        ((decode.ranked.evaluate (settings.nestingLimit (tokens text).length) (decode.ranked.name .value)
          (tokens text)).mapError (Run.reported rule 0)) := by
  have hsplitter : decode.grammar.splitter = .splitting tokens := by
    rw [grammar_eq]
    rfl
  have hrule : decode.grammar.rules.toList.head?
      = some ⟨"value", ["object", "array", "string", "number", "constant"],
          [["object"], ["array"], ["string"], ["number"], ["constant"]],
          some (.onNode (·.item 0))⟩ := by
    rw [grammar_eq]
    rfl
  have hempty : "" ∉ tokens text := Text.empty_not_mem_lexemes _ _
  have hparse := (grammar_pursues decode).parse_text hsplitter hrule hempty settings #[]
  exact ⟨_, congrArg (entire (.notDocument text) (tokens text)) hparse⟩

/--
The reader returns a value for exactly those texts whose tokens write a document, namely the value of the
document. It does so with any decoder whose strings are texts.
-/
theorem load_text {decode : Decoder} (hdecode : decode.ReadsTexts) (settings : Settings) (text : String)
    (value : Value)
    (hlimit : 3 * ((tokens text).length + 1) ≤ settings.nestingLimit (tokens text).length)
    : decode.load settings text = .ok value
        ↔
      ∃ document : Document decode, tokens text = document.render ∧ document.value = value := by
  have hdepth : decode.ranked.need .value (tokens text).length
      ≤ settings.nestingLimit (tokens text).length := by
    have hneed : decode.ranked.need .value (tokens text).length = 3 * (tokens text).length + 2 := rfl
    omega
  rcases load_eq decode settings text with ⟨rule, hload⟩
  rw [hload]
  constructor
  . intro hvalue
    have hsound := soundAt hdecode _ .value (tokens text) (fun _ _ => trivial) hdepth
    have hentire := entire_of_consumes hsound (.notDocument text) (Run.reported rule 0)
    rw [hvalue] at hentire
    rcases hentire with ⟨_, document, hdocument⟩
    rw [Document.found, Match.mk.injEq] at hdocument
    exact ⟨document, hdocument.1.symm, hdocument.2⟩
  . rintro ⟨document, htokens, rfl⟩
    have hdocument := gives_document document []
    rw [List.append_nil, ← htokens] at hdocument
    rw [hdocument _ hdepth]
    exact entire_of_all _ _ _

theorem load_text_repeated
    : Decoder.ReadsTexts decodeScalar
      ∧ 3 * ((tokens "\x7b\x22a\x22: 1, \x22b\x22: [], \x22\\u0061\x22: true\x7d").length + 1) ≤ 1000
      ∧ load {} "\x7b\x22a\x22: 1, \x22b\x22: [], \x22\\u0061\x22: true\x7d"
        = .ok (.dict [("a", .bool true), ("b", .list [])]) := by
  have htokens : tokens "\x7b\x22a\x22: 1, \x22b\x22: [], \x22\\u0061\x22: true\x7d"
      = ["\x7b", "\x22a\x22", ":", "1", ",", "\x22b\x22", ":", "[", "]", ",", "\x22\\u0061\x22",
        ":", "true", "\x7d"] := by
    decide +kernel
  have ha : decodeScalar "\x22a\x22" = .ok (.text "a") := by with_unfolding_all rfl
  have hb : decodeScalar "\x22b\x22" = .ok (.text "b") := by with_unfolding_all rfl
  have hescaped : decodeScalar "\x22\\u0061\x22" = .ok (.text "a") := by with_unfolding_all rfl
  have hone : decodeScalar "1" = .ok (.int 1) := by with_unfolding_all rfl
  have htrue : decodeScalar "true" = .ok (.bool true) := by with_unfolding_all rfl
  have hdocument : ∃ document : Document decodeScalar,
      document.render = ["\x7b", "\x22a\x22", ":", "1", ",", "\x22b\x22", ":", "[", "]", ",",
        "\x22\\u0061\x22", ":", "true", "\x7d"]
      ∧ document.value = .dict [("a", .bool true), ("b", .list [])] := by
    refine ⟨.object [
      (⟨⟨_, _, by decide +kernel, ha⟩, "a", rfl⟩,
        .scalar (⟨_, _, by decide +kernel, hone⟩ : Scalar decodeScalar .number)),
      (⟨⟨_, _, by decide +kernel, hb⟩, "b", rfl⟩, .array []),
      (⟨⟨_, _, by decide +kernel, hescaped⟩, "a", rfl⟩,
        .scalar (⟨_, _, by decide +kernel, htrue⟩ : Scalar decodeScalar .constant))], ?_, ?_⟩
    . simp [Document.render]
    . simp only [Document.value, List.map_cons, List.map_nil]
      rfl
  refine ⟨decodeScalar_readsTexts, by rw [htokens]; decide, ?_⟩
  apply (load_text decodeScalar_readsTexts {} _ _ (by rw [htokens]; decide)).mpr
  rw [htokens]
  rcases hdocument with ⟨document, hrender, hvalue⟩
  exact ⟨document, hrender.symm, hvalue⟩

-- halves of surrogate pairs are kept apart by a decoder that leaves the escapes as they are written
example : ((Decoder.load (fun token => .ok (.text token)) {}
    "\x7b\x22\\ud800\x22: 1, \x22\\ud801\x22: 2\x7d").map Value.written).toOption
      = some "\x7b'\x22\\\\ud800\x22': '1', '\x22\\\\ud801\x22': '2'\x7d" := by
  decide +kernel

end Json
end TokenGrammar
