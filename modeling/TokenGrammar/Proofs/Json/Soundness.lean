import Mathlib.Data.Set.List
import TokenGrammar.Proofs.Json.Productions

/-!
This module contains what the rules of JSON documents come to: whatever they take is what writes a
document, a member, or items with commas between them. The only errors are those of decoding, as limits of
three levels a token are never used up.
-/

namespace TokenGrammar
namespace Json

open Evaluation

variable {decode : Decoder}

def Document.found (document : Document decode) : Match := ⟨document.render, document.value⟩

def memberFound (member : Key decode × Document decode) : Match :=
  ⟨member.1.token :: ":" :: member.2.render, .tuple [.text member.1.name, member.2.value]⟩

namespace Kind

/--
The items of an array are documents, those of an object are members.
-/
def IsItem (kind : Kind) (decode : Decoder) (part : Match) : Prop :=
  match kind with
  | .array => ∃ document : Document decode, document.found = part
  | .object => ∃ member : Key decode × Document decode, memberFound member = part

/--
The items between the marks.
-/
def render (kind : Kind) (parts : List Match) : List String :=
  kind.opening :: ([","].intercalate (parts.map Match.tokens) ++ [kind.closing])

/--
What the action of the rule makes of the items.
-/
def value (kind : Kind) (parts : List Match) : Except Fault Value :=
  kind.action (.list [.text kind.opening, .list (parts.map Match.result), .text kind.closing])

end Kind

theorem render_array (elements : List (Document decode))
    : (Document.array elements).render = Kind.array.render (elements.map Document.found) := by
  rw [Document.render, Kind.render, List.map_map]
  rfl

theorem render_object (members : List (Key decode × Document decode))
    : (Document.object members).render = Kind.object.render (members.map memberFound) := by
  rw [Document.render, Kind.render, List.map_map]
  rfl

theorem value_array (elements : List (Document decode))
    : Kind.array.value (elements.map Document.found) = .ok (Document.array elements).value := by
  rw [Document.value, Kind.value, List.map_map]
  rfl

theorem value_object (members : List (Key decode × Document decode))
    : Kind.object.value (members.map memberFound) = .ok (Document.object members).value := by
  have hentries : ((members.map memberFound).map Match.result).mapM entry
      = .ok (members.map fun member => (member.1.name, member.2.value)) := by
    induction members with
    | nil => rfl
    | cons member members ih =>
      rw [List.map_cons, List.map_cons, List.mapM_cons, ih]
      rfl
  rw [Document.value, ← Value.dictOf_eq]
  show (do return Value.dictOf (← ((members.map memberFound).map Match.result).mapM entry)) = _
  rw [hentries]
  rfl

theorem Kind.exists_document {kind : Kind} {parts : List Match}
    (h : ∀ part ∈ parts, kind.IsItem decode part)
    : ∃ document : Document decode, document.render = kind.render parts
        ∧ kind.value parts = .ok document.value := by
  cases kind with
  | array =>
    have hparts : parts ∈ Set.range (List.map (@Document.found decode)) := by
      rw [Set.range_list_map]
      exact h
    rcases hparts with ⟨elements, rfl⟩
    exact ⟨.array elements, render_array elements, value_array elements⟩
  | object =>
    have hparts : parts ∈ Set.range (List.map (@memberFound decode)) := by
      rw [Set.range_list_map]
      exact h
    rcases hparts with ⟨members, rfl⟩
    exact ⟨.object members, render_object members, value_object members⟩

theorem Kind.value_nil (kind : Kind)
    : kind.action (.list [.text kind.opening, .text kind.closing]) = kind.value [] := by
  cases kind with
  | _ => rfl

def Symbol.Means (decode : Decoder) (symbol : Symbol) (tokens : List String) (result : Value) : Prop :=
  match symbol with
  | .value | .container _ => ∃ document : Document decode, document.found = ⟨tokens, result⟩
  | .scalar kind => ∃ scalar : Scalar decode kind, tokens = [scalar.token] ∧ result = scalar.value
  | .listing kind => ∃ parts : List Match, (∀ part ∈ parts, kind.IsItem decode part)
    ∧ tokens = [","].intercalate (parts.map Match.tokens) ∧ parts ≠ []
    ∧ result = .list (parts.map Match.result)
  | .pair => ∃ member : Key decode × Document decode, memberFound member = ⟨tokens, result⟩

theorem Symbol.means_item {kind : Kind} {tokens : List String} {result : Value}
    (h : kind.item.Means decode tokens result)
    : kind.IsItem decode ⟨tokens, result⟩ := by
  cases kind with
  | _ => exact h

/--
The error is one of decoding a token.
-/
def Undecodable (decode : Decoder) (fault : Fault) : Prop := ∃ token, decode token = .error fault

theorem chooses_scalar (depth : Nat) (kind : ScalarKind) (tokens : List String)
    : decode.ranked.Chooses (Symbol.Means decode) (Undecodable decode) depth (.scalar kind) tokens := by
  have hchoose : decode.ranked.choose depth (.scalar kind) tokens
      = choice (decode.ranked.evaluate depth) (fun items => decode.scalar (.list items))
          (kind.elements.map fun element => [element]) tokens := rfl
  unfold Ranked.Chooses
  rw [hchoose]
  cases tokens with
  | nil =>
    rw [choice_terminals_nil _ _ kind.not_reference_mem kind.accepts_none]
    trivial
  | cons token rest =>
    rw [choice_terminals _ _ kind.not_reference_mem]
    split
    . next haccepts =>
      rw [← ScalarKind.accepts_iff] at haccepts
      have hscalar : decode.scalar (.list [.text token]) = decode token := rfl
      rw [hscalar]
      cases hdecode : decode token with
      | error fault => exact ⟨token, hdecode⟩
      | ok value => exact ⟨rest, rfl, by simp, ⟨token, value, haccepts, hdecode⟩, rfl, rfl⟩
    . trivial

theorem rank_item (kind : Kind) : kind.item.rank < (Symbol.listing kind).rank := by
  cases kind with
  | _ => decide

theorem rank_key : (Symbol.scalar .string).rank < Symbol.pair.rank := by decide

theorem rank_choice {symbol : Symbol} (h : symbol ∈ Symbol.choices)
    : symbol.rank < Symbol.value.rank := by
  revert symbol
  decide

theorem becomes_document {kind : Kind} {parts : List Match} {piece : Piece}
    (hparts : ∀ part ∈ parts, kind.IsItem decode part) (htokens : piece.tokens = kind.render parts)
    (haction : kind.action (.list piece.items) = kind.value parts)
    : piece.Becomes (fun items => kind.action (.list items))
        (fun found => found.tokens ≠ []
          ∧ (Symbol.container kind).Means decode found.tokens found.result)
        (Undecodable decode) := by
  rcases Kind.exists_document hparts with ⟨document, hrender, hvalue⟩
  unfold Piece.Becomes
  dsimp only
  rw [haction, hvalue, htokens, ← hrender]
  refine ⟨?_, document, rfl⟩
  rw [hrender]
  exact List.cons_ne_nil _ _

section

variable {depth : Nat} {tokens : List String}
  (hsound : decode.ranked.SoundAt (fun _ => True) (Symbol.Means decode) (Undecodable decode) depth)

include hsound

theorem reference (symbol : Symbol) (hdepth : decode.ranked.need symbol tokens.length ≤ depth)
    : Consumes Piece.tokens tokens
        (fun piece => piece.tokens ≠ []
          ∧ ∃ result, piece.items = [result] ∧ symbol.Means decode piece.tokens result)
        (Undecodable decode) (element (decode.ranked.evaluate depth) (.reference symbol.name) tokens) :=
  hsound.reference (fun _ _ => trivial) symbol hdepth

theorem chooses_value (hdepth : decode.ranked.need .value tokens.length ≤ depth + 1)
    : decode.ranked.Chooses (Symbol.Means decode) (Undecodable decode) depth .value tokens := by
  apply consumes_choice_references (fun _ => rfl)
  intro name hname
  rcases List.mem_map.mp hname with ⟨symbol, hsymbol, rfl⟩
  have hneed := Ranked.need_of_rank (rank_choice hsymbol) hdepth
  apply (hsound symbol tokens (fun _ _ => trivial) hneed).mono
  rintro ⟨taken, result⟩ ⟨hne, hmeans⟩
  refine ⟨hne, ?_⟩
  cases symbol with
  | scalar kind =>
    rcases hmeans with ⟨scalar, rfl, rfl⟩
    refine ⟨.scalar scalar, ?_⟩
    rw [Document.found, Document.render, Document.value]
  | container kind => exact hmeans
  | _ => simp [Symbol.choices] at hsymbol

theorem chooses_container (kind : Kind)
    (hdepth : decode.ranked.need (.container kind) tokens.length ≤ depth + 1)
    : decode.ranked.Chooses (Symbol.Means decode) (Undecodable decode) depth (.container kind) tokens := by
  apply consumes_choice_cons
  . apply consumes_series_cons (consumes_literal kind.opening)
    rintro _ rest _ _ rfl
    rw [series_singleton]
    apply (consumes_literal kind.closing).mono
    rintro _ ⟨_, rfl⟩
    exact becomes_document (by simp) rfl kind.value_nil
  . apply consumes_choice_cons _ consumes_choice_nil
    apply consumes_series_cons (consumes_literal kind.opening)
    rintro _ rest rfl _ rfl
    have hless : decode.ranked.need (.listing kind) rest.length ≤ depth :=
      Ranked.need_of_lt (by simp) hdepth
    apply consumes_series_cons (reference hsound (.listing kind) hless)
    rintro ⟨taken, _⟩ left _ _ ⟨_, rfl, parts, hparts, rfl, _, rfl⟩
    rw [series_singleton]
    apply (consumes_literal kind.closing).mono
    rintro _ ⟨_, rfl⟩
    exact becomes_document hparts rfl rfl

theorem chooses_listing (kind : Kind)
    (hdepth : decode.ranked.need (.listing kind) tokens.length ≤ depth + 1)
    : decode.ranked.Chooses (Symbol.Means decode) (Undecodable decode) depth (.listing kind) tokens := by
  have hneed := Ranked.need_of_rank (rank_item kind) hdepth
  apply consumes_choice_cons
  . apply consumes_series_cons (reference hsound kind.item hneed)
    rintro ⟨taken, _⟩ rest hfirst hne ⟨result, rfl, hmeans⟩
    apply consumes_series_cons (consumes_literal ",")
    rintro _ others rfl _ rfl
    have hless : decode.ranked.need (.listing kind) others.length ≤ depth := by
      apply Ranked.need_of_lt _ hdepth
      simp only [hfirst, List.length_append, List.length_cons]
      omega
    rw [series_singleton]
    apply (reference hsound (.listing kind) hless).mono
    rintro ⟨taken', _⟩ ⟨_, _, rfl, parts, hparts, rfl, hsome, rfl⟩
    refine ⟨by simp [Piece.append], ⟨taken, result⟩ :: parts, ?_, ?_, by simp, rfl⟩
    . simpa using ⟨Symbol.means_item hmeans, hparts⟩
    . rw [List.map_cons, List.intercalate_cons_of_ne_nil (by simpa using hsome)]
      simp [Piece.append]
  . apply consumes_choice_cons _ consumes_choice_nil
    rw [series_singleton]
    apply (reference hsound kind.item hneed).mono
    rintro ⟨taken, _⟩ ⟨hne, result, rfl, hmeans⟩
    exact ⟨hne, [⟨taken, result⟩], by simpa using Symbol.means_item hmeans, by simp, by simp, rfl⟩

theorem chooses_pair (hdecode : decode.ReadsTexts)
    (hdepth : decode.ranked.need .pair tokens.length ≤ depth + 1)
    : decode.ranked.Chooses (Symbol.Means decode) (Undecodable decode) depth .pair tokens := by
  apply consumes_choice_cons _ consumes_choice_nil
  apply consumes_series_cons
    (reference hsound (.scalar .string) (Ranked.need_of_rank rank_key hdepth))
  rintro ⟨_, _⟩ rest hfirst _ ⟨_, rfl, scalar, rfl, rfl⟩
  rcases hdecode.exists_key scalar with ⟨key, rfl⟩
  apply consumes_series_cons (consumes_literal ":")
  rintro _ others rfl _ rfl
  have hless : decode.ranked.need .value others.length ≤ depth := by
    apply Ranked.need_of_lt _ hdepth
    simp only [hfirst, List.length_append, List.length_cons]
    omega
  rw [series_singleton]
  apply (reference hsound .value hless).mono
  rintro ⟨_, _⟩ ⟨_, _, rfl, document, hdocument⟩
  cases hdocument
  refine ⟨by simp [Piece.append], (key, document), ?_⟩
  rw [memberFound, ← key.value_eq]
  rfl

omit hsound

/--
With enough levels every rule takes what has its meaning.
-/
theorem soundAt (hdecode : decode.ReadsTexts) (depth : Nat)
    : decode.ranked.SoundAt (fun _ => True) (Symbol.Means decode) (Undecodable decode) depth := by
  apply Ranked.soundAt
  intro depth hsound symbol tokens _ hdepth
  cases symbol with
  | value => exact chooses_value hsound hdepth
  | scalar kind => exact chooses_scalar depth kind tokens
  | container kind => exact chooses_container hsound kind hdepth
  | listing kind => exact chooses_listing hsound kind hdepth
  | pair => exact chooses_pair hsound hdecode hdepth

end

end Json
end TokenGrammar
