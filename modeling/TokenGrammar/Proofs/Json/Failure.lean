import TokenGrammar.Proofs.Json.Exactness

/-!
This module contains the errors of the reader of JSON documents. Whatever the text, a value comes of it, or an
error that tells of a token that cannot be decoded or of tokens that do not make up a document.
-/

namespace TokenGrammar
namespace Json

open Evaluation

theorem error_of_bind {α β : Type} {answer : Except Fault α} {f : α → Except Fault β} {fault : Fault}
    (h : (answer >>= f) = .error fault)
    : answer = .error fault ∨ ∃ a, answer = .ok a ∧ f a = .error fault := by
  cases answer with
  | error other =>
    cases h
    exact .inl rfl
  | ok a => exact .inr ⟨a, rfl, h⟩

theorem stringChars_error {offset : Nat} {cs : List Char} {fault : Fault}
    (h : stringChars offset cs = .error fault)
    : ∃ problem place, fault = .scalar problem place := by
  -- what follows on the rest of the string only puts a character in front of it
  have hread {answer : Except Fault (List Char × List Char)}
      {f : List Char × List Char → Except Fault (List Char × List Char)}
      (h : (answer >>= f) = .error fault) (hf : ∀ read, f read ≠ .error fault)
      : answer = .error fault := by
    rcases error_of_bind h with h | ⟨read, _, h⟩
    . exact h
    . exact absurd h (hf read)
  fun_induction stringChars offset cs with
  | case1 | case2 | case3 | case7 | case10 =>
    cases h
    exact ⟨_, _, rfl⟩
  | case4 offset rest unit hunit hhigh low hlow code ih => exact ih (hread h nofun)
  | case5 offset rest unit hunit hhigh hlow ih => exact ih (hread h nofun)
  | case6 offset rest unit hunit hhigh ih => exact ih (hread h nofun)
  | case8 offset c rest hc escaped hescaped ih => exact ih (hread h nofun)
  | case9 => cases h
  | case11 offset c rest hend hunit hescape hquote hcontrol ih => exact ih (hread h nofun)

theorem numberValue_error {cs : List Char} {fault : Fault} (h : numberValue cs = .error fault)
    : ∃ numeral, fault = .numeral numeral := by
  unfold numberValue at h
  dsimp only at h
  rcases ite_eq_iff.mp h with ⟨_, h⟩ | ⟨_, h⟩
  . rcases ite_eq_iff.mp h with ⟨_, h⟩ | ⟨_, h⟩
    . cases h
      exact ⟨_, rfl⟩
    . cases h
  . cases h

theorem scalarValue_error {cs : List Char} {fault : Fault} (h : scalarValue cs = .error fault)
    : (∃ problem place, fault = .scalar problem place) ∨ ∃ numeral, fault = .numeral numeral := by
  unfold scalarValue at h
  split at h
  . cases h
  . cases h
  . cases h
  . rcases error_of_bind h with h | ⟨_, _, h⟩
    . exact .inl (stringChars_error h)
    . cases h
  . exact .inr (numberValue_error h)

/--
A token that cannot be decoded is reported as such, or as digits that are too many.
-/
theorem Undecodable.kind {fault : Fault} (h : Undecodable decodeScalar fault)
    : fault.kind = .value ∨ fault.kind = .decoding := by
  rcases h with ⟨token, h⟩
  unfold decodeScalar at h
  rcases error_of_bind h with h | ⟨⟨value, left⟩, _, h⟩
  . rcases scalarValue_error h with ⟨problem, place, rfl⟩ | ⟨numeral, rfl⟩
    . exact .inr rfl
    . exact .inl rfl
  . dsimp only at h
    split at h
    . cases h
      exact .inr rfl
    . cases h

/--
The reader returns a value, or it reports a value error or a special case of one, an error of decoding.
-/
theorem load_outcome (settings : Settings) (text : String)
    (hlimit : 3 * ((tokens text).length + 1) ≤ settings.nestingLimit (tokens text).length)
    : (∃ value, load settings text = .ok value)
      ∨ ∃ fault, load settings text = .error fault
        ∧ (fault.kind = .value ∨ fault.kind = .decoding) := by
  have hdepth : (Decoder.ranked decodeScalar).need .value (tokens text).length
      ≤ settings.nestingLimit (tokens text).length := by
    have hneed : (Decoder.ranked decodeScalar).need .value (tokens text).length
        = 3 * (tokens text).length + 2 := rfl
    omega
  rcases load_eq decodeScalar settings text with ⟨rule, hload⟩
  have hsound := soundAt decodeScalar_readsTexts _ .value (tokens text) (fun _ _ => trivial) hdepth
  have hexhausted : ¬ Undecodable decodeScalar .exhausted := by
    intro hundecodable
    rcases hundecodable.kind with hkind | hkind
    . cases hkind
    . cases hkind
  unfold load
  rw [hload]
  rcases entire_outcome hsound hexhausted (.notDocument text) rule 0 with
    ⟨value, hvalue, _⟩ | ⟨fault, hfault, hcause⟩
  . exact .inl ⟨value, hvalue⟩
  . refine .inr ⟨fault, hfault, ?_⟩
    rcases hcause with hundecodable | rfl | ⟨taken, rfl⟩
    . exact hundecodable.kind
    . exact .inl rfl
    . exact .inl rfl

/--
A key is decoded where it is met, although the object that it begins is never closed.
-/
theorem load_outcome_undecodable
    : 3 * ((tokens "[\x7b\x22\\q\x22: [").length + 1)
        ≤ ({} : Settings).nestingLimit (tokens "[\x7b\x22\\q\x22: [").length
      ∧ ∃ fault, load {} "[\x7b\x22\\q\x22: [" = .error fault ∧ fault.kind = .decoding
        ∧ (fault.kind = .value ∨ fault.kind = .decoding) := by
  have hlimit : 3 * ((tokens "[\x7b\x22\\q\x22: [").length + 1)
      ≤ ({} : Settings).nestingLimit (tokens "[\x7b\x22\\q\x22: [").length := by decide +kernel
  have hkind : ((load {} "[\x7b\x22\\q\x22: [").mapError Fault.kind).map (fun _ => ())
      = .error .decoding := by decide +kernel
  rcases load_outcome {} "[\x7b\x22\\q\x22: [" hlimit with ⟨value, hvalue⟩ | ⟨fault, hfault, houtcome⟩
  . rw [hvalue] at hkind
    cases hkind
  . rw [hfault] at hkind
    exact ⟨hlimit, fault, hfault, Except.error.inj hkind, houtcome⟩

end Json
end TokenGrammar
