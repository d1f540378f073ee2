import Mathlib.Data.List.Basic
import Mathlib.Data.List.Induction
import TokenGrammar.Value

/-!
This module contains what is left of the assignments that a dictionary is built from.
-/

namespace TokenGrammar
namespace Value

/--
The entries that assignments leave behind: each key has the place of its first assignment and the value of
its last one.
-/
def entriesOf (assignments : List (String × Value)) : List (String × Value) :=
  (assignments.map (·.1)).eraseDups.filterMap fun key =>
    (assignments.reverse.lookup key).map fun value => (key, value)

theorem lookup_of_mem {assignments : List (String × Value)} {key : String}
    (h : key ∈ assignments.map (·.1))
    : ∃ value, assignments.reverse.lookup key = some value := by
  cases hlookup : assignments.reverse.lookup key with
  | some value => exact ⟨value, rfl⟩
  | none =>
    rw [List.lookup_eq_none_iff] at hlookup
    rcases List.mem_map.mp h with ⟨entry, hentry, rfl⟩
    exact absurd (hlookup entry (List.mem_reverse.mpr hentry)) (by simp)

theorem names_entriesOf (assignments : List (String × Value))
    : (entriesOf assignments).map (·.1) = (assignments.map (·.1)).eraseDups := by
  unfold entriesOf
  rw [List.map_filterMap]
  calc
    _ = (assignments.map (·.1)).eraseDups.filterMap some := by
      apply List.filterMap_congr
      intro key hkey
      rcases lookup_of_mem (List.mem_eraseDups.mp hkey) with ⟨value, hvalue⟩
      rw [hvalue]
      rfl
    _ = _ := List.filterMap_some

theorem lookup_append (assignments : List (String × Value)) (key name : String) (value : Value)
    : (assignments ++ [(key, value)]).reverse.lookup name
        = if name == key then some value else assignments.reverse.lookup name := by
  rw [List.reverse_append, List.reverse_singleton, List.singleton_append, List.lookup_cons]
  cases name == key with
  | _ => rfl

theorem entriesOf_append (assignments : List (String × Value)) (key : String) (value : Value)
    : entriesOf (assignments ++ [(key, value)]) = assign (entriesOf assignments) key value := by
  have hany : (entriesOf assignments).any (·.1 == key) = (assignments.map (·.1)).contains key := by
    rw [Bool.eq_iff_iff, List.any_eq_true, List.contains_iff_mem, ← List.mem_eraseDups,
      ← names_entriesOf]
    simp
  unfold assign
  rw [hany]
  unfold entriesOf
  simp only [lookup_append]
  rw [List.map_append, List.eraseDups_append, List.filterMap_append]
  split
  . next hmem =>
    rw [List.map_filterMap]
    have hnew : (List.map (·.1) [(key, value)]).removeAll (assignments.map (·.1)) = [] := by
      simpa [List.removeAll] using hmem
    rw [hnew, List.eraseDups_nil, List.filterMap_nil, List.append_nil]
    apply List.filterMap_congr
    intro name hname
    rcases lookup_of_mem (List.mem_eraseDups.mp hname) with ⟨old, hold⟩
    rw [hold]
    by_cases h : name = key
    . simp [h]
    . simp [h]
  . next hmem =>
    have hnew : (List.map (·.1) [(key, value)]).removeAll (assignments.map (·.1)) = [key] := by
      simpa [List.removeAll] using hmem
    rw [hnew]
    congr 1
    . apply List.filterMap_congr
      intro name hname
      have hne : name ≠ key := by
        rintro rfl
        exact hmem (List.contains_iff_mem.mpr (List.mem_eraseDups.mp hname))
      simp [hne]
    . simp [List.eraseDups_cons]

theorem dictOf_eq (assignments : List (String × Value))
    : dictOf assignments = .dict (entriesOf assignments) := by
  have hfold : assignments.foldl (fun entries entry => assign entries entry.1 entry.2) []
      = entriesOf assignments := by
    induction assignments using List.reverseRec with
    | nil => rfl
    | append_singleton assignments entry ih =>
      rw [List.foldl_append, ih, entriesOf_append]
      rfl
  rw [dictOf, hfold]

end Value
end TokenGrammar
