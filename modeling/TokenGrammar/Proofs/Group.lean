import TokenGrammar.TokenStream.Group

/-!
This module contains what becomes of the other streams of a group when one of them is asked something:
nothing. A request moves the cursor of its own stream at most, and a new stream joins behind the others.
-/

namespace TokenGrammar
namespace StreamGroup

/--
The streams at the places below the given one are the same in the two groups.
-/
def Keeps (kept : Nat) (group group' : StreamGroup) : Prop :=
  ∀ place < kept, group'.stream? place = group.stream? place

variable {group : StreamGroup} {place : Nat} {stream : TokenStream}

theorem Keeps.refl (kept : Nat) (group : StreamGroup) : Keeps kept group group :=
  fun _ _ => rfl

theorem Keeps.trans {kept : Nat} {group group' group'' : StreamGroup} (h : Keeps kept group group')
    (h' : Keeps kept group' group'')
    : Keeps kept group group'' := by
  intro place hplace
  rw [h' place hplace, h place hplace]

theorem Keeps.mono {kept fewer : Nat} {group group' : StreamGroup} (h : Keeps kept group group')
    (hfewer : fewer ≤ kept)
    : Keeps fewer group group' := by
  intro place hplace
  exact h place (by omega)

theorem Keeps.length_le {kept : Nat} {group group' : StreamGroup} (h : Keeps kept group group')
    (hkept : kept ≤ group.cursors.length)
    : kept ≤ group'.cursors.length := by
  cases kept with
  | zero => omega
  | succ last =>
    have hlt : last < group.cursors.length := by omega
    have hlast := h last (by omega)
    unfold stream? at hlast
    rw [List.getElem?_eq_getElem hlt] at hlast
    rcases Option.map_eq_some_iff.mp hlast with ⟨cursor, hcursor, _⟩
    exact (List.getElem?_eq_some_iff.mp hcursor).1

theorem cursor_of_stream? (h : group.stream? place = some stream)
    : group.cursors[place]? = some stream.position := by
  unfold stream? at h
  rcases Option.map_eq_some_iff.mp h with ⟨cursor, hcursor, rfl⟩
  exact hcursor

theorem lt_of_stream? (h : group.stream? place = some stream) : place < group.cursors.length :=
  (List.getElem?_eq_some_iff.mp (cursor_of_stream? h)).1

theorem exists_stream? (h : place < group.cursors.length)
    : ∃ stream, group.stream? place = some stream := by
  unfold stream?
  rw [List.getElem?_eq_getElem h]
  exact ⟨_, rfl⟩

theorem stream?_length (group : StreamGroup) : group.stream? group.cursors.length = none := by
  unfold stream?
  rw [List.getElem?_eq_none (Nat.le_refl _)]
  rfl

theorem tokens_of_stream? (h : group.stream? place = some stream) : stream.tokens = group.tokens := by
  unfold stream? at h
  rcases Option.map_eq_some_iff.mp h with ⟨cursor, _, rfl⟩
  rfl

/--
The group with the cursor at a place moved.
-/
def put (group : StreamGroup) (place : Nat) (cursor : Int) : StreamGroup :=
  { group with cursors := group.cursors.set place cursor }

/--
The group with one more stream.
-/
def add (group : StreamGroup) (cursor : Int) : StreamGroup :=
  { group with cursors := group.cursors ++ [cursor] }

theorem put_self (h : group.stream? place = some stream) : group.put place stream.position = group := by
  rcases List.getElem?_eq_some_iff.mp (cursor_of_stream? h) with ⟨hplace, hcursor⟩
  unfold put
  rw [← hcursor, List.set_getElem_self]

theorem stream?_put_ne {other : Nat} (h : other ≠ place) (cursor : Int)
    : (group.put place cursor).stream? other = group.stream? other := by
  unfold stream? put
  rw [List.getElem?_set_ne h.symm]

theorem keeps_put (group : StreamGroup) (place : Nat) (cursor : Int)
    : Keeps place group (group.put place cursor) := by
  intro other hother
  exact stream?_put_ne (by omega) cursor

theorem stream?_put {after : TokenStream} (h : group.stream? place = some stream)
    (hafter : after.tokens = stream.tokens)
    : (group.put place after.position).stream? place = some after := by
  unfold stream? put
  rw [List.getElem?_set_self (lt_of_stream? h), Option.map_some, ← tokens_of_stream? h, ← hafter]

theorem keeps_add (group : StreamGroup) (cursor : Int)
    : Keeps group.cursors.length group (group.add cursor) := by
  intro other hother
  unfold stream? add
  rw [List.getElem?_append_left hother]

theorem stream?_add (h : group.stream? place = some stream)
    : (group.add stream.position).stream? group.cursors.length = some stream := by
  unfold stream? add
  rw [List.getElem?_concat_length, Option.map_some, ← tokens_of_stream? h]

theorem fulfil?_ask (h : group.stream? place = some stream) (asked : StreamRequest)
    : group.fulfil? (.ask place asked)
        =
      some ((stream.fulfil asked).1, group.put place (stream.fulfil asked).2.position) := by
  simp only [fulfil?, h, Option.map_some]
  rfl

theorem fulfil?_duplicate (h : group.stream? place = some stream)
    : group.fulfil? (.duplicate place)
        =
      some (.ok (.joined group.cursors.length), group.add stream.position) := by
  simp only [fulfil?, h, Option.map_some]
  rfl

theorem fulfil?_restart (h : group.stream? place = some stream)
    : group.fulfil? (.restart place)
        =
      some (.ok (.joined group.cursors.length), group.add stream.rewind.position) := by
  simp only [fulfil?, h, Option.map_some]
  rfl

end StreamGroup
end TokenGrammar
