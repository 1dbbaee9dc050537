import Mathlib.Data.List.Basic
import Mathlib.Data.Nat.ModEq

/-!
# Ring buffers

A list is laid out in an array of cells from a head position on, wrapping round at
the end of the array, with every other cell empty. Appending writes the first
empty cell and removing the front clears the head and moves it on.
-/

namespace Tyrne.Lib.Ring

set_option autoImplicit false

variable {Item : Type} {size head : Nat} {cells : Vector (Option Item) size}
  {contents : List Item}

/-- The cells from `head` on hold `contents` and the rest is empty. -/
def Laid (cells : Vector (Option Item) size) (head : Nat) (contents : List Item) : Prop :=
  ∀ offset < size, cells[(head + offset) % size]? = some contents[offset]?

def readFrom (cells : Vector (Option Item) size) (head count : Nat) : List Item :=
  (List.range count).filterMap fun offset => cells[(head + offset) % size]?.join

theorem cell_injective {left right : Nat} (leftInside : left < size)
    (rightInside : right < size) (same : (head + left) % size = (head + right) % size) :
    left = right := by
  have equal : left ≡ right [MOD size] := Nat.ModEq.add_left_cancel' head same
  exact Nat.ModEq.eq_of_lt_of_lt equal leftInside rightInside

theorem laid_empty (head : Nat) :
    Laid (Vector.replicate size (none : Option Item)) head [] := by
  intro offset inside
  have bound : (head + offset) % size < size := Nat.mod_lt _ (by omega)
  simp [bound]

theorem every_cell (inside : head < size) {index : Nat} (bound : index < size) :
    ∃ offset < size, (head + offset) % size = index := by
  by_cases beyond : head ≤ index
  · refine ⟨index - head, by omega, ?_⟩
    rw [Nat.add_sub_cancel' beyond, Nat.mod_eq_of_lt bound]
  · have round : head + (index + size - head) = index + size := by omega
    refine ⟨index + size - head, by omega, ?_⟩
    rw [round, Nat.add_mod_right, Nat.mod_eq_of_lt bound]

theorem Laid.occupied (laid : Laid cells head contents) (fits : contents.length ≤ size)
    (inside : head < size) {index : Nat} (bound : index < size) :
    (∃ item, cells[index]? = some (some item)) ↔
      ∃ offset < contents.length, (head + offset) % size = index := by
  constructor
  · rintro ⟨item, found⟩
    obtain ⟨offset, offsetBound, same⟩ := every_cell inside bound
    refine ⟨offset, ?_, same⟩
    rw [← same, laid offset offsetBound] at found
    exact (List.getElem?_eq_some_iff.mp (Option.some.inj found)).1
  · rintro ⟨offset, offsetBound, same⟩
    refine ⟨contents[offset], ?_⟩
    rw [← same, laid offset (by omega), List.getElem?_eq_getElem offsetBound]

theorem filter_map_range (contents : List Item) :
    (List.range contents.length).filterMap (fun offset => contents[offset]?) = contents := by
  induction contents with
  | nil => rfl
  | cons item rest ih =>
      rw [List.length_cons, List.range_succ_eq_map, List.filterMap_cons, List.filterMap_map]
      exact congrArg (List.cons item) ih

theorem Laid.contents_read (laid : Laid cells head contents) (fits : contents.length ≤ size) :
    readFrom cells head contents.length = contents := by
  have read : ∀ offset ∈ List.range contents.length,
      cells[(head + offset) % size]?.join = contents[offset]? := by
    intro offset member
    have bound := List.mem_range.mp member
    rw [laid offset (by omega)]
    rfl
  rw [readFrom, List.filterMap_congr read]
  exact filter_map_range contents

theorem Laid.push (laid : Laid cells head contents) (room : contents.length < size)
    (item : Item) :
    Laid (cells.setIfInBounds ((head + contents.length) % size) (some item)) head
      (contents ++ [item]) := by
  intro offset inside
  have bound : (head + contents.length) % size < size := Nat.mod_lt _ (by omega)
  by_cases last : offset = contents.length
  · subst last
    simp [bound]
  · have elsewhere : (head + contents.length) % size ≠ (head + offset) % size := by
      intro same
      exact last (cell_injective inside room same.symm)
    rw [Vector.getElem?_setIfInBounds_ne elsewhere, laid offset inside]
    by_cases before : offset < contents.length
    · rw [List.getElem?_append_left before]
    · rw [List.getElem?_eq_none (by omega), List.getElem?_eq_none (by simp; omega)]

theorem Laid.first {item : Item} {rest : List Item} (laid : Laid cells head (item :: rest))
    (inside : head < size) : cells[head]? = some (some item) := by
  have found := laid 0 (by omega)
  simpa [Nat.mod_eq_of_lt inside] using found

theorem Laid.pop {item : Item} {rest : List Item} (laid : Laid cells head (item :: rest))
    (inside : head < size) (fits : rest.length < size) :
    Laid (cells.setIfInBounds head none) ((head + 1) % size) rest := by
  intro offset bound
  have moved : ((head + 1) % size + offset) % size = (head + (offset + 1)) % size := by
    rw [Nat.mod_add_mod, Nat.add_assoc, Nat.add_comm 1 offset]
  rw [moved]
  by_cases last : offset + 1 = size
  · have home : (head + (offset + 1)) % size = head := by
      rw [last, Nat.add_mod_right, Nat.mod_eq_of_lt inside]
    rw [home, List.getElem?_eq_none (by omega)]
    simp [inside]
  · have elsewhere : head ≠ (head + (offset + 1)) % size := by
      intro same
      have clash : (head + (offset + 1)) % size = (head + 0) % size := by
        exact same.symm.trans (Nat.mod_eq_of_lt inside).symm
      have zero := cell_injective (by omega) (by omega) clash
      omega
    rw [Vector.getElem?_setIfInBounds_ne elsewhere, laid (offset + 1) (by omega)]
    simp

end Tyrne.Lib.Ring
