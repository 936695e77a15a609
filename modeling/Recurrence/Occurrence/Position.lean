/-!
# Positions counted from both ends

Rules count things from 1 at the front and from -1 at the back: days of a month, the Mondays of
a month, the dates of a period. A place among such things is known by how many come before it
and how many come after it.
-/

namespace Recurrence.Position

/-- The number `n` names the place with `before` things in front of it and `after` behind it.
    Zero names no place. -/
def Names (n : Int) (before after : Nat) : Prop :=
  n = before + 1 ∨ n = -(after + 1)

instance (n : Int) (before after : Nat) : Decidable (Names n before after) :=
  inferInstanceAs (Decidable (_ ∨ _))

/-- The elements of a list whose places are named by one of `positions`. Without any positions
    all elements are selected. -/
def select {α : Type} (positions : List Int) (elements : List α) : List α :=
  if positions = [] then elements
  else
    let last := elements.length - 1
    (elements.zipIdx.filter fun (_, before) =>
      ∃ n ∈ positions, Names n before (last - before)).map Prod.fst

/-- Selected elements keep their order and are not repeated. -/
theorem select_sublist {α : Type} (positions : List Int) (elements : List α) :
    (select positions elements).Sublist elements := by
  simp only [select]
  split
  · exact List.Sublist.refl _
  · have kept : (elements.zipIdx.filter fun (_, before) =>
        ∃ n ∈ positions, Names n before (elements.length - 1 - before)).Sublist elements.zipIdx :=
      List.filter_sublist
    simpa using kept.map Prod.fst

/-- An element is selected exactly if some number names its place. -/
theorem mem_select {α : Type} {positions : List Int} {elements : List α} {a : α}
    (given : positions ≠ []) :
    a ∈ select positions elements ↔
      ∃ before, elements[before]? = some a ∧
        ∃ n ∈ positions, Names n before (elements.length - 1 - before) := by
  simp only [select, given, if_false, List.mem_map, List.mem_filter, List.mem_zipIdx_iff_getElem?,
    decide_eq_true_eq, Prod.exists, exists_and_right, exists_eq_right]

end Recurrence.Position
