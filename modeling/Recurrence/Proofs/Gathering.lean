import Mathlib.Data.List.Destutter
import Mathlib.Data.List.Sort
import Recurrence.Proofs.Dates

/-!
# Gathering what positions name

Positions come in any order. Two of them may name one element, counted from the front and from the
back, and some name none. A list that is gathered position by position has to be sorted and cleared
of repetitions; it is then the one that is selected by going through the elements.
-/

namespace Recurrence

section InOrder

variable {α : Type} [LinearOrder α] {list other : List α} {a : α}

/-- A sorted list without repetitions ascends. -/
theorem ascending_of_sorted (sorted : list.Pairwise (· ≤ ·)) (distinct : list.Nodup) :
    list.Pairwise (· < ·) :=
  sorted.imp₂ (fun _ _ le different => lt_of_le_of_ne le different) distinct

/-- The elements of a list in ascending order, each of them once: the list is sorted, and of equal
    neighbours one is kept. -/
def inOrder (list : List α) : List α :=
  (list.mergeSort (· ≤ ·)).destutter (· ≠ ·)

/-- In a sorted list all repetitions are neighbours. -/
theorem inOrder_eq_dedup (list : List α) : inOrder list = (list.mergeSort (· ≤ ·)).dedup :=
  (List.pairwise_mergeSort' (· ≤ ·) list).destutter_eq_dedup

@[simp]
theorem mem_inOrder : a ∈ inOrder list ↔ a ∈ list := by
  rw [inOrder_eq_dedup, List.mem_dedup, List.mem_mergeSort]

theorem inOrder_ascending (list : List α) : (inOrder list).Pairwise (· < ·) := by
  rw [inOrder_eq_dedup]
  exact ascending_of_sorted
    ((List.pairwise_mergeSort' (· ≤ ·) list).sublist (List.dedup_sublist _)) (List.nodup_dedup _)

/-- A list in ascending order is determined by its elements. -/
theorem eq_inOrder_of_mem_iff (ascending : list.Pairwise (· < ·))
    (same : ∀ a, a ∈ list ↔ a ∈ other) : list = inOrder other :=
  ascending.eq_of_mem_iff (inOrder_ascending other) fun a => (same a).trans mem_inOrder.symm

end InOrder

namespace Position

variable {α : Type} {list : List α} {positions : List Int} {position : Int} {a : α}

/-- The element that a position names, looked up by its place: the front of the list has place 0,
    and negative positions count back from its length. -/
def element? (list : List α) (position : Int) : Option α :=
  let place := if 0 < position then position - 1 else list.length + position
  if 0 ≤ place then list[place.toNat]? else none

/-- A position names the element at a place that it counts from the front or from the back. -/
theorem element?_eq_some_iff :
    element? list position = some a ↔
      ∃ place : Nat, list[place]? = some a ∧
        ((place : Int) + 1 = position ∨ (place : Int) - list.length = position) := by
  simp only [element?]
  constructor
  · intro found
    obtain ⟨nonneg, listed⟩ := Option.ite_none_right_eq_some.1 found
    refine ⟨_, listed, ?_⟩
    split at nonneg <;> omega
  · rintro ⟨place, listed, counted⟩
    obtain ⟨inList, -⟩ := List.getElem?_eq_some_iff.1 listed
    have found : (if 0 < position then position - 1 else list.length + position) = place := by
      split <;> omega
    rw [found, if_pos (Int.natCast_nonneg place), Int.toNat_natCast, listed]

/-- The elements that positions name, looked up position by position and then put in order. Without
    any positions all elements are kept. -/
def gather [LinearOrder α] (positions : List Int) (list : List α) : List α :=
  if positions = [] then list else inOrder (positions.filterMap (element? list))

/-- A number names a place exactly if it counts it from the front or from the back. -/
theorem names_iff {place length : Nat} (inList : place < length) :
    Names position place (length - 1 - place) ↔
      (place : Int) + 1 = position ∨ (place : Int) - length = position := by
  simp only [Names]
  omega

/-- An element is selected exactly if its place is counted by some position. -/
theorem mem_select_iff_counted (given : positions ≠ []) :
    a ∈ select positions list ↔
      ∃ place : Nat, list[place]? = some a ∧ ∃ position ∈ positions,
        (place : Int) + 1 = position ∨ (place : Int) - list.length = position := by
  rw [mem_select given]
  refine exists_congr fun place => and_congr_right fun listed => ?_
  obtain ⟨inList, -⟩ := List.getElem?_eq_some_iff.1 listed
  simp only [names_iff inList]

/-- Gathering position by position selects the same elements as going through the list. -/
theorem gather_eq_select [LinearOrder α] (ascending : list.Pairwise (· < ·))
    (positions : List Int) : gather positions list = select positions list := by
  by_cases given : positions = []
  · rw [gather, if_pos given, select, if_pos given]
  · rw [gather, if_neg given, eq_comm]
    refine eq_inOrder_of_mem_iff (ascending.sublist (select_sublist _ _)) fun a => ?_
    simp only [mem_select_iff_counted given, List.mem_filterMap, element?_eq_some_iff]
    constructor
    · rintro ⟨place, listed, position, isPosition, counted⟩
      exact ⟨position, isPosition, place, listed, counted⟩
    · rintro ⟨position, isPosition, place, listed, counted⟩
      exact ⟨place, listed, position, isPosition, counted⟩

/-- Nothing is selected exactly if all positions are zero or lie outside of the list. -/
theorem select_eq_nil_iff (given : positions ≠ []) :
    select positions list = [] ↔
      ∀ position ∈ positions, position = 0 ∨ list.length < position.natAbs := by
  rw [List.eq_nil_iff_forall_not_mem]
  simp only [mem_select_iff_counted given]
  constructor
  · intro nothing position isPosition
    by_contra inside
    have place : (if 0 < position then position - 1 else list.length + position).toNat <
        list.length := by
      split <;> omega
    refine nothing _ ⟨_, List.getElem?_eq_getElem place, position, isPosition, ?_⟩
    split <;> omega
  · rintro outside a ⟨place, listed, position, isPosition, counted⟩
    obtain ⟨inList, -⟩ := List.getElem?_eq_some_iff.1 listed
    have := outside position isPosition
    omega

/-- The elements of an ascending list that positions select are those whose place some position
    counts, from 1 at the front or from -1 at the back. They ascend, so that none is repeated. A
    position that is zero or lies outside of the list selects nothing, and it makes no difference
    whether the elements are selected on a way through the list or looked up position by
    position. -/
theorem select_exactly {dates : List Date} (ascending : dates.Pairwise (· < ·))
    (given : positions ≠ []) :
    (select positions dates).Pairwise (· < ·) ∧
      (∀ date, date ∈ select positions dates ↔
        ∃ place : Nat, dates[place]? = some date ∧ ∃ position ∈ positions,
          (place : Int) + 1 = position ∨ (place : Int) - dates.length = position) ∧
      (select positions dates = [] ↔
        ∀ position ∈ positions, position = 0 ∨ dates.length < position.natAbs) ∧
      gather positions dates = select positions dates :=
  ⟨ascending.sublist (select_sublist _ _), fun _ => mem_select_iff_counted given,
    select_eq_nil_iff given, gather_eq_select ascending positions⟩

/-- The last of three Sundays is named from both ends, and two positions name no Sunday. -/
theorem gather_first_and_last_sunday :
    ∃ first ∈ Date.ofYmd? 2018 1 7, ∃ second ∈ Date.ofYmd? 2018 1 14,
      ∃ third ∈ Date.ofYmd? 2018 1 21,
        [first, second, third].Pairwise (· < ·) ∧
          gather [-1, 0, 3, -32768, 1] [first, second, third] = [first, third] := by
  refine ⟨_, rfl, _, rfl, _, rfl, by decide, ?_⟩
  exact (select_exactly (by decide) (by decide)).2.2.2.trans rfl

end Position

end Recurrence
