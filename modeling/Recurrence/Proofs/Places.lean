import Mathlib.Data.Set.Card
import Mathlib.Order.Bounds.Basic
import Recurrence.Occurrence.Position

/-!
# Places in an ordered set

A list in ascending order is a set whose elements can be counted from either end. This file
relates the two views: the first element of the list that is late enough is the least one of
the set, and the place of an element in the list is the number of smaller ones.
-/

namespace Recurrence

variable {α : Type} [LinearOrder α] {list front back : List α} {a : α}

theorem nodup_of_ascending (ascending : list.Pairwise (· < ·)) : list.Nodup :=
  ascending.imp fun h => ne_of_lt h

theorem ncard_setOf_mem (ascending : list.Pairwise (· < ·)) :
    {a | a ∈ list}.ncard = list.length := by
  have same : {a | a ∈ list} = (list.toFinset : Set α) := by
    ext a
    simp
  rw [same, Set.ncard_coe_finset, List.toFinset_card_of_nodup (nodup_of_ascending ascending)]

/-- The elements of an ascending list that are less than one of them are those in front of it. -/
theorem setOf_mem_lt_eq (ascending : (front ++ a :: back).Pairwise (· < ·)) :
    {b ∈ {b | b ∈ front ++ a :: back} | b < a} = {b | b ∈ front} := by
  obtain ⟨-, tail, across⟩ := List.pairwise_append.1 ascending
  have later := (List.pairwise_cons.1 tail).1
  ext b
  simp only [Set.mem_ofPred_eq, List.mem_append, List.mem_cons]
  constructor
  · rintro ⟨inFront | rfl | inBack, less⟩
    · exact inFront
    · exact absurd less (lt_irrefl b)
    · exact absurd less (lt_asymm (later b inBack))
  · intro inFront
    exact ⟨Or.inl inFront, across b inFront a List.mem_cons_self⟩

/-- The elements of an ascending list that are greater than one of them are those behind it. -/
theorem setOf_mem_gt_eq (ascending : (front ++ a :: back).Pairwise (· < ·)) :
    {b ∈ {b | b ∈ front ++ a :: back} | a < b} = {b | b ∈ back} := by
  obtain ⟨-, tail, across⟩ := List.pairwise_append.1 ascending
  have later := (List.pairwise_cons.1 tail).1
  ext b
  simp only [Set.mem_ofPred_eq, List.mem_append, List.mem_cons]
  constructor
  · rintro ⟨inFront | rfl | inBack, greater⟩
    · exact absurd greater (lt_asymm (across b inFront a List.mem_cons_self))
    · exact absurd greater (lt_irrefl b)
    · exact inBack
  · intro inBack
    exact ⟨Or.inr (Or.inr inBack), later b inBack⟩

theorem isLeast_of_find?_eq_some (ascending : list.Pairwise (· < ·)) {wanted : α → Bool}
    (found : list.find? wanted = some a) : IsLeast {b | b ∈ list ∧ wanted b} a := by
  obtain ⟨holds, front, back, rfl, earlier⟩ := List.find?_eq_some_iff_append.1 found
  refine ⟨⟨by simp, holds⟩, ?_⟩
  rintro b ⟨listed, wants⟩
  by_contra less
  have inFront : b ∈ {b | b ∈ front} := by
    rw [← setOf_mem_lt_eq ascending]
    exact ⟨listed, not_le.1 less⟩
  have unwanted := earlier b inFront
  simp [wants] at unwanted

/-- A search through an ascending list finds the least of the wanted elements. -/
theorem find?_eq_some_iff_isLeast (ascending : list.Pairwise (· < ·)) {wanted : α → Bool} :
    list.find? wanted = some a ↔ IsLeast {b | b ∈ list ∧ wanted b} a := by
  constructor
  · exact isLeast_of_find?_eq_some ascending
  · intro least
    cases found : list.find? wanted with
    | none =>
      have unwanted := List.find?_eq_none.1 found a least.1.1
      exact absurd least.1.2 unwanted
    | some b => rw [(isLeast_of_find?_eq_some ascending found).unique least]

section Cons

variable {first bound : α} {rest : List α}

/-- If the first element of an ascending list reaches a bound, no element lies below it. -/
theorem setOf_lt_cons_eq_empty (later : ∀ b ∈ rest, first < b) (reached : bound ≤ first) :
    {b | b ∈ first :: rest ∧ b < bound} = ∅ := by
  apply Set.eq_empty_of_forall_notMem
  rintro b ⟨listed, less⟩
  rcases List.mem_cons.1 listed with rfl | inRest
  · exact absurd less (not_lt.2 reached)
  · exact absurd less (not_lt.2 (le_trans reached (le_of_lt (later b inRest))))

/-- If the first element of an ascending list reaches a bound, it is the least one that does. -/
theorem isLeast_cons (later : ∀ b ∈ rest, first < b) (reached : bound ≤ first) :
    IsLeast {b | b ∈ first :: rest ∧ bound ≤ b} first := by
  refine ⟨⟨List.mem_cons_self, reached⟩, ?_⟩
  rintro b ⟨listed, -⟩
  rcases List.mem_cons.1 listed with rfl | inRest
  · exact le_refl _
  · exact le_of_lt (later b inRest)

/-- An element below a bound in front of a list is not among those that reach it. -/
theorem setOf_le_cons_of_lt (below : first < bound) :
    {b | b ∈ first :: rest ∧ bound ≤ b} = {b | b ∈ rest ∧ bound ≤ b} := by
  ext b
  simp only [List.mem_cons, Set.mem_ofPred_eq, or_and_right, or_iff_right_iff_imp]
  rintro ⟨rfl, le⟩
  exact absurd below (not_lt.2 le)

/-- An element below a bound in front of an ascending list is one more element below it. -/
theorem ncard_lt_cons_of_lt (later : ∀ b ∈ rest, first < b) (below : first < bound) :
    {b | b ∈ first :: rest ∧ b < bound}.ncard = {b | b ∈ rest ∧ b < bound}.ncard + 1 := by
  have counted : {b | b ∈ first :: rest ∧ b < bound} =
      insert first {b | b ∈ rest ∧ b < bound} := by
    ext b
    simp only [List.mem_cons, Set.mem_ofPred_eq, or_and_right, Set.mem_insert_iff]
    constructor
    · rintro (⟨rfl, -⟩ | member)
      · exact Or.inl rfl
      · exact Or.inr member
    · rintro (rfl | member)
      · exact Or.inl ⟨rfl, below⟩
      · exact Or.inr member
  have fresh : first ∉ {b | b ∈ rest ∧ b < bound} := fun member =>
    lt_irrefl first (later first member.1)
  have finite : {b | b ∈ rest ∧ b < bound}.Finite :=
    rest.finite_toSet.subset fun b member => member.1
  rw [counted, Set.ncard_insert_of_notMem fresh finite]

end Cons

/-- Among the first `n` elements of an ascending list, a search for an element that is not below
    `bound` finds the least such element of the list, if fewer than `n` elements are below. -/
theorem find?_take_eq_some_iff (ascending : list.Pairwise (· < ·)) (bound : α) (n : Nat) :
    (list.take n).find? (bound ≤ ·) = some a ↔
      IsLeast {b | b ∈ list ∧ bound ≤ b} a ∧ {b | b ∈ list ∧ b < bound}.ncard < n := by
  induction list generalizing n with
  | nil => simp [IsLeast]
  | cons first rest ih =>
    obtain ⟨later, tail⟩ := List.pairwise_cons.1 ascending
    cases n with
    | zero => simp
    | succ n =>
      by_cases reached : bound ≤ first
      · rw [setOf_lt_cons_eq_empty later reached, (isLeast_cons later reached).isLeast_iff_eq]
        simp [reached]
      · have below : first < bound := not_le.1 reached
        rw [setOf_le_cons_of_lt below, ncard_lt_cons_of_lt later below, List.take_succ_cons,
          List.find?_cons_of_neg (by simpa using below), ih tail n, Nat.add_lt_add_iff_right]

namespace Position

/-- The number `n` names the element `a` of a set: it counts the elements up to `a`, or with a
    negative sign those from `a` on. -/
def NamesIn (n : Int) (set : Set α) (a : α) : Prop :=
  Names n {b ∈ set | b < a}.ncard {b ∈ set | a < b}.ncard

theorem ncard_of_getElem? (ascending : list.Pairwise (· < ·)) {before : Nat}
    (listed : list[before]? = some a) :
    {b ∈ {b | b ∈ list} | b < a}.ncard = before ∧
      {b ∈ {b | b ∈ list} | a < b}.ncard = list.length - 1 - before := by
  obtain ⟨bound, rfl⟩ := List.getElem?_eq_some_iff.1 listed
  have split : list = list.take before ++ list[before] :: list.drop (before + 1) := by
    rw [← List.drop_eq_getElem_cons, List.take_append_drop]
  have ascending' := ascending
  rw [split] at ascending'
  obtain ⟨frontAscending, tail, -⟩ := List.pairwise_append.1 ascending'
  have lower := setOf_mem_lt_eq ascending'
  have upper := setOf_mem_gt_eq ascending'
  rw [← split] at lower upper
  rw [lower, upper, ncard_setOf_mem frontAscending, ncard_setOf_mem (List.pairwise_cons.1 tail).2,
    List.length_take, List.length_drop]
  omega

/-- Selecting positions of an ascending list keeps the elements that some position names. -/
theorem mem_select_iff (ascending : list.Pairwise (· < ·)) {positions : List Int} :
    a ∈ select positions list ↔
      a ∈ list ∧ (positions = [] ∨ ∃ n ∈ positions, NamesIn n {b | b ∈ list} a) := by
  by_cases given : positions = []
  · simp [select, given]
  · rw [mem_select given]
    constructor
    · rintro ⟨before, listed, n, position, names⟩
      obtain ⟨lower, upper⟩ := ncard_of_getElem? ascending listed
      refine ⟨List.mem_of_getElem? listed, Or.inr ⟨n, position, ?_⟩⟩
      rwa [NamesIn, lower, upper]
    · rintro ⟨member, none_given | ⟨n, position, names⟩⟩
      · exact absurd none_given given
      · obtain ⟨before, listed⟩ := List.mem_iff_getElem?.1 member
        obtain ⟨lower, upper⟩ := ncard_of_getElem? ascending listed
        rw [NamesIn, lower, upper] at names
        exact ⟨before, listed, n, position, names⟩

end Position

end Recurrence
