import Mathlib.Algebra.Order.Group.Int
import Mathlib.Data.Int.Interval
import Recurrence.Occurrence.Periods
import Recurrence.Proofs.Dates

/-!
# What a search through periods finds

Periods enumerate a set of dates if they list, period by period and in ascending order, exactly
the dates of the set. A search then goes through one ascending list, the candidates of every
`interval`-th period, and so it finds the least date that is late enough, as far as it reaches.

## Main definitions

- `Periods.Enumerates` — the periods list exactly the dates of a set
- `Periods.listing` — the candidates of the periods that a search visits
- `Visits` — whether a search that is bounded by a number of periods gets to a period

## Main statements

- `Periods.Enumerates.firstOnOrAfter?_eq_some_iff` — the search finds the least occurrence on or
  after the anchor, if it gets that far and not too many occurrences come before the anchor
-/

namespace Recurrence

/-- A least element of a set belongs to an initial part of the set exactly if it is the least
    one of that part. -/
theorem isLeast_sep_iff {α : Type} [LinearOrder α] {set : Set α} {p : α → Prop} {a : α}
    (initial : ∀ b ∈ set, b ≤ a → p a → p b) : IsLeast {b ∈ set | p b} a ↔ IsLeast set a ∧ p a := by
  constructor
  · rintro ⟨⟨member, holds⟩, least⟩
    refine ⟨⟨member, fun b inSet => ?_⟩, holds⟩
    by_contra less
    exact less (least ⟨inSet, initial b inSet (le_of_lt (not_le.1 less)) holds⟩)
  · rintro ⟨⟨member, least⟩, holds⟩
    exact ⟨⟨member, holds⟩, fun b inPart => least inPart.1⟩

theorem dvd_roundUp (index : Int) (interval : Nat) : (interval : Int) ∣ roundUp index interval := by
  have split := Int.emod_add_mul_ediv index interval
  simp only [roundUp]
  rw [Int.dvd_iff_emod_eq_zero, Int.add_emod, Int.emod_emod, ← Int.add_emod]
  have whole : index + (interval - index % interval) = interval * (index / interval + 1) := by
    rw [mul_add]
    omega
  rw [whole, Int.mul_emod_right]

theorem roundUp_bounds (index : Int) {interval : Nat} (positive : 0 < interval) :
    index ≤ roundUp index interval ∧ roundUp index interval < index + interval := by
  have lower := Int.emod_nonneg (interval - index % interval) (b := interval) (by omega)
  have upper := Int.emod_lt_of_pos (interval - index % interval) (b := interval) (by omega)
  simp only [roundUp]
  omega

/-- The multiples of the interval that are not below `index` are those from the first one on, an
    interval apart. -/
theorem exists_roundUp_add_iff {index n : Int} {interval : Nat} (positive : 0 < interval) :
    (∃ k : Nat, roundUp index interval + k * interval = n) ↔ (interval : Int) ∣ n ∧ index ≤ n := by
  have first := dvd_roundUp index interval
  have bounds := roundUp_bounds index positive
  constructor
  · rintro ⟨k, rfl⟩
    refine ⟨dvd_add first (Int.dvd_mul_left _ _), ?_⟩
    have : 0 ≤ (k : Int) * interval := Int.mul_nonneg (by omega) (by omega)
    omega
  · rintro ⟨divides, le⟩
    obtain ⟨quotient, apart⟩ := dvd_sub divides first
    -- one interval less would still not be below `index`, against the choice of the first one
    have nonneg : 0 ≤ quotient := by
      by_contra negative
      have : (interval : Int) * quotient ≤ interval * (-1) :=
        Int.mul_le_mul_of_nonneg_left (by omega) (by omega)
      omega
    refine ⟨quotient.toNat, ?_⟩
    rw [Int.toNat_of_nonneg nonneg, mul_comm]
    omega

/-- Whether a search that is bounded by `limit` periods gets from the period `current` to the
    period `index`. Without a number of occurrences it visits `limit` multiples of the interval;
    with one it goes on until it has gone `limit` intervals. -/
def Visits (interval limit : Nat) (count? : Option Nat) (current index : Int) : Prop :=
  match count? with
  | none => {n : Int | (interval : Int) ∣ n ∧ current ≤ n ∧ n ≤ index}.ncard ≤ limit
  | some _ => index ≤ current + limit * interval

/-- The multiples of the interval up to the one reached in `k` steps are `k + 1`. -/
theorem ncard_multiples {current : Int} {interval : Nat} (positive : 0 < interval) (k : Nat) :
    {n : Int | (interval : Int) ∣ n ∧ current ≤ n ∧
      n ≤ roundUp current interval + k * interval}.ncard = k + 1 := by
  have injective : Function.Injective
      fun j : Nat => roundUp current interval + (j : Int) * interval := by
    intro i j same
    simpa [positive.ne'] using same
  -- step numbers are counted instead of the multiples that they lead to
  have image : {n : Int | (interval : Int) ∣ n ∧ current ≤ n ∧
      n ≤ roundUp current interval + k * interval} =
        (fun j : Nat => roundUp current interval + (j : Int) * interval) ''
          (Finset.range (k + 1) : Set Nat) := by
    ext n
    simp only [← and_assoc, ← exists_roundUp_add_iff positive, Set.mem_ofPred_eq, Set.mem_image,
      Finset.coe_range, Set.mem_Iio]
    constructor
    · rintro ⟨⟨j, rfl⟩, le⟩
      have scaled : (j : Int) * interval ≤ k * interval := by omega
      have : (j : Int) ≤ k := Int.le_of_mul_le_mul_right scaled (by omega)
      exact ⟨j, by omega, rfl⟩
    · rintro ⟨j, less, rfl⟩
      have : (j : Int) * interval ≤ k * interval :=
        Int.mul_le_mul_of_nonneg_right (by omega) (by omega)
      exact ⟨⟨j, rfl⟩, by omega⟩
  rw [image, Set.ncard_image_of_injective _ injective, Set.ncard_coe_finset, Finset.card_range]

/-- Without a number of occurrences, the search visits its periods step by step from the first
    multiple of the interval on. -/
theorem exists_lt_roundUp_add_iff {current index : Int} {interval limit : Nat}
    (positive : 0 < interval) :
    (∃ k < limit, roundUp current interval + (k : Int) * interval = index) ↔
      ((interval : Int) ∣ index ∧ current ≤ index) ∧ Visits interval limit none current index := by
  constructor
  · rintro ⟨k, less, rfl⟩
    refine ⟨(exists_roundUp_add_iff positive).1 ⟨k, rfl⟩, ?_⟩
    rw [Visits, ncard_multiples positive]
    omega
  · rintro ⟨multiple, visited⟩
    obtain ⟨k, rfl⟩ := (exists_roundUp_add_iff positive).2 multiple
    rw [Visits, ncard_multiples positive] at visited
    exact ⟨k, by omega, rfl⟩

/-- No search gets further than its number of intervals. -/
theorem Visits.index_le {interval limit : Nat} {count? : Option Nat} {current index : Int}
    (positive : 0 < interval) (multiple : (interval : Int) ∣ index)
    (visits : Visits interval limit count? current index) :
    index ≤ current + limit * interval := by
  cases count? with
  | some count => exact visits
  | none =>
    have stretch : 0 ≤ (limit : Int) * interval := Int.mul_nonneg (by omega) (by omega)
    by_cases later : current ≤ index
    · obtain ⟨k, less, rfl⟩ :=
        (exists_lt_roundUp_add_iff positive).2 ⟨⟨multiple, later⟩, visits⟩
      have first := roundUp_bounds current positive
      have steps : ((k : Int) + 1) * interval ≤ limit * interval :=
        Int.mul_le_mul_of_nonneg_right (by omega) (by omega)
      rw [add_mul] at steps
      omega
    · omega

/-- The steps up to a period are those that lead to multiples of the interval not beyond it. -/
theorem lt_steps_iff {last : Int} {interval : Nat} (positive : 0 < interval) (nonneg : 0 ≤ last)
    {k : Nat} : k < (last / interval).toNat + 1 ↔ (k : Int) * interval ≤ last := by
  have := Int.ediv_nonneg nonneg (show (0 : Int) ≤ interval by omega)
  rw [← Int.le_ediv_iff_mul_le (by omega)]
  omega

/-- With a number of occurrences, the search visits all multiples of the interval that lie
    between zero and the greatest number of a period, as far as it goes. -/
theorem exists_lt_steps_iff {current index : Int} {interval limit : Nat} (count : Nat)
    (positive : 0 < interval) (notBefore : 0 ≤ current) (nonneg : 0 ≤ index)
    (small : index < maxIndex) :
    (∃ k < (min (capIndex (current + capIndex (limit * interval))) (maxIndex - 1) /
        interval).toNat + 1, (k : Int) * interval = index) ↔
      (interval : Int) ∣ index ∧ Visits interval limit (some count) current index := by
  have stretch : 0 ≤ (limit : Int) * interval := Int.mul_nonneg (by omega) (by omega)
  -- cutting numbers off makes no difference below the greatest one
  have stretched : index ≤ current + limit * interval ↔
      index ≤ min (capIndex (current + capIndex (limit * interval))) (maxIndex - 1) := by
    simp only [capIndex]
    omega
  have reached : 0 ≤ min (capIndex (current + capIndex (limit * interval))) (maxIndex - 1) := by
    simp only [capIndex, maxIndex]
    omega
  rw [Visits, stretched]
  generalize min (capIndex (current + capIndex (limit * interval))) (maxIndex - 1) = last at *
  simp only [lt_steps_iff positive reached]
  constructor
  · rintro ⟨k, le, rfl⟩
    exact ⟨Int.dvd_mul_left _ _, le⟩
  · rintro ⟨⟨quotient, rfl⟩, le⟩
    have := Int.nonneg_of_mul_nonneg_right nonneg (by omega)
    obtain ⟨k, rfl⟩ := Int.eq_ofNat_of_zero_le this
    exact ⟨k, by rwa [mul_comm], mul_comm _ _⟩

/-- If no period is left out, a search visits one period after the other, and with a number of
    occurrences it visits one more of them. -/
theorem visits_one_iff {current index : Int} {limit : Nat} (count? : Option Nat)
    (le : current ≤ index) :
    Visits 1 limit count? current index ↔
      index < current + if count?.isSome then limit + 1 else limit := by
  cases count? with
  | none =>
    have first := roundUp_bounds current Nat.one_pos
    have steps := @exists_lt_roundUp_add_iff current index 1 limit Nat.one_pos
    rw [Nat.cast_one, and_iff_right (Int.one_dvd _), and_iff_right le] at steps
    rw [← steps]
    simp only [Option.isSome_none, Bool.false_eq_true, if_false]
    constructor
    · rintro ⟨k, less, rfl⟩
      omega
    · intro less
      exact ⟨(index - current).toNat, by omega, by omega⟩
  | some count =>
    simp only [Visits, Option.isSome_some, if_true]
    omega

/-- A search that gets to a period gets to the earlier ones. -/
theorem Visits.of_le {interval limit : Nat} {count? : Option Nat} {current index later : Int}
    (le : index ≤ later) (visits : Visits interval limit count? current later) :
    Visits interval limit count? current index := by
  cases count? with
  | none =>
    have finite : {n : Int | (interval : Int) ∣ n ∧ current ≤ n ∧ n ≤ later}.Finite :=
      (Set.finite_Icc current later).subset fun n member => member.2
    refine le_trans (Set.ncard_le_ncard ?_ finite) visits
    rintro n ⟨divides, lower, upper⟩
    exact ⟨divides, lower, le_trans upper le⟩
  | some count => exact le_trans le visits

/-- A search that begins in a later period gets as far as one from an earlier period. -/
theorem Visits.of_current_le {interval limit : Nat} {count? : Option Nat}
    {current later index : Int} (le : current ≤ later)
    (visits : Visits interval limit count? current index) :
    Visits interval limit count? later index := by
  cases count? with
  | none =>
    have finite : {n : Int | (interval : Int) ∣ n ∧ current ≤ n ∧ n ≤ index}.Finite :=
      (Set.finite_Icc current index).subset fun n member => member.2
    refine le_trans (Set.ncard_le_ncard ?_ finite) visits
    rintro n ⟨divides, lower, upper⟩
    exact ⟨divides, le_trans le lower, upper⟩
  | some count =>
    simp only [Visits] at visits ⊢
    omega

/-- A search that visits any period at all gets to the one in which it begins. -/
theorem visits_self {interval limit : Nat} (searching : 0 < limit) (count? : Option Nat)
    (current : Int) : Visits interval limit count? current current := by
  cases count? with
  | none =>
    have single : {n : Int | (interval : Int) ∣ n ∧ current ≤ n ∧ n ≤ current} ⊆ {current} := by
      rintro n ⟨-, lower, upper⟩
      exact le_antisymm upper lower
    calc {n : Int | (interval : Int) ∣ n ∧ current ≤ n ∧ n ≤ current}.ncard
        ≤ ({current} : Set Int).ncard := Set.ncard_le_ncard single (Set.finite_singleton _)
      _ = 1 := Set.ncard_singleton _
      _ ≤ limit := searching
  | some count =>
    have : 0 ≤ (limit : Int) * interval := Int.mul_nonneg (by omega) (by omega)
    simp only [Visits]
    omega

theorem add_steps (index : Int) (k interval : Nat) :
    index + interval + (k : Int) * interval = index + ((k + 1 : Nat) : Int) * interval := by
  push_cast
  rw [add_mul]
  omega

namespace Periods

variable {periods : Periods} {selected : Set Date} {start anchor date : Date}
  {interval steps : Nat} {index : Int}

/-- The periods list exactly the dates of a set: each period lists those that it holds, in
    ascending order, and later dates lie in no earlier period. -/
structure Enumerates (periods : Periods) (selected : Set Date) : Prop where
  indexOf_mono : ∀ {a b : Date}, a ≤ b → periods.indexOf a ≤ periods.indexOf b
  indexOf_lt : ∀ date, periods.indexOf date < maxIndex
  ascending : ∀ index, (periods.candidates index).Pairwise (· < ·)
  mem_candidates_iff : ∀ {index : Int} {date : Date}, 0 ≤ index →
    (date ∈ periods.candidates index ↔ date ∈ selected ∧ periods.indexOf date = index)

/-- The candidates of `steps` periods that lie `interval` apart and begin with the period
    `index`. -/
def listing (periods : Periods) (interval : Nat) : (steps : Nat) → (index : Int) → List Date
  | 0, _ => []
  | steps + 1, index =>
    periods.candidates index ++ listing periods interval steps (index + interval)

theorem mem_listing_iff :
    date ∈ periods.listing interval steps index ↔
      ∃ k < steps, date ∈ periods.candidates (index + (k : Int) * interval) := by
  induction steps generalizing index with
  | zero => simp [listing]
  | succ steps ih =>
    rw [listing, List.mem_append, ih, Nat.exists_lt_succ_left]
    -- the first period is step 0, and the steps of the rest move up by one
    simp only [add_steps, Nat.cast_zero, zero_mul, add_zero]

/-- The search that counts takes the first candidates of its listing. -/
theorem scanCounted_eq_find? (left : Nat) :
    periods.scanCounted start anchor interval steps index left =
      (((periods.listing interval steps index).filter (start ≤ ·)).take left).find?
        (anchor ≤ ·) := by
  induction steps generalizing index left with
  | zero => simp [scanCounted, listing]
  | succ steps ih =>
    rw [scanCounted, listing, List.filter_append, List.take_append, List.find?_append]
    cases found : (((periods.candidates index).filter (start ≤ ·)).take left).find?
        (anchor ≤ ·) with
    | some date => rfl
    | none =>
      dsimp only
      rw [Option.none_or]
      split
      next exhausted => simp [Nat.sub_eq_zero_of_le exhausted]
      next => exact ih _

namespace Enumerates

variable (enumerates : periods.Enumerates selected)

include enumerates

theorem candidates_eq_nil (beyond : maxIndex ≤ index) : periods.candidates index = [] := by
  rw [List.eq_nil_iff_forall_not_mem]
  intro date member
  have nonneg : 0 ≤ index := le_trans (by decide) beyond
  have holds := ((enumerates.mem_candidates_iff nonneg).1 member).2
  have small := enumerates.indexOf_lt date
  omega

/-- A search takes the first wanted date of its listing. Cutting a number off at the greatest one
    changes nothing, as no date lies that far. -/
theorem scan_eq_find? (wanted : Date → Bool) {cut : Int} (same : capIndex cut = capIndex index) :
    periods.scan wanted interval steps cut =
      (periods.listing interval steps index).find? wanted := by
  induction steps generalizing index cut with
  | zero => rfl
  | succ steps ih =>
    have candidates : periods.candidates cut = periods.candidates index := by
      by_cases equal : cut = index
      · rw [equal]
      · -- both numbers are cut off, so they lie where no period holds a date
        simp only [capIndex] at same
        rw [enumerates.candidates_eq_nil (by omega), enumerates.candidates_eq_nil (by omega)]
    have next : capIndex (capIndex (cut + interval)) = capIndex (index + interval) := by
      simp only [capIndex] at same ⊢
      omega
    rw [scan, listing, List.find?_append, candidates, ih next]
    cases (periods.candidates index).find? wanted <;> rfl

/-- The listing of a search consists of the dates of the set whose periods are visited. -/
theorem mem_listing_iff (nonneg : 0 ≤ index) :
    date ∈ periods.listing interval steps index ↔
      date ∈ selected ∧ ∃ k < steps, index + (k : Int) * interval = periods.indexOf date := by
  rw [Periods.mem_listing_iff]
  have visited (k : Nat) : 0 ≤ index + (k : Int) * interval :=
    Int.add_nonneg nonneg (Int.mul_nonneg (by omega) (by omega))
  constructor
  · rintro ⟨k, less, member⟩
    obtain ⟨inSet, holds⟩ := (enumerates.mem_candidates_iff (visited k)).1 member
    exact ⟨inSet, k, less, holds.symm⟩
  · rintro ⟨inSet, k, less, holds⟩
    exact ⟨k, less, (enumerates.mem_candidates_iff (visited k)).2 ⟨inSet, holds.symm⟩⟩

theorem listing_ascending (positive : 0 < interval) (nonneg : 0 ≤ index) :
    (periods.listing interval steps index).Pairwise (· < ·) := by
  induction steps generalizing index with
  | zero => exact List.Pairwise.nil
  | succ steps ih =>
    have later : 0 ≤ index + interval := by omega
    refine List.pairwise_append.2 ⟨enumerates.ascending index, ih later, ?_⟩
    intro a inPeriod b inRest
    have indexOfA := ((enumerates.mem_candidates_iff nonneg).1 inPeriod).2
    obtain ⟨-, k, -, indexOfB⟩ := (enumerates.mem_listing_iff later).1 inRest
    -- a date that is no later lies in no later period
    by_contra notLess
    have le := enumerates.indexOf_mono (not_lt.1 notLess)
    have := Int.mul_nonneg (show (0 : Int) ≤ k by omega) (show (0 : Int) ≤ interval by omega)
    omega

/-- The bound of a search that counts never leaves out an occurrence before the anchor. -/
theorem visits_of_lt (before : date < anchor) (limit count : Nat) :
    Visits interval limit (some count) (periods.indexOf anchor) (periods.indexOf date) := by
  have earlier := enumerates.indexOf_mono (le_of_lt before)
  have : 0 ≤ (limit : Int) * interval := Int.mul_nonneg (by omega) (by omega)
  simp only [Visits]
  omega

variable (positive : 0 < interval) (origin : periods.indexOf start = 0) (le : start ≤ anchor)
  (occurrences : Set Date)
  (occurrences_eq : ∀ date, date ∈ occurrences ↔
    start ≤ date ∧ (interval : Int) ∣ periods.indexOf date ∧ date ∈ selected)

include positive origin le occurrences_eq

theorem scan_eq_some_iff (limit : Nat) :
    periods.firstOnOrAfter? start anchor interval limit none = some date ↔
      IsLeast {other ∈ occurrences | anchor ≤ other} date ∧
        Visits interval limit none (periods.indexOf anchor) (periods.indexOf date) := by
  have current : 0 ≤ periods.indexOf anchor := origin ▸ enumerates.indexOf_mono le
  have first : 0 ≤ roundUp (periods.indexOf anchor) interval :=
    le_trans current (roundUp_bounds _ positive).1
  have reached : {other | other ∈ periods.listing interval limit
        (roundUp (periods.indexOf anchor) interval) ∧ decide (anchor ≤ other ∧ start ≤ other)} =
      {other ∈ {other ∈ occurrences | anchor ≤ other} |
        Visits interval limit none (periods.indexOf anchor) (periods.indexOf other)} := by
    ext other
    have notBefore : anchor ≤ other → periods.indexOf anchor ≤ periods.indexOf other :=
      enumerates.indexOf_mono
    have started : anchor ≤ other → start ≤ other := le_trans le
    simp only [Set.mem_ofPred_eq, enumerates.mem_listing_iff first, decide_eq_true_eq,
      exists_lt_roundUp_add_iff positive, occurrences_eq]
    tauto
  simp only [firstOnOrAfter?]
  rw [max_eq_right current, enumerates.scan_eq_find? _ rfl,
    find?_eq_some_iff_isLeast (enumerates.listing_ascending positive first), reached]
  exact isLeast_sep_iff fun other _ earlier visits =>
    visits.of_le (enumerates.indexOf_mono earlier)

/-- The listing of a search that counts consists, from the event start on, of the occurrences whose
    periods are visited. -/
theorem mem_filter_listing_iff (limit count : Nat) :
    date ∈ (periods.listing interval
        ((min (capIndex (periods.indexOf anchor + capIndex (limit * interval))) (maxIndex - 1) /
          interval).toNat + 1) 0).filter (start ≤ ·) ↔
      date ∈ occurrences ∧
        Visits interval limit (some count) (periods.indexOf anchor) (periods.indexOf date) := by
  have current : 0 ≤ periods.indexOf anchor := origin ▸ enumerates.indexOf_mono le
  simp only [List.mem_filter, enumerates.mem_listing_iff (le_refl 0), decide_eq_true_eq,
    occurrences_eq, zero_add]
  by_cases started : start ≤ date
  · have nonneg : 0 ≤ periods.indexOf date := origin ▸ enumerates.indexOf_mono started
    rw [exists_lt_steps_iff count positive current nonneg (enumerates.indexOf_lt date)]
    tauto
  · simp [started]

/-- The search that counts finds the least occurrence on or after the anchor, if fewer than
    `count` occurrences come before the anchor. -/
theorem scanCounted_eq_some_iff (limit count : Nat) :
    periods.firstOnOrAfter? start anchor interval limit (some count) = some date ↔
      IsLeast {other ∈ occurrences | anchor ≤ other} date ∧
        {other ∈ occurrences | other < anchor}.ncard < count ∧
          Visits interval limit (some count) (periods.indexOf anchor) (periods.indexOf date) := by
  have current : 0 ≤ periods.indexOf anchor := origin ▸ enumerates.indexOf_mono le
  have notYet : {other | (other ∈ occurrences ∧
        Visits interval limit (some count) (periods.indexOf anchor) (periods.indexOf other)) ∧
          other < anchor} = {other ∈ occurrences | other < anchor} := by
    ext other
    constructor
    · rintro ⟨⟨occurs, -⟩, before⟩
      exact ⟨occurs, before⟩
    · rintro ⟨occurs, before⟩
      exact ⟨⟨occurs, enumerates.visits_of_lt before limit count⟩, before⟩
  have reached : {other | (other ∈ occurrences ∧
        Visits interval limit (some count) (periods.indexOf anchor) (periods.indexOf other)) ∧
          anchor ≤ other} = {other ∈ {other ∈ occurrences | anchor ≤ other} |
        Visits interval limit (some count) (periods.indexOf anchor) (periods.indexOf other)} := by
    ext other
    simp only [Set.mem_ofPred_eq]
    tauto
  simp only [firstOnOrAfter?]
  rw [max_eq_right current, scanCounted_eq_find?, find?_take_eq_some_iff
    ((enumerates.listing_ascending positive (le_refl 0)).filter _)]
  simp only [enumerates.mem_filter_listing_iff positive origin le occurrences occurrences_eq limit
    count]
  rw [notYet, reached, isLeast_sep_iff fun other _ earlier visits =>
    visits.of_le (enumerates.indexOf_mono earlier)]
  tauto

/-- The search through periods finds the least occurrence on or after the anchor, provided that
    it gets to its period and that not too many occurrences come before the anchor. -/
theorem firstOnOrAfter?_eq_some_iff (limit : Nat) (count? : Option Nat) :
    periods.firstOnOrAfter? start anchor interval limit count? = some date ↔
      IsLeast {other ∈ occurrences | anchor ≤ other} date ∧
        (∀ count ∈ count?, {other ∈ occurrences | other < anchor}.ncard < count) ∧
          Visits interval limit count? (periods.indexOf anchor) (periods.indexOf date) := by
  cases count? with
  | none =>
    rw [enumerates.scan_eq_some_iff positive origin le occurrences occurrences_eq limit]
    simp
  | some count =>
    rw [enumerates.scanCounted_eq_some_iff positive origin le occurrences occurrences_eq limit
      count]
    simp

end Enumerates

end Periods

end Recurrence
