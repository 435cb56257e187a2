import PaymentFees.Proofs.Ranges

namespace PaymentFees

open Binary

namespace Binary

open Float.Model

theorem exists_sized_of_zero_le {v : Float} (magnitude : 0.0 ≤ v) : ∃ a, Sized v a := by
  have least : (UnpackedFloat.compare (.zero .positive) v.toModel.unpack).any (·.isLE) = true :=
    of_decide_eq_true magnitude
  have nonnegative : ¬ v < 0.0 := by
    rw [lt_zero_iff]
    generalize v.toModel.unpack = f at least
    cases f with
    | notANumber => cases least
    | zero s | infinity s | finite s => cases s <;> simp_all [UnpackedFloat.compare]
  have number : v.isNaN = false := by
    change v.toModel.unpack.isNaN = false
    generalize v.toModel.unpack = f at least
    cases f with
    | notANumber => cases least
    | zero | infinity | finite => rfl
  obtain ⟨a, size⟩ := unsigned_abs number
  exact ⟨a, size, nonnegative⟩

end Binary

theorem Ascending.exists_sized {bounds : List Float} (ascending : Ascending bounds)
    {bound : Float} (present : bound ∈ bounds) : ∃ q : ℚ, Sized bound q :=
  sized_of_isMagnitude (ascending.magnitudes bound present)

theorem Ascending.head_lt {lower : Float} {bounds : List Float}
    (ascending : Ascending (lower :: bounds)) : ∀ bound ∈ bounds, lower < bound := by
  -- Each bound is compared only with the one before it, but it is above all before it.
  induction bounds generalizing lower with
  | nil => simp
  | cons upper bounds ih =>
    obtain ⟨p, least⟩ := ascending.exists_sized List.mem_cons_self
    obtain ⟨q, next⟩ := ascending.tail.exists_sized List.mem_cons_self
    have ordered : lower < upper :=
      (next.not_le_iff least).mp (List.isChain_cons_cons.mp ascending.above).1
    intro bound present
    rcases List.mem_cons.mp present with rfl | later
    · exact ordered
    · obtain ⟨r, greater⟩ := ascending.tail.exists_sized present
      have beyond := ih ascending.tail bound later
      rw [least.lt_iff next] at ordered
      rw [next.lt_iff greater] at beyond
      exact (least.lt_iff greater).mpr (ordered.trans beyond)

theorem Ascending.pairwise {bounds : List Float} (ascending : Ascending bounds) :
    bounds.Pairwise (· < ·) := by
  induction bounds with
  | nil => exact .nil
  | cons lower bounds ih => exact .cons ascending.head_lt (ih ascending.tail)

namespace AmountRange

theorem getElem?_ofBounds (bounds : List Float) (i : ℕ) :
    (ofBounds bounds)[i]? = bounds[i]?.map fun lower => ⟨lower, bounds[i + 1]?⟩ := by
  induction bounds using ofBounds.induct generalizing i with
  | case1 => simp [ofBounds]
  | case2 lower => cases i <;> simp [ofBounds]
  | case3 lower upper bounds ih => cases i <;> simp [ofBounds, ih]

theorem mem_ofBounds {bounds : List Float} {range : AmountRange} :
    range ∈ ofBounds bounds ↔ ∃ i, ∃ inside : i < bounds.length,
      range = ⟨bounds[i], bounds[i + 1]?⟩ := by
  simp only [List.mem_iff_getElem?, getElem?_ofBounds, Option.map_eq_some_iff,
    List.getElem?_eq_some_iff]
  constructor
  · rintro ⟨i, lower, ⟨inside, rfl⟩, rfl⟩
    exact ⟨i, inside, rfl⟩
  · rintro ⟨i, inside, rfl⟩
    exact ⟨i, bounds[i], ⟨inside, rfl⟩, rfl⟩

end AmountRange

/-- The bounds that the number reaches are those up to this place. -/
structure LastReached (bounds : List Float) (v : Float) (i : ℕ) : Prop where
  inside : i < bounds.length
  reached_iff : ∀ j, ∀ within : j < bounds.length, bounds[j] ≤ v ↔ j ≤ i

section

variable {v : Float} {a : WithTop ℚ} (number : Sized v a)
include number

theorem Ascending.not_reached {first : Float} {bounds : List Float}
    (ascending : Ascending (first :: bounds)) (short : ¬ first ≤ v) :
    ∀ bound ∈ first :: bounds, ¬ bound ≤ v := by
  intro bound present
  rcases List.mem_cons.mp present with rfl | later
  · exact short
  · obtain ⟨p, least⟩ := ascending.exists_sized List.mem_cons_self
    obtain ⟨q, greater⟩ := ascending.exists_sized present
    have above := ascending.head_lt bound later
    rw [least.le_iff number, not_le] at short
    rw [least.lt_iff greater] at above
    rw [greater.le_iff number, not_le]
    exact short.trans above

theorem Ascending.exists_lastReached {first : Float} {bounds : List Float}
    (ascending : Ascending (first :: bounds)) (reached : first ≤ v) :
    ∃ i, LastReached (first :: bounds) v i := by
  induction bounds generalizing first with
  | nil =>
    refine ⟨0, by simp, fun j within => ?_⟩
    obtain rfl : j = 0 := by simpa using within
    simpa using reached
  | cons upper bounds ih =>
    by_cases beyond : upper ≤ v
    · obtain ⟨i, inside, reached_iff⟩ := ih ascending.tail beyond
      refine ⟨i + 1, by simpa using inside, fun j within => ?_⟩
      cases j with
      | zero => simpa using reached
      | succ j => simpa using reached_iff j (by simpa using within)
    · refine ⟨0, by simp, fun j within => ?_⟩
      cases j with
      | zero => simpa using reached
      | succ j => simpa using ascending.tail.not_reached number beyond _ (List.getElem_mem _)

namespace LastReached

variable {bounds : List Float} (ascending : Ascending bounds) {i : ℕ}
  (last : LastReached bounds v i)
include ascending last

theorem contains_iff {j : ℕ} (within : j < bounds.length) :
    AmountRange.contains ⟨bounds[j], bounds[j + 1]?⟩ v = true ↔ j = i := by
  have start := last.reached_iff j within
  by_cases closed : j + 1 < bounds.length
  · obtain ⟨q, next⟩ := ascending.exists_sized (List.getElem_mem closed)
    have stop : v < bounds[j + 1] ↔ ¬ j + 1 ≤ i := by
      rw [← next.not_le_iff number, last.reached_iff (j + 1) closed]
    simp only [AmountRange.contains, List.getElem?_eq_getElem closed, Option.all_some,
      Bool.and_eq_true, decide_eq_true_eq, start, stop]
    omega
  · have inside := last.inside
    simp only [AmountRange.contains, List.getElem?_eq_none (not_lt.mp closed), Option.all_none,
      Bool.and_true, decide_eq_true_eq, start]
    omega

theorem eq_of_contains {j : ℕ} {range : AmountRange}
    (here : (AmountRange.ofBounds bounds)[j]? = some range) (contains : range.contains v = true) :
    j = i := by
  simp only [AmountRange.getElem?_ofBounds, Option.map_eq_some_iff,
    List.getElem?_eq_some_iff] at here
  obtain ⟨lower, ⟨within, rfl⟩, rfl⟩ := here
  exact (last.contains_iff number ascending within).mp contains

omit number in
theorem le_last {inside : i < bounds.length} {bound : Float} (present : bound ∈ bounds)
    (reached : bound ≤ v) : bound ≤ bounds[i] := by
  obtain ⟨j, within, rfl⟩ := List.getElem_of_mem present
  obtain ⟨p, lower⟩ := ascending.exists_sized present
  obtain ⟨q, upper⟩ := ascending.exists_sized (List.getElem_mem inside)
  rcases ((last.reached_iff j within).mp reached).lt_or_eq with before | rfl
  · have above := List.pairwise_iff_getElem.mp ascending.pairwise j i within inside before
    exact (lower.le_iff upper).mpr ((lower.lt_iff upper).mp above).le
  · exact (lower.le_iff lower).mpr le_rfl

theorem le_of_le {w : Float} {b : WithTop ℚ} (other : Sized w b) (ordered : v ≤ w) {j : ℕ}
    (later : LastReached bounds w j) : i ≤ j := by
  have inside := last.inside
  obtain ⟨q, bound⟩ := ascending.exists_sized (List.getElem_mem inside)
  rw [← later.reached_iff i inside, bound.le_iff other]
  have reached := (last.reached_iff i inside).mpr le_rfl
  rw [bound.le_iff number] at reached
  exact reached.trans ((number.le_iff other).mp ordered)

end LastReached

end

namespace StoredPlan

variable {stored : StoredPlan} (ascending : Ascending stored.amountTable) {v : Float}
  {a : WithTop ℚ} (number : Sized v a)
include ascending number

theorem locate?_of_lastReached {i : ℕ} (last : LastReached stored.amountTable v i) :
    ∃ inside : i < stored.amountTable.length,
      stored.locate? v = some ⟨stored.amountTable[i], stored.amountTable[i + 1]?⟩ := by
  have inside := last.inside
  refine ⟨inside, ?_⟩
  rw [locate?_eq_some_iff ascending number (AmountRange.mem_ofBounds.mpr ⟨i, inside, rfl⟩)]
  exact (last.contains_iff number ascending inside).mpr rfl

theorem locate?_of_not_reached {first : Float} {bounds : List Float}
    (table : stored.amountTable = first :: bounds) (short : ¬ first ≤ v) :
    stored.locate? v = none := by
  rw [table] at ascending
  have short := ascending.not_reached number short
  rw [locate?, List.find?_eq_none, table]
  intro range present
  obtain ⟨i, inside, rfl⟩ := AmountRange.mem_ofBounds.mp present
  simp [AmountRange.contains, short _ (List.getElem_mem inside)]

theorem locate?_cases {first : Float} {bounds : List Float}
    (table : stored.amountTable = first :: bounds) :
    v < first ∧ stored.locate? v = none ∨
      ¬ v < first ∧ ∃ i, ∃ inside : i < stored.amountTable.length,
        LastReached stored.amountTable v i ∧
          stored.locate? v = some ⟨stored.amountTable[i], stored.amountTable[i + 1]?⟩ := by
  obtain ⟨q, least⟩ := ascending.exists_sized (table ▸ List.mem_cons_self)
  by_cases reached : first ≤ v
  · right
    obtain ⟨i, last⟩ : ∃ i, LastReached stored.amountTable v i := by
      rw [table] at ascending ⊢
      exact ascending.exists_lastReached number reached
    obtain ⟨inside, found⟩ := locate?_of_lastReached ascending number last
    refine ⟨fun below => ?_, i, inside, last, found⟩
    exact (least.not_le_iff number).mpr below reached
  · exact .inl ⟨(least.not_le_iff number).mp reached,
      locate?_of_not_reached ascending number table reached⟩

end StoredPlan

/-- A table without a fault cuts up the magnitudes. No range is found for those below the first
bound. Any other lies in exactly one range, which is the one that is found: it starts at the
greatest bound that the magnitude reaches and ends at the next bound of the table, if there is one.
A greater magnitude is found in the same range or in a later one. -/
theorem StoredPlan.table_partitions {stored : StoredPlan} (accepted : stored.plan.check = .ok ()) :
    let bounds := stored.amountTable
    let ranges := AmountRange.ofBounds bounds
    (∀ v : Float, 0.0 ≤ v →
      (stored.locate? v = none ↔ ∃ first ∈ bounds.head?, v < first) ∧
      ∀ range, stored.locate? v = some range →
        ∃ i : ℕ, ∃ inside : i < bounds.length,
          ranges[i]? = some range ∧ range = ⟨bounds[i], bounds[i + 1]?⟩ ∧
          range.lower ≤ v ∧ (∀ bound ∈ bounds, bound ≤ v → bound ≤ range.lower) ∧
          range.contains v = true ∧
          ∀ (j : ℕ) other, ranges[j]? = some other → other.contains v = true → j = i) ∧
    ∀ v w : Float, 0.0 ≤ v → 0.0 ≤ w → v ≤ w → ∀ (i : ℕ) range, ranges[i]? = some range →
      stored.locate? v = some range →
        ∃ (j : ℕ) (later : AmountRange),
          i ≤ j ∧ ranges[j]? = some later ∧ stored.locate? w = some later := by
  intro bounds ranges
  obtain ⟨filled, ascending, -⟩ := FeePlan.check_ok accepted
  change Ascending stored.amountTable at ascending
  obtain ⟨first, others, table⟩ := List.exists_cons_of_ne_nil filled
  change stored.amountTable = first :: others at table
  have cases {v : Float} {a : WithTop ℚ} (number : Sized v a) :=
    locate?_cases ascending number table
  refine ⟨fun v magnitude => ?_, fun v w magnitude greater ordered i range here found => ?_⟩
  · obtain ⟨a, number⟩ := Binary.exists_sized_of_zero_le magnitude
    rcases cases number with ⟨below, missed⟩ | ⟨reached, i, inside, last, found⟩
    · simp [bounds, table, below, missed]
    · refine ⟨by simp [bounds, table, found, reached], fun range same => ?_⟩
      rw [found, Option.some_inj] at same
      subst same
      have contained := (last.contains_iff number ascending inside).mpr rfl
      refine ⟨i, inside, by simp [ranges, bounds, AmountRange.getElem?_ofBounds, inside], rfl, ?_,
        ?_, contained, ?_⟩
      · exact (last.reached_iff i inside).mpr le_rfl
      · exact fun bound present => last.le_last ascending present
      · exact fun j other => last.eq_of_contains number ascending
  · obtain ⟨a, number⟩ := Binary.exists_sized_of_zero_le magnitude
    obtain ⟨b, other⟩ := Binary.exists_sized_of_zero_le greater
    rcases cases number with ⟨-, missed⟩ | ⟨reached, k, -, last, -⟩
    · simp [missed] at found
    have contained := List.find?_some found
    obtain rfl : i = k := last.eq_of_contains number ascending here contained
    rcases cases other with ⟨below, -⟩ | ⟨-, j, within, later, located⟩
    · obtain ⟨q, least⟩ := ascending.exists_sized (table ▸ List.mem_cons_self)
      rw [number.le_iff other] at ordered
      rw [other.lt_iff least] at below
      exact absurd ((number.lt_iff least).mpr (ordered.trans_lt below)) reached
    · refine ⟨j, _, last.le_of_le number ascending other ordered later, ?_, located⟩
      simp [ranges, bounds, AmountRange.getElem?_ofBounds, within]

def threeRanges : StoredPlan :=
  ⟨1, .table, none, [-0.0, 10.0, 1000000000000000.5], .empty, ⟨0, 0⟩, ⟨0, 0⟩⟩

theorem StoredPlan.table_partitions_at_the_bounds :
    let ranges := AmountRange.ofBounds threeRanges.amountTable
    threeRanges.plan.check = .ok () ∧
      threeRanges.locate? 10.0 = some ⟨10.0, some 1000000000000000.5⟩ ∧
      (∀ (j : ℕ) other, ranges[j]? = some other → other.contains 10.0 = true → j = 1) ∧
      ∃ (j : ℕ) (later : AmountRange), 1 ≤ j ∧ ranges[j]? = some later ∧
        threeRanges.locate? (1.0 / 0.0) = some later := by
  intro ranges
  have accepted : threeRanges.plan.check = .ok () := by decide +kernel
  have found : threeRanges.locate? 10.0 = some ⟨10.0, some 1000000000000000.5⟩ := by
    decide +kernel
  have second : ranges[1]? = some ⟨10.0, some 1000000000000000.5⟩ := rfl
  obtain ⟨parts, order⟩ := table_partitions accepted
  obtain ⟨i, -, -, -, -, -, contained, alone⟩ := (parts 10.0 (by decide +kernel)).2 _ found
  obtain rfl := alone 1 _ second contained
  exact ⟨accepted, found, alone, order 10.0 (1.0 / 0.0) (by decide +kernel) (by decide +kernel)
    (by decide +kernel) 1 _ second found⟩

end PaymentFees
