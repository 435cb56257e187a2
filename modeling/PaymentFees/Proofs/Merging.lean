import PaymentFees.Proofs.Binary.Signed

/-!
Nearly equal frequencies are merged into one. Those that are kept are in ascending order and farther
apart than the tolerance, each frequency is near one of them, and the order in which the points are
given does not matter.
-/

namespace PaymentFees.Curve

open Binary

/-- The largest size of a frequency, or one if all are smaller. -/
structure IsSpan (points : List ControlPoint) (span : Float) : Prop where
  attained : span = 1.0 ∨ ∃ p ∈ points, span = p.frequency.abs
  one_le : 1.0 ≤ span
  le : ∀ p ∈ points, p.frequency.abs ≤ span

theorem larger_eq_or (a b : Float) : larger a b = a ∨ larger a b = b := by
  unfold larger
  split_ifs
  · exact .inr rfl
  · exact .inl rfl

theorem extent_larger {a b : Float} {p q : ℚ} (first : Extent a p) (second : Extent b q) :
    Extent (larger a b) (max p q : ℚ) := by
  unfold larger
  split_ifs with more
  · have less : p < q := WithTop.coe_lt_coe.mp ((first.lt_iff second).mp more)
    rwa [max_eq_right less.le]
  · have least : q ≤ p := by
      rw [← not_lt]
      intro less
      exact more ((first.lt_iff second).mpr (WithTop.coe_lt_coe.mpr less))
    rwa [max_eq_left least]

theorem foldl_larger_mem (numbers : List Float) (a : Float) :
    numbers.foldl larger a ∈ a :: numbers := by
  induction numbers generalizing a with
  | nil => exact List.mem_cons_self
  | cons x numbers ih =>
    rw [List.foldl_cons]
    rcases List.mem_cons.mp (ih (larger a x)) with first | later
    · rw [first]
      rcases larger_eq_or a x with same | same <;> simp [same]
    · exact List.mem_cons_of_mem _ (List.mem_cons_of_mem _ later)

section

variable {points : List ControlPoint} (finite : ∀ p ∈ points, p.frequency.isFinite = true)
include finite

theorem extent_foldl_larger {a : Float} {q : ℚ} (read : Extent a q) :
    Extent ((points.map (·.frequency.abs)).foldl larger a)
      ((points.map (|value ·.frequency|)).foldl max q : ℚ) := by
  induction points generalizing a q with
  | nil => exact read
  | cons p points ih =>
    obtain ⟨first, rest⟩ := List.forall_mem_cons.mp finite
    exact ih rest (extent_larger read (extent_abs_value first))

end

def span (points : List ControlPoint) : Float := (points.map (·.frequency.abs)).foldl larger 1.0

theorem frequencyTolerance_eq (points : List ControlPoint) :
    frequencyTolerance points = 1e-12 * span points := rfl

theorem le_foldl_max (q : ℚ) (numbers : List ℚ) :
    q ≤ numbers.foldl max q ∧ ∀ x ∈ numbers, x ≤ numbers.foldl max q := by
  induction numbers generalizing q with
  | nil => simp
  | cons x numbers ih =>
    obtain ⟨first, rest⟩ := ih (max q x)
    exact ⟨(le_max_left q x).trans first,
      List.forall_mem_cons.mpr ⟨(le_max_right q x).trans first, rest⟩⟩

theorem extent_one : Extent 1.0 (1 : ℚ) := by
  exact_mod_cast extent_whole (n := 1) (by norm_num)

section

variable {points : List ControlPoint} (finite : ∀ p ∈ points, p.frequency.isFinite = true)
include finite

theorem isSpan_span : IsSpan points (span points) := by
  have read := extent_foldl_larger finite extent_one
  obtain ⟨least, others⟩ := le_foldl_max 1 (points.map (|value ·.frequency|))
  refine ⟨?_, ?_, fun p present => ?_⟩
  · rcases List.mem_cons.mp (foldl_larger_mem (points.map (·.frequency.abs)) 1.0) with one | some
    · exact .inl one
    · obtain ⟨p, present, same⟩ := List.mem_map.mp some
      exact .inr ⟨p, present, same.symm⟩
  · exact (extent_one.le_iff read).mpr (WithTop.coe_le_coe.mpr least)
  · have inside := others _ (List.mem_map_of_mem present)
    exact ((extent_abs_value (finite p present)).le_iff read).mpr (WithTop.coe_le_coe.mpr inside)

theorem exists_extent_tolerance : ∃ t : ℚ, Extent (frequencyTolerance points) t := by
  have read := extent_foldl_larger finite extent_one
  generalize (points.map (|value ·.frequency|)).foldl max 1 = q at read
  obtain ⟨nonnegative, bound⟩ := read.range
  have part : Extent 1e-12 (nearest (1 / 10 ^ 12) : ℚ) := by
    have word := @extent_ofScientific_fraction 1 12 (by omega)
    have small : nearest ((1 : ℕ) / 10 ^ 12) < 2 ^ 1024 := by
      refine nearest_lt_of_lt (by positivity) ?_
      calc
        ((1 : ℕ) : ℚ) / 10 ^ 12 ≤ 1 := by norm_num
        _ < 2 ^ 53 - 1 / 2 := by norm_num
        _ ≤ (2 ^ 53 - 1 / 2) * 2 ^ 971 :=
          le_mul_of_one_le_right (by norm_num) (one_le_pow₀ (by norm_num))
    rw [fit_of_lt small] at word
    exact_mod_cast word
  have less : nearest (1 / 10 ^ 12) * q ≤ q := by
    have one : nearest (1 / 10 ^ 12) ≤ nearest (1 : ℚ) := nearest_mono (by norm_num) (by norm_num)
    rw [nearest_of_stands extent_one] at one
    exact mul_le_of_le_one_left nonnegative one
  have inside : nearest (nearest (1 / 10 ^ 12) * q) < 2 ^ 1024 := by
    calc
      nearest (nearest (1 / 10 ^ 12) * q) ≤ nearest q :=
        nearest_mono (mul_nonneg (nearest_nonneg _) nonnegative) less
      _ = q := nearest_of_stands read
      _ < 2 ^ 1024 := bound
  have product := part.mul read
  rw [fit_of_lt inside] at product
  exact ⟨_, product⟩

theorem span_perm {others : List ControlPoint} (same : others.Perm points) :
    span others = span points := by
  have read := extent_foldl_larger finite extent_one
  have also := extent_foldl_larger (fun p present => finite p (same.mem_iff.mp present)) extent_one
  have largest : (others.map (|value ·.frequency|)).foldl max 1 =
      (points.map (|value ·.frequency|)).foldl max 1 := (same.map _).foldl_eq 1
  exact eq_of_unpack (Stands.unique also read largest)

end

section

variable {tolerance : Float} {t : ℚ} (read : Extent tolerance t)
include read

theorem abs_sub_le_iff {x y : Float} (first : x.isFinite = true) (second : y.isFinite = true) :
    (x - y).abs ≤ tolerance ↔ nearest |value x - value y| ≤ t := by
  rw [(extent_abs_sub first second).le_iff read]
  have bound := read.range.2
  unfold Binary.fit
  split_ifs with small
  · exact WithTop.coe_le_coe
  · exact iff_of_false (by simp) fun below => small (below.trans_lt bound)

theorem near_self {x : Float} (finite : x.isFinite = true) : (x - x).abs ≤ tolerance := by
  rw [abs_sub_le_iff read finite finite, sub_self, abs_zero, nearest_zero]
  exact read.range.1

theorem add_lt_of_not_near {x y : Float} (first : x.isFinite = true) (second : y.isFinite = true)
    (ordered : orderKey x ≤ orderKey y) (apart : ¬ (y - x).abs ≤ tolerance) :
    value x + t < value y := by
  have order := value_le_of_orderKey_le first second ordered
  rw [abs_sub_le_iff read second first, abs_of_nonneg (sub_nonneg.mpr order)] at apart
  by_contra within
  apply apart
  calc
    nearest (value y - value x) ≤ nearest t :=
      nearest_mono (sub_nonneg.mpr order) (by linarith)
    _ = t := nearest_of_stands read

end

/-- In order from the first on, with more than the tolerance between neighbours. -/
def Apart (tolerance : Float) (t : ℚ) (x y : Float) : Prop :=
  ¬ (y - x).abs ≤ tolerance ∧ value x + t < value y

section

variable {tolerance : Float} {t : ℚ} (read : Extent tolerance t)

theorem mergeNear_sublist (tolerance kept : Float) (values : List Float) :
    (mergeNear tolerance kept values).Sublist values := by
  induction values generalizing kept with
  | nil => exact .slnil
  | cons x values ih =>
    unfold mergeNear
    split_ifs
    · exact (ih kept).cons x
    · exact (ih x).cons_cons x

include read

theorem exists_near {kept : Float} {values : List Float}
    (finite : ∀ x ∈ kept :: values, x.isFinite = true) :
    ∀ x ∈ kept :: values, ∃ y ∈ kept :: mergeNear tolerance kept values,
      (x - y).abs ≤ tolerance := by
  induction values generalizing kept with
  | nil =>
    intro x present
    refine ⟨kept, List.mem_cons_self, ?_⟩
    rw [List.mem_singleton.mp present]
    exact near_self read (finite kept List.mem_cons_self)
  | cons next values ih =>
    obtain ⟨first, rest⟩ := List.forall_mem_cons.mp finite
    obtain ⟨second, others⟩ := List.forall_mem_cons.mp rest
    rw [List.forall_mem_cons, List.forall_mem_cons]
    refine ⟨⟨kept, List.mem_cons_self, near_self read first⟩, ?_⟩
    unfold mergeNear
    split_ifs with near
    · refine ⟨⟨kept, List.mem_cons_self, near⟩, fun x present => ?_⟩
      exact ih (List.forall_mem_cons.mpr ⟨first, others⟩) x (List.mem_cons_of_mem kept present)
    · refine ⟨⟨next, by simp, near_self read second⟩, fun x present => ?_⟩
      obtain ⟨y, found, close⟩ := ih rest x (List.mem_cons_of_mem next present)
      exact ⟨y, List.mem_cons_of_mem kept found, close⟩

theorem isChain_apart {kept : Float} {values : List Float}
    (finite : ∀ x ∈ kept :: values, x.isFinite = true)
    (sorted : (kept :: values).Pairwise fun x y => orderKey x ≤ orderKey y) :
    (kept :: mergeNear tolerance kept values).IsChain (Apart tolerance t) := by
  induction values generalizing kept with
  | nil => exact .singleton kept
  | cons next values ih =>
    obtain ⟨first, rest⟩ := List.forall_mem_cons.mp finite
    obtain ⟨second, others⟩ := List.forall_mem_cons.mp rest
    obtain ⟨least, later⟩ := List.pairwise_cons.mp sorted
    obtain ⟨ordered, above⟩ := List.forall_mem_cons.mp least
    unfold mergeNear
    split_ifs with near
    · exact ih (List.forall_mem_cons.mpr ⟨first, others⟩)
        (List.pairwise_cons.mpr ⟨above, (List.pairwise_cons.mp later).2⟩)
    · refine List.isChain_cons_cons.mpr ⟨⟨near, ?_⟩, ih rest later⟩
      exact add_lt_of_not_near read first second ordered near

end

def ascending (points : List ControlPoint) : List Float :=
  (points.map (·.frequency)).mergeSort (fun a b => orderKey a ≤ orderKey b)

theorem ascending_pairwise (points : List ControlPoint) :
    (ascending points).Pairwise fun x y => orderKey x ≤ orderKey y := by
  have sorted : (ascending points).Pairwise fun x y => decide (orderKey x ≤ orderKey y) := by
    apply List.pairwise_mergeSort
    · simpa using fun a b c => le_trans
    · simpa using fun a b => le_total _ _
  simpa using sorted

theorem mem_ascending {points : List ControlPoint} {x : Float} :
    x ∈ ascending points ↔ ∃ p ∈ points, p.frequency = x := by
  rw [ascending, (List.mergeSort_perm _ _).mem_iff, List.mem_map]

theorem ascending_eq {points : List ControlPoint} {values : List Float}
    (same : values.Perm (points.map (·.frequency)))
    (sorted : values.Pairwise fun x y => orderKey x ≤ orderKey y) : ascending points = values := by
  apply List.Perm.eq_of_pairwise _ (ascending_pairwise points) sorted
  · exact (List.mergeSort_perm _ _).trans same.symm
  · exact fun x y _ _ below above => orderKey_injective (le_antisymm below above)

theorem ascending_perm {points others : List ControlPoint} (same : others.Perm points) :
    ascending others = ascending points :=
  ascending_eq ((List.mergeSort_perm _ _).trans (same.map _).symm) (ascending_pairwise points)

theorem distinctFrequencies_eq (points : List ControlPoint) :
    distinctFrequencies points =
      match ascending points with
      | [] => []
      | first :: others => first :: mergeNear (frequencyTolerance points) first others := rfl

theorem distinctFrequencies_sublist (points : List ControlPoint) :
    (distinctFrequencies points).Sublist (ascending points) := by
  rw [distinctFrequencies_eq]
  cases ascending points with
  | nil => exact .slnil
  | cons first others => exact (mergeNear_sublist _ first others).cons_cons first

section

variable {points : List ControlPoint} (finite : ∀ p ∈ points, p.frequency.isFinite = true)
  {t : ℚ} (read : Extent (frequencyTolerance points) t)
include finite

theorem finite_ascending : ∀ x ∈ ascending points, x.isFinite = true := by
  intro x present
  obtain ⟨p, found, rfl⟩ := mem_ascending.mp present
  exact finite p found

include read

theorem isChain_distinctFrequencies :
    (distinctFrequencies points).IsChain (Apart (frequencyTolerance points) t) := by
  have each := finite_ascending finite
  have sorted := ascending_pairwise points
  rw [distinctFrequencies_eq]
  cases order : ascending points with
  | nil => exact .nil
  | cons first others =>
    rw [order] at each sorted
    exact isChain_apart read each sorted

theorem exists_near_distinctFrequencies {x : Float} (present : x ∈ ascending points) :
    ∃ y ∈ distinctFrequencies points, (x - y).abs ≤ frequencyTolerance points := by
  have each := finite_ascending finite
  rw [distinctFrequencies_eq]
  cases order : ascending points with
  | nil =>
    rw [order] at present
    cases present
  | cons first others =>
    rw [order] at each present
    exact exists_near read each x present

theorem distinctFrequencies_pairwise : (distinctFrequencies points).Pairwise (· < ·) := by
  have each := finite_ascending finite
  have members := (distinctFrequencies_sublist points).subset
  have nonnegative := read.range.1
  have above : (distinctFrequencies points).IsChain fun x y => value x < value y :=
    (isChain_distinctFrequencies finite read).imp fun x y ⟨_, far⟩ => by linarith
  have spread : (distinctFrequencies points).Pairwise fun x y => value x < value y :=
    List.isChain_iff_pairwise.mp above
  refine spread.imp_of_mem fun {x y} first second less => ?_
  exact (lt_iff_value (each x (members first)) (each y (members second))).mpr less

end

/-- Frequencies are merged that are within a small part of their span of each other, distances being
computed. Those kept are frequencies of the points in ascending order; neighbours among them are not
within the tolerance, and their exact distance is above it too; each frequency is within it of one
that is kept; and all this does not depend on the order of the points. -/
theorem distinctFrequencies_merged {points : List ControlPoint}
    (finite : ∀ p ∈ points, p.frequency.isFinite = true) :
    let kept := distinctFrequencies points
    ∃ span, IsSpan points span ∧
      kept.Pairwise (· < ·) ∧
      (∀ x ∈ kept, ∃ p ∈ points, p.frequency = x) ∧
      kept.IsChain (fun x y => ¬ (y - x).abs ≤ 1e-12 * span ∧
        value x + value (1e-12 * span) < value y) ∧
      (∀ p ∈ points, ∃ x ∈ kept, (p.frequency - x).abs ≤ 1e-12 * span) ∧
      (points ≠ [] → kept ≠ []) ∧
      ∀ others : List ControlPoint, others.Perm points → distinctFrequencies others = kept := by
  obtain ⟨t, read⟩ := exists_extent_tolerance finite
  have members := distinctFrequencies_sublist points
  have apart := isChain_distinctFrequencies finite read
  rw [← value_of_extent read, frequencyTolerance_eq] at apart
  refine ⟨span points, isSpan_span finite, ?_, ?_, apart, ?_, ?_, ?_⟩
  · exact distinctFrequencies_pairwise finite read
  · exact fun x present => mem_ascending.mp (members.subset present)
  · intro p present
    exact exists_near_distinctFrequencies finite read (mem_ascending.mpr ⟨p, present, rfl⟩)
  · intro some none
    obtain ⟨p, present⟩ := List.exists_mem_of_ne_nil points some
    obtain ⟨x, found, -⟩ :=
      exists_near_distinctFrequencies finite read (mem_ascending.mpr ⟨p, present, rfl⟩)
    rw [none] at found
    cases found
  · intro others same
    rw [distinctFrequencies_eq, distinctFrequencies_eq, ascending_perm same, frequencyTolerance_eq,
      span_perm finite same, frequencyTolerance_eq]

/-- Numbers are near the one last kept, not their neighbour: of four close together the last is kept
too, in whichever order they are given. -/
theorem distinctFrequencies_merged_close :
    let points : List ControlPoint :=
      [⟨2.0, 1.5⟩, ⟨0.5000000000001, 0.5⟩, ⟨0.0, 0.25⟩, ⟨0.5, 0.75⟩, ⟨0.5000000000021, 1.0⟩,
        ⟨-0.0, 0.25⟩, ⟨0.5000000000019, 1.0⟩]
    let kept : List Float := [-0.0, 0.5, 0.5000000000021, 2.0]
    (∀ p ∈ points, p.frequency.isFinite = true) ∧
      distinctFrequencies points = kept ∧ distinctFrequencies points.reverse = kept ∧
      kept.Pairwise (· < ·) ∧
      ∃ span, IsSpan points span ∧
        ∃ x ∈ kept, ((0.5000000000019 : Float) - x).abs ≤ 1e-12 * span := by
  intro points kept
  have finite : ∀ p ∈ points, p.frequency.isFinite = true := by decide +kernel
  have order : ascending points =
      [-0.0, 0.0, 0.5, 0.5000000000001, 0.5000000000019, 0.5000000000021, 2.0] :=
    ascending_eq (by decide +kernel) (by decide +kernel)
  have same : distinctFrequencies points = kept := by
    rw [distinctFrequencies_eq, order]
    decide +kernel
  obtain ⟨span, spans, above, -, -, near, -, others⟩ := distinctFrequencies_merged finite
  have reversed := (others _ (List.reverse_perm points)).trans same
  rw [same] at above near
  have close := near ⟨0.5000000000019, 1.0⟩ (by decide +kernel)
  exact ⟨finite, same, reversed, above, span, spans, close⟩

end PaymentFees.Curve
