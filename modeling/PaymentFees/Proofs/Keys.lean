import PaymentFees.Proofs.Partition
import PaymentFees.Proofs.PlainDigits

/-!
The keys of the ranges of a table. A key is read as the lower bound of its range, so two ranges of a
table have different keys, and what is kept under the key of one of them is used for no other.
-/

namespace PaymentFees

open Binary Float.Model

def plainNumber? (text : String) : Option Float :=
  match Json.readNumeral text.toList with
  | some (⟨whole, fraction, none⟩, []) =>
    some (Numeral.decimal ⟨whole, fraction, none⟩).nearest
  | _ => none

theorem plainNumber?_text {d : Decimal} (some : 0 < d.coefficient) :
    plainNumber? d.text = .some d.plain.decimal.nearest := by
  have last : Json.Stops [] := by simp [Json.Stops]
  have read := Json.readNumeral_written (Decimal.plain_isPlain some) last
  rw [List.append_nil, ← Decimal.toList_text] at read
  simp only [plainNumber?, read, Decimal.plain]

theorem magnitude_cases {x : Float} (magnitude : isMagnitude x = true) :
    (x == 0.0) = true ∧ x.abs = 0.0 ∨
      ∃ m e some, x.toModel.unpack = .finite .positive m e some := by
  obtain ⟨q, sized⟩ := sized_of_isMagnitude magnitude
  have size : Stands .positive q x.abs.toModel.unpack := sized.size
  by_cases zero : q = 0
  · left
    exact ⟨(sized.beq_iff sized_zero).mpr (by simp [zero]),
      eq_of_unpack (size.unique (show Stands .positive 0 _ from extent_zero) zero)⟩
  · right
    rcases sized.unpack_eq with same | ⟨plain, -⟩
    · rw [same] at size
      generalize x.toModel.unpack = f at size
      cases size with
      | zero => exact absurd rfl zero
      | finite some => exact ⟨_, _, some, rfl⟩
    · rw [plain] at size
      cases size
      exact absurd rfl zero

theorem rangeKey_zero {x : Float} (zero : (x == 0.0) = true) : rangeKey x = "0" := by
  simp [rangeKey, zero]

theorem rangeKey_positive {x : Float} {m : ℕ} {e : ℤ} {some : 0 < m}
    (form : x.toModel.unpack = .finite .positive m e some) :
    rangeKey x = (Decimal.shortest .halfUp m e).text := by
  have nonzero : ¬ (x == 0.0) = true := by
    intro zero
    obtain ⟨s, other⟩ := unpack_of_beq_zero zero
    simp [form] at other
  simp [rangeKey, nonzero, plainText, form, signText]

theorem plainNumber?_rangeKey {x : Float} (magnitude : isMagnitude x = true) :
    plainNumber? (rangeKey x) = some x.abs := by
  rcases magnitude_cases magnitude with ⟨zero, size⟩ | ⟨m, e, some, form⟩
  · rw [rangeKey_zero zero, size]
    decide +kernel
  · obtain ⟨canonical, bounded⟩ := canonical_of_unpack form
    have positive := (Decimal.shortest_coefficient .halfUp some canonical bounded).1
    have read := Decimal.extent_nearest_shortest .halfUp some canonical bounded
    have size := (extent_of_unpack form).abs
    rw [rangeKey_positive form, plainNumber?_text positive]
    exact congrArg Option.some (eq_of_unpack (Stands.unique read size rfl))

theorem rangeKey_whole {x : Float} (magnitude : isMagnitude x = true) {n : ℕ} (small : n < 10 ^ 15)
    (whole : (x == Float.ofNat n) = true) : rangeKey x = toString n := by
  have number : Sized (Float.ofNat n) (n : ℚ) := by
    have size := @extent_whole n (small.le.trans (by norm_num))
    exact ⟨size.abs, Unsigned.not_lt ⟨_, size⟩⟩
  obtain ⟨q, sized⟩ := sized_of_isMagnitude magnitude
  have value : q = n := by exact_mod_cast (sized.beq_iff number).mp whole
  rcases magnitude_cases magnitude with ⟨zero, -⟩ | ⟨m, e, some, form⟩
  · have none : q = 0 := by exact_mod_cast (sized.beq_iff sized_zero).mp zero
    obtain rfl : n = 0 := by exact_mod_cast value.symm.trans none
    exact rangeKey_zero zero
  · have exact : (m : ℚ) * 2 ^ e = n := by
      have same := (sized.size.beq_iff (extent_of_unpack form).abs).mp
        (beq_self (isNaN_of_isFinite sized.size.isFinite))
      rw [← value]
      exact_mod_cast same.symm
    rw [rangeKey_positive form]
    exact Decimal.text_shortest_whole .halfUp some exact small (canonical_of_unpack form).1

theorem rangeKey_ne {x y : Float} (first : isMagnitude x = true) (second : isMagnitude y = true)
    (below : x < y) : rangeKey x ≠ rangeKey y := by
  intro same
  obtain ⟨p, least⟩ := sized_of_isMagnitude first
  obtain ⟨q, greatest⟩ := sized_of_isMagnitude second
  have read := plainNumber?_rangeKey first
  rw [same, plainNumber?_rangeKey second, Option.some_inj] at read
  have sizes := (greatest.size.beq_iff least.size).mp
    (read ▸ beq_self (isNaN_of_isFinite greatest.size.isFinite))
  rw [least.lt_iff greatest, sizes] at below
  exact lt_irrefl _ below

theorem ByKey.find?_insert {α : Type} (table : ByKey α) (key : String) (value : α) (k : String) :
    (table.insert key value).find? k = if k = key then some value else table.find? k := by
  obtain ⟨entries, ascending⟩ := table
  simp only [insert, find?]
  clear ascending
  induction entries with
  | nil => grind [insertByKey]
  | cons entry entries ih =>
    simp only [insertByKey]
    split_ifs <;> grind

namespace StoredPlan

def withFees (stored : StoredPlan) (bound : Float) (fees : RangeFees) : StoredPlan :=
  { stored with ranges := stored.ranges.insert (rangeKey bound) fees }

theorem feesFor?_withFees (stored : StoredPlan) (bound : Float) (fees : RangeFees)
    (range : AmountRange) :
    (stored.withFees bound fees).feesFor? range =
      if rangeKey range.lower = rangeKey bound then some fees else stored.feesFor? range := by
  simp [withFees, feesFor?, ByKey.find?_insert]

end StoredPlan

theorem Ascending.nodup_keys {bounds : List Float} (ascending : Ascending bounds) :
    (bounds.map rangeKey).Nodup := by
  rw [List.nodup_iff_pairwise_ne, List.pairwise_map]
  refine ascending.pairwise.imp_of_mem fun first second below => ?_
  exact rangeKey_ne (ascending.magnitudes _ first) (ascending.magnitudes _ second) below

theorem Ascending.eq_of_rangeKey_eq {bounds : List Float} (ascending : Ascending bounds)
    {range other : AmountRange} (first : range ∈ AmountRange.ofBounds bounds)
    (second : other ∈ AmountRange.ofBounds bounds)
    (same : rangeKey other.lower = rangeKey range.lower) : other = range := by
  obtain ⟨i, inside, rfl⟩ := AmountRange.mem_ofBounds.mp first
  obtain ⟨j, within, rfl⟩ := AmountRange.mem_ofBounds.mp second
  have places : j = i := by
    have distinct := @List.Nodup.getElem_inj_iff _ _ ascending.nodup_keys j (by simpa using within)
      i (by simpa using inside)
    exact distinct.mp (by simpa using same)
  subst places
  rfl

/-- Keys tell the ranges of a table without a fault apart. No two bounds have the same key, and each
key is read as its bound, but for the sign of a zero; whole bounds below `10^15` are written as
whole numbers. So fees that are kept under the key of one bound are those of its range, and the fees
of the other ranges stay as they were. -/
theorem StoredPlan.keys_tell_ranges_apart {stored : StoredPlan}
    (accepted : stored.plan.check = .ok ()) :
    let bounds := stored.amountTable
    let ranges := AmountRange.ofBounds bounds
    (bounds.map rangeKey).Nodup ∧
    (∀ bound ∈ bounds, plainNumber? (rangeKey bound) = some bound.abs ∧
      (bound.abs == bound) = true ∧
      ∀ n < 10 ^ 15, (bound == Float.ofNat n) = true → rangeKey bound = toString n) ∧
    ∀ range ∈ ranges, ∀ fees,
      (stored.withFees range.lower fees).feesFor? range = some fees ∧
      ∀ other ∈ ranges, other ≠ range →
        (stored.withFees range.lower fees).feesFor? other = stored.feesFor? other := by
  intro bounds ranges
  obtain ⟨-, ascending, -⟩ := FeePlan.check_ok accepted
  change Ascending bounds at ascending
  refine ⟨ascending.nodup_keys, fun bound present => ?_, fun range first fees => ⟨?_, ?_⟩⟩
  · have magnitude := ascending.magnitudes bound present
    obtain ⟨q, sized⟩ := ascending.exists_sized present
    have unsigned : Sized bound.abs q := ⟨sized.size.abs, not_abs_lt bound⟩
    exact ⟨plainNumber?_rangeKey magnitude, (unsigned.beq_iff sized).mpr rfl,
      fun n small whole => rangeKey_whole magnitude small whole⟩
  · simp [feesFor?_withFees]
  · intro other second different
    have apart : rangeKey other.lower ≠ rangeKey range.lower :=
      fun same => different (ascending.eq_of_rangeKey_eq first second same)
    simp [feesFor?_withFees, apart]

def closeBounds : StoredPlan :=
  ⟨1, .table, none, [-0.0, 0.1, 999999999999999.0, 999999999999999.9, 1000000000000000.0],
    .empty, ⟨0, 0⟩, ⟨0, 0⟩⟩

theorem StoredPlan.keys_tell_ranges_apart_close_bounds :
    let fees : RangeFees := ⟨some 0.5, none, none⟩
    let kept := closeBounds.withFees 1000000000000000.0 fees
    closeBounds.plan.check = .ok () ∧
      closeBounds.amountTable.map rangeKey =
        ["0", "0.1", "999999999999999", "999999999999999.9", "1000000000000000"] ∧
      plainNumber? (rangeKey 999999999999999.9) = some 999999999999999.9 ∧
      kept.feesFor? ⟨1000000000000000.0, none⟩ = some fees ∧
      kept.feesFor? ⟨999999999999999.9, some 1000000000000000.0⟩ = none := by
  intro fees kept
  have accepted : closeBounds.plan.check = .ok () := by decide +kernel
  obtain ⟨-, read, apart⟩ := keys_tell_ranges_apart accepted
  have last := apart ⟨1000000000000000.0, none⟩ (by decide +kernel) fees
  have size : (999999999999999.9 : Float).abs = 999999999999999.9 := by decide +kernel
  refine ⟨accepted, by decide +kernel, ?_, last.1, ?_⟩
  · rw [(read 999999999999999.9 (by simp [closeBounds])).1, size]
  · exact last.2 ⟨999999999999999.9, some 1000000000000000.0⟩ (by decide +kernel)
      (by decide +kernel)

end PaymentFees
