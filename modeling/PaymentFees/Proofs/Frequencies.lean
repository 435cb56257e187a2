import PaymentFees.Book.Tables
import PaymentFees.Proofs.Ranges

namespace PaymentFees

open Binary

section

variable {Row Column : Type} {holds : Row → Column → Bool}

theorem sum_map_ite (rows : List Row) (column : Column) :
    (rows.map fun row => if holds row column then 1 else 0).sum =
      rows.countP (holds · column) := by
  induction rows with
  | nil => rfl
  | cons row rows ih =>
    rw [List.map_cons, List.sum_cons, List.countP_cons, ih, add_comm]

theorem sum_map_countP {rows : List Row} {columns : List Column} {some : Column → Bool}
    (once : ∀ column ∈ columns, rows.countP (holds · column) = if some column then 1 else 0) :
    (rows.map fun row => columns.countP (holds row)).sum = columns.countP some := by
  induction columns with
  | nil => simp
  | cons column columns ih =>
    obtain ⟨here, later⟩ := List.forall_mem_cons.mp once
    calc
      (rows.map fun row => (column :: columns).countP (holds row)).sum
        = (rows.map fun row => columns.countP (holds row)).sum +
            (rows.map fun row => if holds row column then 1 else 0).sum := by
          simp only [List.countP_cons, List.sum_map_add]
      _ = columns.countP some + rows.countP (holds · column) := by
          rw [ih later, sum_map_ite]
      _ = (column :: columns).countP some := by
          rw [here, List.countP_cons]

end

/-- The query counts what a range contains, unless the upper bound is no number. -/
theorem countsFor_eq_contains {range : AmountRange}
    (closed : ∀ upper ∈ range.upper, upper.isNaN = false) (amount : Float) :
    Book.countsFor range amount = range.contains amount.abs := by
  obtain ⟨lower, upper⟩ := range
  cases upper with
  | none => rfl
  | some upper =>
    have number : upper.isNaN = false := closed upper rfl
    simp only [Book.countsFor, AmountRange.contains, Option.all_some, number, Bool.false_or]

theorem Ascending.countsFor_eq {bounds : List Float} (ascending : Ascending bounds)
    {range : AmountRange} (present : range ∈ AmountRange.ofBounds bounds) (amount : Float) :
    Book.countsFor range amount = range.contains amount.abs := by
  apply countsFor_eq_contains
  intro upper closed
  have bound := ascending.magnitudes upper (AmountRange.upper_mem present closed)
  exact isNaN_of_isFinite (Bool.and_eq_true_iff.mp bound).1

theorem Ascending.countP_countsFor {first : Float} {bounds : List Float}
    (ascending : Ascending (first :: bounds)) {amount : Float} (number : amount.isNaN = false) :
    (AmountRange.ofBounds (first :: bounds)).countP (Book.countsFor · amount) =
      if first ≤ amount.abs then 1 else 0 := by
  obtain ⟨a, size⟩ := sized_abs number
  rw [← AmountRange.countP_contains ascending size]
  exact List.countP_congr fun range present => by rw [ascending.countsFor_eq present]

theorem countsFor_all {amount : Float} (number : amount.isNaN = false) :
    Book.countsFor .all amount = true := by
  have size : 0.0 ≤ amount.abs := (unsigned_abs number).le
  simp [Book.countsFor, AmountRange.all, size]

namespace Book

/-- The payments of a user that a range counts. -/
def hits (book : Book) (user : UserId) (range : AmountRange) : List (Payment Stamp) :=
  (book.paymentsOf user).filter fun p => countsFor range p.amount

theorem frequency_eq (book : Book) (user : UserId) (range : AmountRange) :
    book.frequency user range =
      if (book.paymentsOf user).isEmpty then 0.0
      else
        Float.ofNat (book.hits user range).length / Float.ofNat (book.paymentsOf user).length := by
  simp [frequency, hits, List.countP_map, ← List.countP_eq_length_filter, Function.comp_def]

/-- The query for a frequency and the lookup in a table agree. A range of a table without a fault
counts the payments whose size it contains, which are those for which the lookup finds it. Each
payment from the first bound on is counted in one range and each below it in none, so the counts add
up to the number of the former. No range counts more payments than there are, and the range of all
sizes counts all of them. -/
theorem hits_agree_with_table {stored : StoredPlan} (accepted : stored.plan.check = .ok ())
    {book : Book} {user : UserId}
    (numbers : ∀ p ∈ book.paymentsOf user, p.amount.isNaN = false) :
    let payments := book.paymentsOf user
    let ranges := AmountRange.ofBounds stored.amountTable
    (∀ range ∈ ranges,
      book.hits user range = payments.filter (fun p => range.contains p.amount.abs) ∧
        book.hits user range = payments.filter fun p => stored.locate? p.amount.abs = some range) ∧
      (∃ first ∈ stored.amountTable.head?,
        (∀ p ∈ payments,
          ranges.countP (p ∈ book.hits user ·) = if first ≤ p.amount.abs then 1 else 0) ∧
        (ranges.map fun range => (book.hits user range).length).sum =
          payments.countP (first ≤ ·.amount.abs)) ∧
      book.hits user .all = payments ∧
      ∀ range, (book.hits user range).length ≤ payments.length ∧
        book.frequency user range =
          if payments.isEmpty then 0.0
          else Float.ofNat (book.hits user range).length / Float.ofNat payments.length := by
  intro payments ranges
  obtain ⟨filled, ascending, -⟩ := FeePlan.check_ok accepted
  refine ⟨fun range present => ?_, ?_, ?_, fun range => ⟨List.length_filter_le _ _,
    book.frequency_eq user range⟩⟩
  · have contained : ∀ p ∈ payments, countsFor range p.amount = range.contains p.amount.abs :=
      fun p _ => ascending.countsFor_eq present p.amount
    refine ⟨List.filter_congr contained, List.filter_congr fun p paid => ?_⟩
    obtain ⟨a, number⟩ := sized_abs (numbers p paid)
    rw [contained p paid, Bool.eq_iff_iff, decide_eq_true_iff]
    exact (StoredPlan.locate?_eq_some_iff ascending number present).symm
  · obtain ⟨first, bounds, table⟩ := List.exists_cons_of_ne_nil filled
    change stored.amountTable = first :: bounds at table
    change Ascending stored.amountTable at ascending
    rw [table] at ascending
    have once : ∀ p ∈ payments, ranges.countP (countsFor · p.amount) =
        if first ≤ p.amount.abs then 1 else 0 := by
      intro p paid
      simp only [ranges, table]
      exact ascending.countP_countsFor (numbers p paid)
    refine ⟨first, by simp [table], fun p paid => ?_, ?_⟩
    · rw [← once p paid]
      apply List.countP_congr
      intro range _
      simp [hits, List.mem_filter, show p ∈ book.paymentsOf user from paid]
    · simp only [hits, ← List.countP_eq_length_filter]
      apply sum_map_countP
      intro p paid
      rw [once p paid]
      simp
  · exact List.filter_eq_self.mpr fun p paid => countsFor_all (numbers p paid)

def twoRanges : StoredPlan := ⟨1, .table, none, [5.0, 10.0], .empty, ⟨0, 0⟩, ⟨0, 0⟩⟩

def atTheBounds : Book :=
  { Book.blank with
    payments := [⟨1, 1, -5.0, none, none⟩, ⟨2, 1, 10.0, none, none⟩, ⟨3, 1, 1.0 / 0.0, none, none⟩,
      ⟨4, 1, 3.0, none, none⟩] }

theorem hits_agree_with_table_at_the_bounds :
    let ranges := AmountRange.ofBounds twoRanges.amountTable
    twoRanges.plan.check = .ok () ∧
      (∀ p ∈ atTheBounds.paymentsOf 1, p.amount.isNaN = false) ∧
      (atTheBounds.hits 1 ⟨5.0, some 10.0⟩).map (·.id) = [1] ∧
      (atTheBounds.hits 1 ⟨10.0, none⟩).map (·.id) = [2, 3] ∧
      (ranges.map fun range => (atTheBounds.hits 1 range).length).sum = 3 := by
  intro ranges
  have accepted : twoRanges.plan.check = .ok () := by decide +kernel
  have numbers : ∀ p ∈ atTheBounds.paymentsOf 1, p.amount.isNaN = false := by decide +kernel
  obtain ⟨-, ⟨first, head, -, total⟩, -⟩ := hits_agree_with_table accepted numbers
  cases head
  refine ⟨accepted, numbers, by decide +kernel, by decide +kernel, total.trans ?_⟩
  decide +kernel

end Book

end PaymentFees
