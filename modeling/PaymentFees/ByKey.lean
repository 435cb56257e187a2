namespace PaymentFees

variable {α : Type}

def insertByKey (key : String) (value : α) : List (String × α) → List (String × α)
  | [] => [(key, value)]
  | entry :: entries =>
    if key < entry.1 then (key, value) :: entry :: entries
    else if key = entry.1 then (key, value) :: entries
    else entry :: insertByKey key value entries

theorem mem_insertByKey {key : String} {value : α} {entries : List (String × α)}
    {entry : String × α} (present : entry ∈ insertByKey key value entries) :
    entry = (key, value) ∨ entry ∈ entries := by
  induction entries with
  | nil => simpa [insertByKey] using present
  | cons head rest ih =>
    simp only [insertByKey] at present
    split at present
    · simpa using present
    · split at present
      · rcases List.mem_cons.mp present with here | later
        · exact .inl here
        · exact .inr (List.mem_cons_of_mem _ later)
      · rcases List.mem_cons.mp present with here | later
        · exact .inr (here ▸ List.mem_cons_self)
        · exact (ih later).imp_right (List.mem_cons_of_mem _)

theorem pairwise_insertByKey {key : String} {value : α} {entries : List (String × α)}
    (ascending : entries.Pairwise (·.1 < ·.1)) :
    (insertByKey key value entries).Pairwise (·.1 < ·.1) := by
  induction entries with
  | nil => simp [insertByKey]
  | cons head rest ih =>
    obtain ⟨above, restAscending⟩ := List.pairwise_cons.mp ascending
    simp only [insertByKey]
    split
    · next below =>
      refine List.pairwise_cons.mpr ⟨fun entry present => ?_, ascending⟩
      rcases List.mem_cons.mp present with here | later
      · exact here ▸ below
      · exact String.lt_trans below (above entry later)
    · next notBelow =>
      split
      · next same => exact List.pairwise_cons.mpr ⟨same ▸ above, restAscending⟩
      · next other =>
        refine List.pairwise_cons.mpr ⟨fun entry present => ?_, ih restAscending⟩
        rcases mem_insertByKey present with here | later
        · subst here
          exact Std.lt_of_le_of_ne (String.not_lt.mp notBelow) (fun same => other same.symm)
        · exact above entry later

structure ByKey (α : Type) where
  entries : List (String × α)
  ascending : entries.Pairwise (·.1 < ·.1)
  deriving DecidableEq

namespace ByKey

def empty : ByKey α := ⟨[], .nil⟩

def insert (table : ByKey α) (key : String) (value : α) : ByKey α :=
  ⟨insertByKey key value table.entries, pairwise_insertByKey table.ascending⟩

/-- Of entries with the same key the last one stays. -/
def ofEntries (entries : List (String × α)) : ByKey α :=
  entries.foldl (fun table (key, value) => table.insert key value) empty

def find? (table : ByKey α) (key : String) : Option α := table.entries.lookup key

def isEmpty (table : ByKey α) : Bool := table.entries.isEmpty

instance : Inhabited (ByKey α) := ⟨empty⟩

instance [Repr α] : Repr (ByKey α) := ⟨fun table => reprPrec table.entries⟩

end ByKey

end PaymentFees
