import Mathlib.Tactic.Common
import PaymentFees.Formula.Token

/-!
Texts by their bytes. A computation on bytes is guarded: it is stuck where it reads out of bounds or
cuts a character in two. At each place where a character starts, the bytes show the same ASCII
characters as the text.
-/

namespace PaymentFees

/-- A computation that is stuck, ends with an error or gives a value. -/
abbrev Guarded (α : Type) := ExceptT FormulaError Option α

namespace Guarded

variable {α β : Type}

def answer (result : Except FormulaError α) : Guarded α := ExceptT.mk (some result)

def need (value : Option α) : Guarded α := ExceptT.mk (value.map .ok)

@[simp] theorem need_some (value : α) : need (some value) = answer (.ok value) := rfl

@[simp] theorem pure_eq (value : α) : (pure value : Guarded α) = answer (.ok value) := rfl

@[simp] theorem throw_eq (fault : FormulaError) :
    (throw fault : Guarded α) = answer (.error fault) := rfl

@[simp] theorem answer_ok_bind (value : α) (next : α → Guarded β) :
    answer (.ok value) >>= next = next value := rfl

theorem answer_bind (result : Except FormulaError α) (next : α → Except FormulaError β) :
    answer (result >>= next) = answer result >>= fun value => answer (next value) := by
  cases result <;> rfl

end Guarded

namespace Octets

def octets (text : String) : List UInt8 := text.toByteArray.data.toList

def shown (text : String) (i : Nat) : List Char := ((octets text).drop i).map Char.ofUInt8

def isBoundary (text : String) (i : Nat) : Bool := String.Pos.Raw.isValid text ⟨i⟩

def decode? (text : String) (start stop : Nat) : Option String :=
  String.fromUTF8? (text.toByteArray.extract start stop)

/-- The part of a text between two places; none where that would cut a character. -/
def slice? (text : String) (start stop : Nat) : Option String :=
  if start ≤ stop ∧ isBoundary text start ∧ isBoundary text stop then decode? text start stop
  else none

theorem octets_ofList (cs : List Char) :
    octets (String.ofList cs) = cs.flatMap String.utf8EncodeChar := by
  simp [octets, List.utf8Encode]

theorem utf8EncodeChar_cases (c : Char) :
    (c.toNat < 128 ∧ (String.utf8EncodeChar c).map Char.ofUInt8 = [c]) ∨
      ∃ b bs, 128 ≤ c.toNat ∧ 128 ≤ b.toNat ∧
        (String.utf8EncodeChar c).map Char.ofUInt8 = b :: bs := by
  have number (n : Nat) : (Char.ofUInt8 (UInt8.ofNat n)).toNat = n % 256 := by
    change (UInt8.ofNat n).toUInt32.toNat = n % 256
    simp
  have value : c.toNat = c.val.toNat := rfl
  simp only [String.utf8EncodeChar, ← value]
  split
  · left
    refine ⟨by omega, ?_⟩
    have same : Char.ofUInt8 (UInt8.ofNat c.toNat) = c := by
      apply Char.ext
      apply UInt32.toNat_inj.mp
      have := number c.toNat
      simp only [Char.toNat] at this ⊢
      omega
    simp [same]
  all_goals
    right
    split_ifs
    all_goals
      refine ⟨_, _, by omega, ?_, rfl⟩
      rw [number]
      omega

def width (cs : List Char) : Nat := (String.ofList cs).utf8ByteSize

/-- From the place on the text reads so. -/
def At (text : String) (i : Nat) (rest : List Char) : Prop :=
  ∃ before, text.toList = before ++ rest ∧ i = width before

def Ascii (p : Char → Bool) : Prop := ∀ c, p c = true → c.toNat < 128

theorem ascii_beq {c : Char} (small : c.toNat < 128) : Ascii (· == c) := by
  intro d same
  rwa [beq_iff_eq.mp same]

theorem Ascii.or {p q : Char → Bool} (first : Ascii p) (second : Ascii q) :
    Ascii fun c => p c || q c := by
  intro c either
  rcases Bool.or_eq_true_iff.mp either with left | right
  · exact first c left
  · exact second c right

theorem Ascii.outside {p : Char → Bool} (ascii : Ascii p) {c : Char} (large : 128 ≤ c.toNat) :
    p c = false := by
  rw [← Bool.not_eq_true]
  exact fun inside => absurd (ascii c inside) (by omega)

theorem width_append (cs ds : List Char) : width (cs ++ ds) = width cs + width ds := by
  simp [width, String.ofList_append]

theorem size_utf8Encode (cs : List Char) : cs.utf8Encode.size = width cs :=
  congrArg ByteArray.size String.toByteArray_ofList.symm

theorem length_flatMap_utf8EncodeChar (cs : List Char) :
    (cs.flatMap String.utf8EncodeChar).length = width cs := by
  simp [← size_utf8Encode, List.utf8Encode]

theorem width_cons (c : Char) (cs : List Char) : width (c :: cs) = c.utf8Size + width cs := by
  simp only [← length_flatMap_utf8EncodeChar, List.flatMap_cons, List.length_append,
    String.length_utf8EncodeChar]

theorem length_le_width (cs : List Char) : cs.length ≤ width cs := by
  induction cs with
  | nil => exact Nat.zero_le _
  | cons c cs ih =>
    have some := c.utf8Size_pos
    rw [width_cons, List.length_cons]
    omega

theorem width_ascii {cs : List Char} (ascii : ∀ c ∈ cs, c.toNat < 128) : width cs = cs.length := by
  induction cs with
  | nil => rfl
  | cons c cs ih =>
    obtain ⟨small, others⟩ := List.forall_mem_cons.mp ascii
    have single : c.utf8Size = 1 := by
      rcases utf8EncodeChar_cases c with ⟨-, single⟩ | ⟨b, bs, large, -⟩
      · simpa using congrArg List.length single
      · omega
    rw [width_cons, single, ih others, List.length_cons, Nat.add_comm]

theorem at_zero (text : String) : At text 0 text.toList := ⟨[], rfl, rfl⟩

namespace At

variable {text : String} {i : Nat} {taken rest : List Char}

theorem skip (here : At text i (taken ++ rest)) : At text (i + width taken) rest := by
  obtain ⟨before, same, rfl⟩ := here
  exact ⟨before ++ taken, by simp [same], (width_append before taken).symm⟩

theorem skip_ascii (here : At text i (taken ++ rest)) (ascii : ∀ c ∈ taken, c.toNat < 128) :
    At text (i + taken.length) rest :=
  width_ascii ascii ▸ here.skip

theorem next {c : Char} (here : At text i (c :: rest)) (ascii : c.toNat < 128) :
    At text (i + 1) rest := by
  have single : At text i ([c] ++ rest) := here
  exact single.skip_ascii (by simpa using ascii)

theorem size_eq (here : At text i rest) : i + width rest = text.utf8ByteSize := by
  obtain ⟨before, same, rfl⟩ := here
  rw [← width_append, ← same, width, String.ofList_toList]

theorem isBoundary (here : At text i rest) : isBoundary text i = true := by
  obtain ⟨before, same, rfl⟩ := here
  refine String.Pos.Raw.isValid_eq_true_iff.mpr (String.Pos.Raw.isValid_iff_exists_append.mpr ?_)
  refine ⟨String.ofList before, String.ofList rest, ?_, rfl⟩
  rw [← String.ofList_append, ← same, String.ofList_toList]

theorem decode? (here : At text i (taken ++ rest)) :
    decode? text i (i + width taken) = some (String.ofList taken) := by
  obtain ⟨before, same, rfl⟩ := here
  have bytes : text.toByteArray.extract (width before) (width before + width taken) =
      (String.ofList taken).toByteArray := by
    have front : (before.utf8Encode ++ taken.utf8Encode).size = width before + width taken := by
      rw [ByteArray.size_append, size_utf8Encode, size_utf8Encode]
    rw [← String.utf8Encode_toList, same, ← List.append_assoc, List.utf8Encode_append,
      List.utf8Encode_append, ← front, ByteArray.extract_append_size_left,
      ByteArray.extract_append_eq_right (size_utf8Encode before).symm ByteArray.size_append,
      String.toByteArray_ofList]
  rw [Octets.decode?, bytes, String.fromUTF8?, dif_pos (String.ofList taken).isValidUTF8]
  rfl

theorem slice? (here : At text i (taken ++ rest)) :
    slice? text i (i + width taken) = some (String.ofList taken) := by
  rw [Octets.slice?, if_pos ⟨Nat.le_add_right i _, here.isBoundary, here.skip.isBoundary⟩,
    here.decode?]

theorem shown (here : At text i rest) :
    shown text i = (rest.flatMap String.utf8EncodeChar).map Char.ofUInt8 := by
  obtain ⟨before, same, rfl⟩ := here
  have bytes : octets text = before.flatMap String.utf8EncodeChar ++
      rest.flatMap String.utf8EncodeChar := by
    rw [← List.flatMap_append, ← same, ← octets_ofList, String.ofList_toList]
  rw [Octets.shown, bytes, ← length_flatMap_utf8EncodeChar, List.drop_left]

section

variable {p : Char → Bool} (ascii : Ascii p)
include ascii

theorem any_head?_shown (here : At text i rest) :
    (Octets.shown text i).head?.any p = rest.head?.any p := by
  rw [here.shown]
  cases rest with
  | nil => rfl
  | cons c rest =>
    rw [List.flatMap_cons, List.map_append]
    rcases utf8EncodeChar_cases c with ⟨-, single⟩ | ⟨b, bs, large, byte, several⟩
    · simp [single]
    · simp [several, ascii.outside large, ascii.outside byte]

theorem takeWhile_shown (here : At text i rest) :
    (Octets.shown text i).takeWhile p = rest.takeWhile p := by
  rw [here.shown]
  clear here
  induction rest with
  | nil => rfl
  | cons c rest ih =>
    rw [List.flatMap_cons, List.map_append]
    rcases utf8EncodeChar_cases c with ⟨-, single⟩ | ⟨b, bs, large, byte, several⟩
    · simp [single, List.takeWhile_cons, ih]
    · simp [several, ascii.outside large, ascii.outside byte]

end

end At

end Octets

end PaymentFees
