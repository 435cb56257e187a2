import PaymentFees.Decimal.Rounding

namespace PaymentFees.CommandLine

structure Random where
  state : BitVec 128
  deriving DecidableEq, Repr

namespace Random

def stretch (seed : BitVec 64) : BitVec 64 × BitVec 32 :=
  let seed := seed * 6364136223846793005 + 11634580027462260723
  let mixed := (((seed >>> 18) ^^^ seed) >>> 27).setWidth 32
  (seed, mixed.rotateRight (seed >>> 59).toNat)

/-- Four stretches of the seed, the first one lowest, made odd. -/
def ofSeed (seed : Nat) : Random :=
  let (seed, a) := stretch (BitVec.ofNat 64 seed)
  let (seed, b) := stretch seed
  let (seed, c) := stretch seed
  let (_, d) := stretch seed
  ⟨(d ++ c ++ b ++ a : BitVec 128) ||| 1⟩

def next (r : Random) : BitVec 64 × Random :=
  let state := r.state * 0x2360ED051FC65DA44385DF649FCCF645
  let mixed := (state >>> 64).setWidth 64 ^^^ state.setWidth 64
  (mixed.rotateRight (state >>> 122).toNat, ⟨state⟩)

def chance (probability : Float) (r : Random) : Bool × Random :=
  let (bits, r) := r.next
  (bits.toNat < (probability * 18446744073709551616.0).toUInt64.toNat, r)

/-- A number from `low` up to below `high`; drawn again, at most so often, if rounding reached
`high`. -/
def between (low high : Float) : Nat → Random → Float × Random
  | tries, r =>
    let (bits, r) := r.next
    let fraction := Float.ofNat (bits >>> 12).toNat / 4503599627370496.0
    let value := fraction * (high - low) + low
    match tries with
    | tries + 1 => if value < high then (value, r) else between low high tries r
    | 0 => (value, r)

def amount (r : Random) : Float × Random :=
  let (isSmall, r) := r.chance 0.8
  let (size, r) := if isSmall then between 1.0 250.0 64 r else between 250.0 5000.0 64 r
  let cents := nearestWhole (size * 100.0) / 100.0
  let (isIncome, r) := r.chance 0.2
  (if isIncome then cents else -cents, r)

def draws {α : Type} (draw : Random → α × Random) : Nat → Random → List α × Random
  | 0, r => ([], r)
  | count + 1, r =>
    let (first, r) := draw r
    let (others, r) := draws draw count r
    (first :: others, r)

def amounts : Nat → Random → List Float × Random := draws amount

end Random

end PaymentFees.CommandLine
