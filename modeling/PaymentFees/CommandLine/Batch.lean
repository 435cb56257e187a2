import PaymentFees.CommandLine.Options
import PaymentFees.CommandLine.Random
import PaymentFees.Service

namespace PaymentFees.CommandLine

structure Tally where
  charged : Nat
  fees : Float
  volume : Float
  deriving DecidableEq, Repr

def Tally.add (tally : Tally) (receipt : Receipt) : Tally :=
  let volume := tally.volume + receipt.grossAmount.abs
  if receipt.fee > 0.0 then ⟨tally.charged + 1, tally.fees + receipt.fee, volume⟩
  else { tally with volume := volume }

structure Summary where
  payments : Nat
  tally : Tally
  records : Nat
  entries : Nat
  deriving DecidableEq, Repr

namespace Summary

def effectiveRate (s : Summary) : Float :=
  if s.tally.volume > 0.0 then s.tally.fees / s.tally.volume * 100.0 else 0.0

def lines (s : Summary) : List String :=
  ["=== FEE SUMMARY ===",
    s!"  payments recorded: {s.payments}",
    s!"  fees charged:      {s.tally.charged}",
    s!"  fee records:       {s.records}",
    "  total fees:        " ++ fixedText 2 s.tally.fees,
    "  total volume:      " ++ fixedText 2 s.tally.volume,
    "  effective rate:    " ++ fixedText 3 s.effectiveRate ++ "%",
    s!"  ledger events:     {s.entries}"]

end Summary

/-- Three ranges. Only the first one's fee falls as its user pays more often: the line of the second
is below zero wherever it is not zero, and the third has no points and so a rising line. -/
def standardPlan (config : Config) : FeePlan where
  mode := .table
  formulaText := ""
  amountTable := [0.0, 100.0, 1000.0]
  ranges := .ofEntries [
    ("0", .fitted config [⟨0.0, 0.03⟩, ⟨0.5, 0.02⟩, ⟨1.0, 0.01⟩] 0.03),
    ("100", .fitted config [⟨0.0, 0.02⟩, ⟨1.0, 0.005⟩] 0.02),
    ("1000", .fitted config [] 0.01)]

namespace Batch

variable (config : Config) (now : Instant) (user : UserId)

def storeHistory (amounts : List Float) : Action Unit :=
  amounts.forM fun amount => do
    let _ ← Store.insertPayment now user amount (some "history")

def recordAll (amounts : List Float) : Action (List Receipt) :=
  amounts.mapM fun amount => Service.recordPayment config now user amount (some "batch")

def run (history amounts : List Float) (plan : FeePlan) : Action Summary := do
  storeHistory now user history
  let _ ← Service.savePlan now user plan
  let receipts ← recordAll config now user amounts
  let entries ← Store.entries user
  let records ← Store.records user
  return ⟨amounts.length, receipts.foldl Tally.add ⟨0, 0.0, 0.0⟩, records.length,
    entries.length⟩

def runSeeded (seed count : Nat) (plan : FeePlan) : Action Summary :=
  let (history, random) := (Random.ofSeed seed).amounts count
  let (amounts, _) := random.amounts count
  run config now user history amounts plan

end Batch

end PaymentFees.CommandLine
