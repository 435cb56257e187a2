import PaymentFees.Book.Basic

namespace PaymentFees

open Json

def floatBits (value : Float) : Json := ofInt value.toBits.toNat

def floatOfBits? (value : Json) : Option Float :=
  value.nat64?.map fun bits => Float.ofBits bits.toUInt64

def stampToJson : Stamp → Json :=
  ofOption fun t => .array [ofInt t.seconds, ofInt t.nanoseconds]

def stampOfJson? : Json → Option Stamp :=
  optional? fun
    | .array [seconds, nanoseconds] => return ⟨← seconds.int64?, ← nanoseconds.nat64?⟩
    | _ => none

namespace Payment

def toJson (p : Payment Stamp) : Json :=
  .array [ofInt p.id, ofInt p.user, floatBits p.amount, ofOption .text p.description,
    stampToJson p.createdAt]

def ofJson? : Json → Option (Payment Stamp)
  | .array [id, user, amount, description, createdAt] =>
    return ⟨← id.int64?, ← user.int64?, ← floatOfBits? amount, ← optional? text? description,
      ← stampOfJson? createdAt⟩
  | _ => none

end Payment

namespace FeeRecord

def toJson (r : FeeRecord Stamp) : Json :=
  .array [ofInt r.payment, ofInt r.user, floatBits r.fee, floatBits r.grossAmount,
    stampToJson r.createdAt, stampToJson r.updatedAt]

def ofJson? : Json → Option (FeeRecord Stamp)
  | .array [payment, user, fee, grossAmount, createdAt, updatedAt] =>
    return ⟨← payment.int64?, ← user.int64?, ← floatOfBits? fee, ← floatOfBits? grossAmount,
      ← stampOfJson? createdAt, ← stampOfJson? updatedAt⟩
  | _ => none

end FeeRecord

namespace LogEntry

def toJson (e : LogEntry Stamp) : Json :=
  .array [ofInt e.id, ofInt e.user, ofOption ofInt e.payment, .text e.typeName, .text e.payload,
    stampToJson e.createdAt]

def ofJson? : Json → Option (LogEntry Stamp)
  | .array [id, user, payment, typeName, payload, createdAt] =>
    return ⟨← id.int64?, ← user.int64?, ← optional? int64? payment, ← text? typeName,
      ← text? payload, ← stampOfJson? createdAt⟩
  | _ => none

end LogEntry

namespace PlanRow

def toJson (row : PlanRow) : Json :=
  .array [ofInt row.user, .text row.modeName, ofOption .text row.formulaText,
    .text row.boundsText, .text row.rangesText, stampToJson row.createdAt,
    stampToJson row.updatedAt]

def ofJson? : Json → Option PlanRow
  | .array [user, modeName, formulaText, boundsText, rangesText, createdAt, updatedAt] =>
    return ⟨← user.int64?, ← text? modeName, ← optional? text? formulaText, ← text? boundsText,
      ← text? rangesText, ← stampOfJson? createdAt, ← stampOfJson? updatedAt⟩
  | _ => none

end PlanRow

namespace Book

def toJson (book : Book) : Json :=
  .array [.bool book.hasTables, Json.ofList Payment.toJson book.payments,
    Json.ofList PlanRow.toJson book.plans, Json.ofList FeeRecord.toJson book.records,
    Json.ofList LogEntry.toJson book.log, ofInt book.nextPayment, ofInt book.nextEntry]

def ofJson? : Json → Option Book
  | .array [.bool hasTables, payments, plans, records, log, nextPayment, nextEntry] =>
    return ⟨hasTables, ← list? Payment.ofJson? payments, ← list? PlanRow.ofJson? plans,
      ← list? FeeRecord.ofJson? records, ← list? LogEntry.ofJson? log, ← nextPayment.int64?,
      ← nextEntry.int64?⟩
  | _ => none

def archive (book : Book) : String := book.toJson.render

def ofArchive? (text : String) : Option Book := Json.read text >>= ofJson?

end Book

end PaymentFees
