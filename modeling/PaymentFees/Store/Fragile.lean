import PaymentFees.Store.Basic

namespace PaymentFees

def Store.setOpen (isOpen : Bool) : Action Unit := modify ({ · with isOpen })

/-- What befalls the next statements, one after the other: a fault, or nothing. Opening and closing
a transaction count as statements. -/
structure Fragile where
  store : Store
  faults : List (Option StorageFault)
  deriving DecidableEq, Repr

namespace Fragile

abbrev Action := ExceptT Failure (StateM Fragile)

def meet : Action Unit := fun fragile =>
  match fragile.faults with
  | [] => (.ok (), fragile)
  | none :: faults => (.ok (), { fragile with faults })
  | some fault :: faults => (.error (.storage fault), { fragile with faults })

def onStore {α : Type} (action : PaymentFees.Action α) : Action α := fun fragile =>
  let (result, store) := action.run fragile.store
  (result, { fragile with store })

def setOpen (isOpen : Bool) : Action Unit := onStore (Store.setOpen isOpen)

def enclosed {α : Type} (body : Action α) : Action α := do
  meet
  setOpen true
  let value ← body
  meet
  setOpen false
  return value

instance : Session Action where
  execute run := do
    meet
    onStore (Session.execute run)
  transaction body := fun fragile =>
    if fragile.store.isOpen then body.run fragile
    else
      match (enclosed body).run fragile with
      | (.ok value, after) => (.ok value, after)
      | (.error failure, after) => (.error failure, { after with store := fragile.store })

end Fragile

end PaymentFees
