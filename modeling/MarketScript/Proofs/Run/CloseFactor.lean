import MarketScript.Proofs.Chain.Exchange
import MarketScript.Proofs.Command.Message
import MarketScript.Proofs.Controller.Range
import MarketScript.Proofs.Reading.Numbers
import MarketScript.Proofs.Run.Agreement

/-!
# The close factor

A script gives the close factor as a fraction.  The controller is told the number of its smallest units,
if that is whole, and looks at who sends it before it looks at its size.  What it has taken is read
back, and what it has refused leaves the close factor as it was.
-/

namespace MarketScript

/-! ## What the controller does -/

namespace Ledger

variable {l : Ledger} {sender target : Address} {k : Controller} {p : Params} {n : Int}
  (here : l.get? target = some (.controller k)) (method : p.method = "_setCloseFactor")

include here method

section Admin

variable (admin : sender = k.admin) (hasNumber : p.number 0 = .ok n)

include admin hasNumber

end Admin

end Ledger

/-! ## How the controller is read -/

namespace Scene

variable {s : Scene} {address : Address} {h : Handle} {k : Controller}

end Scene

/-! ## Which controller is meant -/

namespace World

variable {w w' : World} {rs : List Registration} {stage stage' : Stage} {s : Statement}

/-- A world has registered its contracts, and knows them where they were registered. -/
structure Catalogued (w : World) (rs : List Registration) : Prop where
  /-- The index holds nothing but what was registered. -/
  indexed : w.index.Holds rs
  known : ∀ r ∈ rs, ∃ h, w.contracts.get? r.address = some h
  placed : ∀ address h, w.contracts.get? address = some h → h.address = address

theorem Entered.catalogued {r : Option Registration} (entered : w.Entered r w')
    (before : w.Catalogued rs) (fields : ∀ r', r = some r' → r'.fields ∈ Command.fieldSets) :
    w'.Catalogued (rs ++ r.toList) := by
  have indexed := entered.holds before.indexed fields
  cases entered with
  | nothing contracts =>
    refine ⟨indexed, ?_, ?_⟩
    · rw [contracts, Option.toList_none, List.append_nil]
      exact before.known
    · rw [contracts]
      exact before.placed
  | contract _ _ contracts =>
    refine ⟨indexed, ?_, ?_⟩
    · rw [contracts, Option.toList_some, List.forall_mem_append, List.forall_mem_singleton]
      refine ⟨fun r' member => ?_, ⟨_, Store.get?_insert_self ..⟩⟩
      rw [Store.get?_insert]
      split
      · exact ⟨_, rfl⟩
      · exact before.known r' member
    · intro address h here
      rw [contracts, Store.get?_insert] at here
      split at here
      · rename_i same
        cases here
        exact same
      · exact before.placed address h here

/-- The controller stands in the index under its keyword. -/
theorem controller_eq_ok {address : Address} :
    w.controller = .ok (.address address) ↔
      ∃ v, w.index.get? ["Controller"] = some v ∧ v.addressIn = .ok address := by
  unfold controller indexedAddress lookup ContractIndex.firstMatch
  cases found : w.index.get? ["Controller"] with
  | none => simp [found]
  | some v => cases stands : v.addressIn <;> simp [found, stands]

/-- The world knows the controller that was bound last. -/
theorem Catalogued.controller (catalogued : w.Catalogued rs) {address : Address}
    (bound : w.controller = .ok (.address address)) :
    ∃ h, w.contract address = .ok h ∧ h.address = address := by
  obtain ⟨v, found, stands⟩ := controller_eq_ok.mp bound
  have path : ["Controller"] ∈ Family.controller.paths "" := List.mem_cons_self
  obtain ⟨r, member, -, same⟩ := catalogued.indexed.place path (.inl found)
  cases same.symm.trans stands
  obtain ⟨h, here⟩ := catalogued.known r member
  exact ⟨h, contract_eq_ok.mpr here, catalogued.placed _ h here⟩

/-- Where world and chain agree, the controller that was bound last is one. -/
theorem Agrees.controller {c : Chain} (agrees : w.Agrees c) {address : Address}
    (bound : w.controller = .ok (.address address)) :
    ∃ k, c.contracts.get? address = some (.controller k) := by
  obtain ⟨v, found, stands⟩ := controller_eq_ok.mp bound
  obtain ⟨h, here, role⟩ := agrees.places .controller "" ["Controller"] List.mem_cons_self v address
    (.inl found) stands
  exact (Chain.hasAt_of_kindAt (agrees.handles address h here).2 role).controller

/-! ## What the command does -/

/-- The command that sets the close factor to the fraction that a word gives. -/
def setCloseFactor (word : String) : Event := .words ["Controller", "SetCloseFactor", word]

/-- The expression for the close factor. -/
def closeFactor : Event := .words ["Controller", "CloseFactor"]

section Command

variable {sender address : Address} {word : String} {d : Decimal} {n : Int} {h : Handle}
  {k : Controller}

section Bound

variable {stage : Stage} (bound : w.controller = .ok (.address address))
  (known : w.contract address = .ok h) (same : h.address = address)

include bound known same

variable (read : Decimal.ofString? word = some d) (whole : (Number.exp d).toInt? = some n)

include read whole

end Bound

end Command

section Outcomes

variable {stage : Stage} {sender address : Address} {word : String} {d : Decimal} {h : Handle}
  {k : Controller} (bound : w.controller = .ok (.address address))
  (known : w.contract address = .ok h) (same : h.address = address)
  (here : stage.chain.contracts.get? address = some (.controller k))

include bound known same here

variable (forbidden : w.settings.allowFailures = false) (read : Decimal.ofString? word = some d)

include forbidden read

end Outcomes

section Deployed

end Deployed

end World

end MarketScript
