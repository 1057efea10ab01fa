import MarketScript.Store

/-!
# Manifests

What a project's manifest says about the runs of its scripts.
-/

namespace MarketScript

/-- The settings of a project. -/
structure Manifest where
  network : String := "development"
  dryRun : Bool := false
  /-- Who sends what a script asks for without saying from whom. -/
  defaultFrom : String := "Admin"
  verbose : Bool := false
  /-- Further accounts: the name and the address of each, as written. -/
  accounts : Store String String := .empty
  /-- Names for addresses. -/
  aliases : Store String String := .empty

end MarketScript
