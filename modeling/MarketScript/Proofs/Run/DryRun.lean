import MarketScript.Proofs.Chain.Idle
import MarketScript.Proofs.Run.Names

/-!
# Dry runs

The one command that lists a market is skipped in a dry run.  A run that starts as a dry run stays
one, whatever its commands are wrapped in, so on its chain nothing is ever listed or minted.
-/

namespace MarketScript

namespace Command

/-- The command that lists markets is one of those that a dry run skips. -/
theorem skipped_of_supports {table : CommandTable} :
    ∀ d ∈ table.shapes, d.handler.method? = some "_supportMarket" → d.skipOnDryRun = true := by
  cases table with
  | topLevel | assertions => decide
  | family family | deploy family => cases family <;> decide

end Command

namespace World

open Act

variable {w w' : World} {s : Statement} {stage stage' : Stage}

/-- In a dry run a deed is done in a dry run, and it does not list a market. -/
theorem deed_dryRun {chain : Chain} {depth : Nat} {sender : Address} {table : CommandTable}
    {e : Event} {d : Deed} (dry : w.settings.dryRun = true)
    (found : (w.deed chain depth sender table e).Ends (.ok d)) :
    d.world.settings.dryRun = true ∧ ∀ r, d.task.Asks d.sender r → ¬ r.Supports := by
  refine deed_induction (P := fun w d => w.settings.dryRun = true →
    d.world.settings.dryRun = true ∧ ∀ r, d.task.Asks d.sender r → ¬ r.Supports) ?_ ?_
    (fun w d inner _ => inner rfl) depth w sender table e d found dry
  · exact fun w sender e dry => ⟨dry, fun r asks => absurd asks id⟩
  · intro depth w sender table e d args selected leaf performed dry
    refine ⟨dry, fun r asks supports => ?_⟩
    cases asks with
    | deploy => exact supports
    | send sends =>
      have member := (select_ends_iff.mp selected).mem
      rw [supports] at sends
      rw [Command.skipped_of_supports d member sends, dry] at performed
      cases performed

theorem asks_dryRun {r : Request} (dry : w.settings.dryRun = true) (asks : w.Asks s stage r) :
    ¬ r.Supports := by
  obtain ⟨d, found, asks⟩ := asks
  obtain ⟨sender, -, found⟩ := deedOf?_eq_some.mp found
  exact (deed_dryRun dry found).2 r asks

/-- In a dry run on a chain that lists nothing, a statement leaves it so. -/
theorem idle_statement {result : Except ScenarioError World} (dry : w.settings.dryRun = true)
    (idle : stage.chain.contracts.All Contract.Idle)
    (ended : w.runStatement s stage = (result, stage')) :
    stage'.chain.contracts.All Contract.Idle := by
  rcases (runStatement_dealt ended).chain with same | ⟨r, asks, same⟩
  · rw [same]
    exact idle
  · rw [same]
    exact Chain.idle_after (asks_dryRun dry asks) idle

theorem dryRun_statement (done : w.runStatement s stage = (.ok w', stage')) :
    w'.settings.dryRun = w.settings.dryRun := by
  obtain ⟨_, _, _, _, -, -, -, -, rfl⟩ := runStatement_done done
  rfl

theorem idle_run (dry : w.settings.dryRun = true) (idle : stage.chain.contracts.All Contract.Idle)
    (goOn : Bool) (ss : List Statement) :
    (run goOn ss w stage).1.world.settings.dryRun = true ∧
      (run goOn ss w stage).2.chain.contracts.All Contract.Idle := by
  refine (run_induction (P := fun w c => w.settings.dryRun = true ∧ c.contracts.All Contract.Idle)
    (Q := fun _ => True) ?_ ?_ goOn ss ⟨dry, idle⟩).1
  · rintro w s stage w' stage' ⟨dry, idle⟩ done
    exact ⟨(dryRun_statement done).trans dry, idle_statement dry idle done⟩
  · rintro w s stage e stage' ⟨dry, idle⟩ failed
    exact ⟨⟨dry, idle_statement dry idle failed⟩, trivial⟩

/-- Where the chain refuses every mint, a command that mints fails or records that it has failed. -/
theorem mint_fails {sender : Address} {args : Args} {result : Except ScenarioError World}
    (refuses : ∀ sender target params, stage.chain.Refuses (.send sender target "mint" params))
    (ends : (Command.sendMint w sender args).Ends stage result stage') :
    (∃ e, result = .error e) ∨ ∃ w', result = .ok w' ∧ w.RecordsFailure w' := by
  unfold Command.sendMint at ends
  rcases ends_ask.mp ends with ⟨e, -, rfl, -⟩ | ⟨market, -, ends⟩
  · exact .inl ⟨e, rfl⟩
  rcases ends_ask.mp ends with ⟨e, -, rfl, -⟩ | ⟨amount, -, ends⟩
  · exact .inl ⟨e, rfl⟩
  rcases ends_ask.mp ends with ⟨e, -, rfl, -⟩ | ⟨encoded, -, ends⟩
  · exact .inl ⟨e, rfl⟩
  rcases send_cases ends with ⟨e, -, rfl, -⟩ |
    ⟨h, i, -, -, fails, ⟨e, rfl, -⟩ | ⟨w', rfl, -, description, same, -⟩⟩
  · exact .inl ⟨e, rfl⟩
  · exact .inl ⟨_, rfl⟩
  · exact .inr ⟨w', rfl, i, description, _, fails.mpr (refuses _ _ _), same⟩

theorem mint_statement_fails {d : Deed} {args : Args} {result : Except ScenarioError World}
    (refuses : ∀ sender target params, stage.chain.Refuses (.send sender target "mint" params))
    (found : w.deedOf? s stage = some d) (mints : d.task = .command .mint args)
    (ended : w.runStatement s stage = (result, stage')) :
    (∃ e, result = .error e) ∨ ∃ w', result = .ok w' ∧ w.RecordsFailure w' := by
  rcases runStatement_cases ended with
    ⟨e, -, rfl, -⟩ | ⟨d', r, found', ⟨-, on, same⟩, acted, rfl⟩
  · exact .inl ⟨e, rfl⟩
  rw [found] at found'
  cases found'
  rw [Deed.act, mints] at acted
  rcases mint_fails refuses acted with ⟨e, rfl⟩ | ⟨v, rfl, records⟩
  · exact .inl ⟨e, rfl⟩
  · rw [same] at records
    exact .inr ⟨_, rfl, records.withDryRun⟩

/-- A run that starts in a dry run on an empty chain is a dry run to its end, and so are all deeds of
    its statements, whatever senders and dry runs they are wrapped in.  No controller lists a market,
    so the chain refuses every mint, every statement that mints fails or records a failure, and no
    market ever has a supply. -/
theorem dry_run_lists_nothing {w : World} {stage : Stage} (dry : w.settings.dryRun = true)
    (new : stage.chain.contracts = .empty) (goOn : Bool) (ss : List Statement) :
    (run goOn ss w stage).1.world.settings.dryRun = true ∧
    (∀ s d, (run goOn ss w stage).1.world.deedOf? s (run goOn ss w stage).2 = some d →
      d.world.settings.dryRun = true) ∧
    (∀ address c, (run goOn ss w stage).2.chain.contracts.get? address = some (.controller c) →
      ∀ market, c.isListed market = false) ∧
    (∀ sender target params,
      (run goOn ss w stage).2.chain.Refuses (.send sender target "mint" params)) ∧
    (∀ s d args result stage',
      (run goOn ss w stage).1.world.deedOf? s (run goOn ss w stage).2 = some d →
      d.task = .command .mint args →
      (run goOn ss w stage).1.world.runStatement s (run goOn ss w stage).2 = (result, stage') →
      (∃ e, result = .error e) ∨
        ∃ w', result = .ok w' ∧ (run goOn ss w stage).1.world.RecordsFailure w') ∧
    ∀ address m, (run goOn ss w stage).2.chain.contracts.get? address = some (.market m) →
      m.totalSupply = 0 := by
  have start : stage.chain.contracts.All Contract.Idle := new ▸ Ledger.all_empty
  obtain ⟨dry, idle⟩ := idle_run dry start goOn ss
  generalize run goOn ss w stage = ended at dry idle ⊢
  refine ⟨dry, fun s d found => ?_, fun address c here market => ?_, ?_, ?_, ?_⟩
  · obtain ⟨sender, -, found⟩ := deedOf?_eq_some.mp found
    exact (deed_dryRun dry found).1
  · exact Controller.isListed_of_empty (idle _ _ here) market
  · exact Chain.mint_refused idle
  · intro s d args result stage' found mints ended
    exact mint_statement_fails (Chain.mint_refused idle) found mints ended
  · intro address m here
    exact (idle _ _ here).1

section Listing

/-- A world with one account, in a dry run. -/
def dryAdmin : World := adminOnly.withDryRun true

/-- A script that makes a market and mints in it, after it has asked the controller to list it from
    within a command as another sender. -/
def dryListing : List Statement :=
  [["AllowFailures"],
    ["Controller", "Deploy"],
    ["InterestRateModel", "Deploy", "Fixed", "IRM", "0.05"],
    ["Erc20", "Deploy", "Standard", "ZRX", "Zero"],
    ["PToken", "Deploy", "Standard", "pZRX", "Market", "ZRX", "Controller", "IRM", "1", "0.1", "8"],
    ["From", "Admin", "DryRun", "Controller", "SupportMarket", "pZRX"],
    ["Erc20", "ZRX", "Faucet", "Admin", "10"],
    ["Erc20", "ZRX", "Approve", "pZRX", "10"]].map fun words =>
      { event := .words words, span := default }

/-- The addresses of the controller and of the market. -/
def listingAddresses : Address × Address :=
  (Chain.contractAddress ⟨1⟩ 0, Chain.contractAddress ⟨1⟩ 3)

theorem dryListing_contracts :
    (match (run false dryListing dryAdmin { chain := {} }).2.chain.contracts.get?
          listingAddresses.1,
        (run false dryListing dryAdmin { chain := {} }).2.chain.contracts.get?
          listingAddresses.2 with
      | some (.controller _), some (.market m) => decide (m.controller = listingAddresses.1)
      | _, _ => false) = true ∧
    (run false dryListing dryAdmin { chain := {} }).1.failures.isEmpty = true := by
  decide +kernel

/-- The statement that would list the market was skipped, so the market cannot be minted in. -/
theorem dryListing_lists_nothing :
    dryAdmin.settings.dryRun = true ∧ (Store.empty : Ledger) = .empty ∧
    ∃ c m, (run false dryListing dryAdmin { chain := {} }).2.chain.contracts.get?
        listingAddresses.1 = some (.controller c) ∧
      (run false dryListing dryAdmin { chain := {} }).2.chain.contracts.get?
        listingAddresses.2 = some (.market m) ∧
      m.controller = listingAddresses.1 ∧ c.isListed listingAddresses.2 = false ∧
      m.totalSupply = 0 ∧
      (run false dryListing dryAdmin { chain := {} }).2.chain.Refuses
        (.send ⟨1⟩ listingAddresses.2 "mint" [.number 5]) := by
  have dry : dryAdmin.settings.dryRun = true := rfl
  obtain ⟨-, -, unlisted, refuses, -, supplies⟩ :=
    @dry_run_lists_nothing dryAdmin { chain := {} } dry rfl false dryListing
  have contracts := dryListing_contracts.1
  refine ⟨dry, rfl, ?_⟩
  split at contracts
  · rename_i c m controller market
    exact ⟨c, m, controller, market, of_decide_eq_true contracts, unlisted _ _ controller _,
      supplies _ _ market, refuses _ _ _⟩
  · cases contracts

end Listing

end World

end MarketScript
