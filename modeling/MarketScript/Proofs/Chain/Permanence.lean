import MarketScript.Proofs.Chain.Addresses
import MarketScript.Proofs.Chain.Idle
import MarketScript.Proofs.Chain.Numbers
import MarketScript.Proofs.Ledger.Listing

/-!
# What stays on a chain

As long as no two transactions draw the same address, a contract that stands somewhere stands there
for ever, nothing but a deployment makes one, and whatever a controller lists is a market.
-/

namespace MarketScript

namespace Chain

variable {c : Chain} {r : Request} {l : Ledger}

/-- A controller lists what it has listed before, or what is a market. -/
theorem Change.lists (change : c.Change r l) {controller market : Address}
    (lists : l.Lists controller market) :
    c.contracts.Lists controller market ∨
      ∃ m, c.contracts.get? market = some (.market m) := by
  cases change with
  | none => exact .inl lists
  | sent step => exact step.lists lists
  | @deployed sender kind args made creation =>
    obtain ⟨k, there, listed⟩ := lists
    rw [Store.get?_insert] at there
    split at there
    · cases there
      have empty : k.markets = .empty := Contract.idle_of_create creation
      rw [Controller.isListed_of_empty empty] at listed
      cases listed
    · exact .inl ⟨k, there, listed⟩

/-- A request lists no address that is no market. -/
theorem genuine_after (seeded : c.Seeded) (distinct : (c.after r).DistinctSeeds)
    (h : c.contracts.Genuine) : (c.after r).contracts.Genuine := by
  intro controller market lists
  have before : ∃ m, c.contracts.get? market = some (.market m) := by
    rcases (c.change_after r).lists lists with earlier | here
    · exact h controller market earlier
    · exact here
  obtain ⟨m, found⟩ := before
  exact seeded.market_after distinct found

theorem genuine_ofRun (network : String) {rs : List Request}
    (distinct : (ofRun network rs).DistinctSeeds) : (ofRun network rs).contracts.Genuine := by
  induction rs using List.reverseRecOn with
  | nil => exact Ledger.genuine_empty
  | append_singleton rs r ih =>
    rw [ofRun_concat] at distinct ⊢
    exact genuine_after (seeded_ofRun network rs) distinct (ih distinct.of_after)

/-- An interaction puts a contract at an address: it is a deployment that succeeds, and the address
    is the one on the receipt. -/
def Places (c : Chain) (i : Interaction) (kind : String) (address : Address) : Prop :=
  ∃ sender args receipt, i = .request (.deploy sender kind args) ∧
    (c.deploy sender kind args).1 = .ok receipt ∧ receipt.contractAddress = some address

/-- What stands where nothing stood has just been made there. -/
theorem kindAt_meet_iff {i : Interaction} {address : Address} (free : c.kindAt address = none)
    (kind : String) : (c.meet i).kindAt address = some kind ↔ c.Places i kind address := by
  constructor
  · intro stands
    cases i with
    | call target method args => cases free.symm.trans stands
    | request r =>
      cases r with
      | send sender target method args =>
        have kept := kindAt_send c sender target address method args
        cases (kept.trans free).symm.trans stands
      | deploy sender other args =>
        cases creation : Contract.create other sender ⟨"constructor", args⟩ with
        | error e =>
          simp only [meet, after, deploy, creation] at stands
          cases free.symm.trans stands
        | ok made =>
          rw [meet, after_deploy c creation, kindAt, Store.get?_insert] at stands
          split at stands
          · rename_i here
            cases stands
            rw [Contract.kind_of_create creation]
            have done := congrArg Prod.fst (deploy_of_create c creation)
            exact ⟨sender, args, _, rfl, done, congrArg some here⟩
          · cases free.symm.trans stands
  · rintro ⟨sender, args, receipt, rfl, answered, here⟩
    rcases deploy_cases c sender kind args with ⟨e, refused⟩ | ⟨other, made, done, there, -, stands⟩
    · cases (congrArg Prod.fst refused).symm.trans answered
    · cases (congrArg Prod.fst done).symm.trans answered
      cases here.symm.trans there
      exact stands

/-- In a history no number of an account is used up twice: the numbers used up are all below the
    account's count, each one once, and a receipt carries the hash of its own.  If they all draw
    distinct addresses, then what stands somewhere remains what it is, what did not stand before an
    interaction has been made by it, and what a controller lists is a market at all times. -/
theorem contracts_stay (network : String) (is : List Interaction) :
    (numbers { network } is).Nodup ∧
    (∀ account nonce, (account, nonce) ∈ numbers { network } is ↔
      nonce < (ofHistory network is).nonceOf account) ∧
    (∀ past r receipt, past ++ [.request r] <+: is →
      (ofHistory network past).answer r = .ok receipt →
      ∃ nonce, (ofHistory network past).drawn (.request r) = [(r.sender, nonce)] ∧
        receipt.txHash = txHash r.sender nonce) ∧
    ((ofHistory network is).DistinctSeeds →
      (∀ past address kind, past <+: is → (ofHistory network past).kindAt address = some kind →
        (ofHistory network is).kindAt address = some kind) ∧
      (∀ past i address kind, past ++ [i] <+: is → (ofHistory network past).kindAt address = none →
        ((ofHistory network (past ++ [i])).kindAt address = some kind ↔
          (ofHistory network past).Places i kind address)) ∧
      ∀ past controller market, past <+: is →
        (ofHistory network past).contracts.Lists controller market →
        ∃ kind ∈ Family.market.kinds, (ofHistory network past).kindAt market = some kind) := by
  refine ⟨nodup_numbers _ is, ?_, ?_, fun distinct => ⟨?_, ?_, ?_⟩⟩
  · intro account nonce
    exact (mem_numbers_iff _ is account nonce).trans (and_iff_right (Nat.zero_le nonce))
  · intro past r receipt _ answered
    exact drawn_of_answer _ answered
  · rintro past address kind ⟨rest, rfl⟩ stands
    rw [ofHistory_append, meetAll_eq_afterAll] at distinct ⊢
    have seeded : (ofHistory network past).Seeded := by
      rw [ofHistory_eq_ofRun]
      exact seeded_ofRun network _
    rw [seeded.kindAt_afterAll distinct (by simp [stands]), stands]
  · intro past i address kind _ free
    rw [ofHistory_concat]
    exact kindAt_meet_iff free kind
  · rintro past controller market ⟨rest, rfl⟩ lists
    rw [ofHistory_append, meetAll_eq_afterAll] at distinct
    have before := distinct.of_afterAll
    rw [ofHistory_eq_ofRun] at before lists ⊢
    obtain ⟨m, found⟩ := genuine_ofRun network before controller market lists
    exact ⟨_, (Contract.market m).kind_mem_family, by rw [kindAt, found, Option.map_some]⟩

section Supporting

/-- An account that does everything in `supporting`. -/
def supporter : Address := ⟨1⟩

/-- The controller that `supporting` makes. -/
def supportingController : Address := contractAddress supporter 0

/-- The market that `supporting` makes. -/
def supportedMarket : Address := contractAddress supporter 1

/-- A history that makes a controller and a market and lists the market.  Between that a deployment
    is refused, a question is asked, and a message goes to where nothing stands; at the end the
    market is listed once more, which fails, and so does listing what is no market. -/
def supporting : List Interaction :=
  [.request (.deploy supporter "Controller" []),
    .request (.deploy supporter "Lottery" []),
    .request (.deploy supporter "PErc20" [.address .zero, .address .zero,
      .address supportingController, .address .zero, .number 1, .number 0, .string "pZero",
      .string "pZRX", .number 8]),
    .call supportingController "markets" [.address supportedMarket],
    .request (.send supporter .zero "mint" [.number 1]),
    .request (.send supporter supportingController "_supportMarket" [.address supportedMarket]),
    .request (.send supporter supportingController "_supportMarket" [.address supportedMarket]),
    .request (.send supporter supportingController "_supportMarket" [.address .zero])]

theorem supporting_distinct : (ofHistory "development" supporting).DistinctSeeds := by
  have all : (ofHistory "development" supporting).nonces.entries = [(supporter, 6)] := by
    decide +kernel
  exact distinctSeeds_of_one all (by decide +kernel)

theorem supporting_lists : (ofHistory "development" supporting).contracts.Lists
    supportingController supportedMarket := by
  have listed : (((ofHistory "development" supporting).contracts.get? supportingController).bind
      Contract.asController?).map (·.isListed supportedMarket) = some true := by
    decide +kernel
  obtain ⟨k, isController, listed⟩ := Option.map_eq_some_iff.mp listed
  obtain ⟨c, found, isController⟩ := Option.bind_eq_some_iff.mp isController
  obtain rfl := Contract.asController?_eq_some.mp isController
  exact ⟨k, found, listed⟩

/-- The market of the history stays where it was made, and where it is listed. -/
theorem supporting_stays :
    (ofHistory "development" supporting).DistinctSeeds ∧
    (numbers { network := "development" } supporting).Nodup ∧
    (ofHistory "development" supporting).kindAt supportedMarket = some "PErc20" ∧
    (ofHistory "development" supporting).contracts.Lists supportingController supportedMarket ∧
    ∃ kind ∈ Family.market.kinds,
      (ofHistory "development" supporting).kindAt supportedMarket = some kind := by
  obtain ⟨nodup, -, -, stay⟩ := contracts_stay "development" supporting
  obtain ⟨keeps, -, markets⟩ := stay supporting_distinct
  have made : (ofHistory "development" (supporting.take 3)).kindAt supportedMarket =
      some "PErc20" := by
    decide +kernel
  exact ⟨supporting_distinct, nodup, keeps _ _ _ (List.take_prefix 3 supporting) made,
    supporting_lists, markets supporting _ _ (List.prefix_refl _) supporting_lists⟩

end Supporting

end Chain

end MarketScript
