import MarketScript.Proofs.Command.Depth

/-!
# Commands come to something

A command that is carried out fails or succeeds if the commands within it do.  So with as many steps
as its rank a command comes to something, and more steps make no difference.
-/

namespace MarketScript

open Act

namespace World

variable {w : World} {sender : Address} {family : Family} {args : List Abi}

theorem total_log (description : String) (i : Option (Invokation Value)) :
    (w.log description i).Total :=
  total_get.bind fun _ => (total_announce _).bind fun _ => total_pure _

theorem total_addAction (description : String) : (w.addAction description).Total :=
  total_log description none

theorem total_record (description : String) (i : Invokation Value) :
    (w.record description i).Total := by
  intro before
  unfold record
  cases i.error? with
  | none => exact ⟨_, _, rfl⟩
  | some e => cases w.settings.allowFailures <;> exact ⟨_, _, rfl⟩

theorem total_deploy {name kind : String} {fields : List (String × Value)} :
    (w.deploy sender family name kind args fields).Total := by
  refine (total_onChain _).bind fun made => ?_
  refine (total_record _ _).bind fun u => ?_
  split <;> exact total_pure _

theorem total_send {target : Address} {method description : String} :
    (w.send sender target family method args description).Total := by
  refine (total_ofExcept _).bind fun h => ?_
  refine (total_onChain _).bind fun sent => ?_
  exact total_record _ _

theorem total_bindExisting {name : String} {address : Address} :
    (w.bindExisting family name address).Total := by
  intro before
  unfold bindExisting
  refine total_get.bind (fun stage => ?_) before
  cases stage.chain.kindAt address with
  | none => exact total_throw _
  | some kind =>
    show (if ! family.kinds.contains kind then _ else _ : Act World).Total
    split
    · exact total_throw _
    · exact total_addAction _

end World

namespace Command

open World

variable {w : World} {sender : Address} {args : Args}

theorem total_assertEqualTo : (assertEqualTo w args).Total := by
  refine total_ask fun given _ => total_ask fun expected _ => ?_
  split
  · exact total_throw _
  · exact total_addAction _

theorem total_assertBool (expected : Bool) : (assertBool w args expected).Total := by
  refine total_ask fun condition _ => ?_
  split
  · exact total_throw _
  · exact total_addAction _

theorem total_assertSucceeded : (assertSucceeded w).Total := by
  refine total_ask fun error _ => ?_
  split
  · exact total_throw _
  · exact total_addAction _

theorem total_assertFailed : (assertFailed w args).Total := by
  refine total_ask fun expected _ => total_ask fun error _ => ?_
  split
  · exact total_throw _
  · exact total_addAction _

theorem total_assertReverted : (assertReverted w args).Total := by
  refine total_ask fun error _ => ?_
  split
  · exact total_throw _
  · exact total_addAction _

/-- A command comes to something if the command that it carries out does. -/
theorem total_perform {run : World → Address → CommandTable → Event → Act World} (c : Command)
    (within : ∀ table name, c.inner? = some (table, name) → ∀ e, args.event name = .ok e →
      ∀ w sender, (run w sender table e).Total) :
    (c.perform run w sender args).Total := by
  cases c with
  | read | print => exact total_ask fun _ _ => total_addAction _
  | nameAddress => exact total_ask fun _ _ => total_ask fun _ _ => total_addAction _
  | fromAccount =>
    exact total_ask fun account _ => total_ask fun e told => within _ _ rfl e told w account
  | dryRun =>
    exact total_ask fun e told => (within _ _ rfl e told _ sender).bind fun _ => total_pure _
  | allowFailures => exact total_addAction _
  | inspect => exact (total_announce _).bind fun _ => total_addAction _
  | inTable table arg => exact total_ask fun e told => within _ _ rfl e told w sender
  | assertEqual => exact total_assertEqualTo
  | assertCondition expected => exact total_assertBool expected
  | assertSuccess => exact total_assertSucceeded
  | assertFailure => exact total_assertFailed
  | assertRevert => exact total_assertReverted
  | deployController kind => exact total_ask fun _ _ => total_deploy
  | deployRegistry => exact total_deploy
  | deployRateModel =>
    exact total_ask fun _ _ => total_ask fun _ _ => total_ask fun _ _ => total_deploy
  | deployToken | deployMarket =>
    repeat refine total_ask fun _ _ => ?_
    exact total_deploy
  | bindExisting family nameArg =>
    exact total_ask fun _ _ => total_ask fun _ _ => total_bindExisting
  | acceptAdmin => exact total_ask fun _ _ => total_send
  | supportMarket | setPendingAdmin => exact total_ask fun _ _ => total_ask fun _ _ => total_send
  | setCloseFactor | mint | redeem =>
    exact total_ask fun _ _ => total_ask fun _ _ => total_ask fun _ _ => total_send
  | setCollateralFactor | tokenMessage =>
    exact total_ask fun _ _ => total_ask fun _ _ => total_ask fun _ _ => total_ask fun _ _ =>
      total_send

theorem inner?_of_leaf {c : Command} (leaf : c.delegates = false) : c.inner? = none := by
  cases c <;> first | rfl | cases leaf

end Command

/-- A deed comes to something. -/
theorem Deed.total_act {d : Deed} (sound : d.task.Sound) : d.act.Total := by
  obtain ⟨task, w, sender⟩ := d
  cases task with
  | skip e => exact World.total_addAction _
  | command c args =>
    show (c.perform (fun _ _ _ _ => Act.exhausted) w sender args).Total
    refine Command.total_perform c fun table name carries => ?_
    rw [Command.inner?_of_leaf sound.2] at carries
    cases carries

namespace World

/-- With as many steps as its rank a command comes to something, and more steps make no
    difference. -/
theorem carryOut_ends (w : World) (sender : Address) (table : CommandTable) (e : Event)
    (before : Stage) :
    ∃ result after, ∀ depth, table.rank e ≤ depth →
      (w.carryOut depth sender table e).Ends before result after := by
  have agree {depth : Nat} (enough : table.rank e ≤ depth) :=
    w.deed_agree before.chain sender table e (Nat.le_refl _) enough
  have enacted : ∃ result after, Enacted (w.deed before.chain (table.rank e) sender table e)
      w.settings.dryRun before result after := by
    obtain ⟨found, ended⟩ := (agree (Nat.le_refl _)).total
    cases found with
    | error error => exact ⟨_, _, .inl ⟨error, ended, rfl, rfl⟩⟩
    | ok d =>
      obtain ⟨result, after, acted⟩ := Deed.total_act (deed_within ended).1 before
      exact ⟨_, after, .inr ⟨d, result, ended, acted, rfl⟩⟩
  obtain ⟨result, after, enacted⟩ := enacted
  refine ⟨result, after, fun depth enough => ?_⟩
  rw [(agree enough).eq] at enacted
  exact (enacts_carryOut before depth w sender table e result after).mpr enacted

/-- With as many steps as its rank a command of the top level comes to what it comes to in a run. -/
theorem command_ends (w : World) (sender : Address) (e : Event) (before : Stage) {depth : Nat}
    (enough : CommandTable.topLevel.rank e ≤ depth) :
    (w.carryOut depth sender .topLevel e).Ends before (w.command sender e before).1
      (w.command sender e before).2 := by
  obtain ⟨result, after, ends⟩ := w.carryOut_ends sender .topLevel e before
  have carried : (w.carryOut e.depth sender .topLevel e).run.run before = some (result, after) :=
    ends _ (CommandTable.rank_le_depth _ e)
  have same : w.command sender e before = (result, after) := by
    rw [command, carried]
    rfl
  rw [same]
  exact ends depth enough

end World

end MarketScript
