import MarketScript.Manifest
import MarketScript.World
import MarketScript.Proofs.Except

/-!
# The names that a manifest declares

In the world that a manifest sets up a name stands for the last account that was declared with it,
for the account of this name that every world has, or for the last alias, in this order and whatever
the case of its letters.  So a declared name stands for the address that was written for it unless
another of these comes before.
-/

namespace MarketScript

namespace Account

/-- The address of the account of a name that every world has. -/
def default? (name : String) : Option Address :=
  ((defaultNames.map wellKnown).find? fun a => sameWord a.name name).map (·.address)

/-- No two of the accounts that every world has are the same up to the case of their letters. -/
theorem default?_of_mem {name default : String} (member : default ∈ defaultNames)
    (same : sameWord default name = true) : default? name = some (wellKnown default).address := by
  have apart : ∀ other ∈ defaultNames, ∀ default ∈ defaultNames,
      sameWord other default = true → other = default := by
    decide
  have isThere : ((defaultNames.map wellKnown).find? fun a => sameWord a.name name).isSome := by
    rw [List.find?_isSome]
    exact ⟨wellKnown default, List.mem_map_of_mem member, same⟩
  obtain ⟨a, found⟩ := Option.isSome_iff_exists.mp isThere
  have isName := List.find?_some found
  obtain ⟨other, known, rfl⟩ := List.mem_map.mp (List.mem_of_find?_eq_some found)
  have theSame : other = default := by
    refine apart other known default member (sameWord_trans isName ?_)
    rw [sameWord_comm]
    exact same
  rw [default?, found, theSame]
  rfl

theorem default?_eq_some {name : String} {address : Address} (known : default? name = some address) :
    ∃ default ∈ defaultNames, sameWord default name = true ∧ (wellKnown default).address = address := by
  obtain ⟨a, found, rfl⟩ := Option.map_eq_some_iff.mp known
  have isName := List.find?_some found
  obtain ⟨default, member, rfl⟩ := List.mem_map.mp (List.mem_of_find?_eq_some found)
  exact ⟨default, member, isName, rfl⟩

end Account

namespace Manifest

/-- What the last of several entries with a name says. -/
def lastOf (entries : List (String × String)) (name : String) : Option String :=
  (entries.reverse.find? fun e => sameWord e.1 name).map (·.2)

theorem lastOf_cons (e : String × String) (entries : List (String × String)) (name : String) :
    lastOf (e :: entries) name =
      (lastOf entries name).or (if sameWord e.1 name = true then some e.2 else none) := by
  unfold lastOf
  rw [List.reverse_cons, List.find?_append, Option.map_or, List.find?_singleton]
  split <;> rfl

theorem lastOf_eq_none {entries : List (String × String)} {name : String} :
    lastOf entries name = none ↔ ∀ e ∈ entries, sameWord e.1 name = false := by
  simp [lastOf]

theorem mem_of_lastOf {entries : List (String × String)} {name text : String}
    (last : lastOf entries name = some text) :
    ∃ e ∈ entries, sameWord e.1 name = true ∧ e.2 = text := by
  obtain ⟨e, found, rfl⟩ := Option.map_eq_some_iff.mp last
  refine ⟨e, List.mem_reverse.mp (List.mem_of_find?_eq_some found), ?_, rfl⟩
  have same := List.find?_some found
  exact same

/-- A declared name has a last entry. -/
theorem lastOf_of_mem {entries : List (String × String)} {e : String × String}
    (member : e ∈ entries) :
    ∃ f ∈ entries, sameWord f.1 e.1 = true ∧ lastOf entries e.1 = some f.2 := by
  cases last : lastOf entries e.1 with
  | none =>
    have impossible := lastOf_eq_none.mp last e member
    rw [sameWord_self] at impossible
    cases impossible
  | some text =>
    obtain ⟨f, declared, same, rfl⟩ := mem_of_lastOf last
    exact ⟨f, declared, same, rfl⟩

theorem isAddressText_iff {text : String} :
    isAddressText text = true ↔ (Address.ofString? text).isSome = true := by
  by_cases prefixed : ∃ ds, text.toList = '0' :: 'x' :: ds ∨ text.toList = '0' :: 'X' :: ds
  · obtain ⟨ds, small | large⟩ := prefixed
    · simp [isAddressText, Address.ofString?, Address.ofChars?, small]
    · simp [isAddressText, Address.ofString?, Address.ofChars?, large]
  · have noText : isAddressText text = false := by
      unfold isAddressText
      split
      · rename_i ds small
        exact absurd ⟨ds, .inl small⟩ prefixed
      · rename_i ds large
        exact absurd ⟨ds, .inr large⟩ prefixed
      · rfl
    have noAddress : Address.ofString? text = none := by
      unfold Address.ofString? Address.ofChars?
      split
      · rename_i ds small
        exact absurd ⟨ds, .inl small⟩ prefixed
      · rename_i ds large
        exact absurd ⟨ds, .inr large⟩ prefixed
      · rfl
    simp [noText, noAddress]

/-- What an accepted manifest is sure of: all its addresses can be read, and no alias has the name of
    a declared account. -/
structure Checked (m : Manifest) : Prop where
  accounts : ∀ e ∈ m.accounts.toList, (Address.ofString? e.2).isSome = true
  aliases : ∀ e ∈ m.aliases.toList, (Address.ofString? e.2).isSome = true
  apart : ∀ e ∈ m.aliases.toList, ∀ f ∈ m.accounts.toList, sameWord f.1 e.1 = false

theorem checkAddress_eq_ok {table name text : String} :
    checkAddress table name text = .ok () ↔ (Address.ofString? text).isSome = true := by
  rw [← isAddressText_iff, checkAddress]
  split <;> simp_all

theorem checkAlias_eq_ok {accounts : List String} {name text : String} :
    checkAlias accounts name text = .ok () ↔
      (Address.ofString? text).isSome = true ∧ ∀ account ∈ accounts, sameWord account name = false := by
  unfold checkAlias
  rw [except_bind_eq_ok]
  constructor
  · rintro ⟨⟨⟩, read, rest⟩
    refine ⟨checkAddress_eq_ok.mp read, ?_⟩
    split at rest
    · cases rest
    · rename_i apart
      simpa using apart
  · rintro ⟨read, apart⟩
    refine ⟨(), checkAddress_eq_ok.mpr read, ?_⟩
    rw [if_neg]
    · rfl
    · simpa using apart

theorem checked_of_check {m : Manifest} (ok : m.check = .ok ()) : m.Checked := by
  rw [check, except_bind_eq_ok] at ok
  obtain ⟨⟨⟩, accounts, aliases⟩ := ok
  rw [except_forM_eq_ok] at accounts aliases
  constructor
  · intro e member
    exact checkAddress_eq_ok.mp (accounts e member)
  · intro e member
    exact (checkAlias_eq_ok.mp (aliases e member)).1
  · intro e member f declared
    exact (checkAlias_eq_ok.mp (aliases e member)).2 f.1 (List.mem_map_of_mem declared)

theorem checked_of_parse {text : String} {m : Manifest} (accepted : parse text = .ok m) :
    m.Checked := by
  unfold parse at accepted
  split at accepted
  · cases accepted
  · simp only [except_bind_eq_ok, except_pure_eq_ok] at accepted
    obtain ⟨_, -, _, checked, rfl⟩ := accepted
    exact checked_of_check checked

/-- No declared name is in the way of another, and no account that every world has is in the way of
    an alias, unless both mean the same address. -/
structure Unshadowed (m : Manifest) : Prop where
  accounts : ∀ e ∈ m.accounts.toList, ∀ f ∈ m.accounts.toList, sameWord e.1 f.1 = true →
    Address.ofString? e.2 = Address.ofString? f.2
  aliases : ∀ e ∈ m.aliases.toList, ∀ f ∈ m.aliases.toList, sameWord e.1 f.1 = true →
    Address.ofString? e.2 = Address.ofString? f.2
  defaults : ∀ e ∈ m.aliases.toList, ∀ name ∈ Account.defaultNames, sameWord name e.1 = true →
    Address.ofString? e.2 = some (Account.wellKnown name).address

end Manifest

namespace World

/-- Entries that are put one after the other into something that knows addresses by name. -/
theorem foldlM_put {σ : Type} (look : σ → String → Option Address)
    (put : σ → String → Address → σ) (table : String)
    (look_put : ∀ s name address other, look (put s name address) other =
      if sameWord name other = true then some address else look s other)
    {entries : List (String × String)}
    (written : ∀ e ∈ entries, (Address.ofString? e.2).isSome = true) (s : σ) :
    ∃ s', entries.foldlM (fun s (name, text) => do
        return put s name (← manifestAddress table name text)) s = .ok s' ∧
      ∀ other, look s' other =
        ((Manifest.lastOf entries other).bind Address.ofString?).or (look s other) := by
  induction entries generalizing s with
  | nil => exact ⟨s, rfl, fun other => rfl⟩
  | cons e entries ih =>
    obtain ⟨address, read⟩ := Option.isSome_iff_exists.mp (written e List.mem_cons_self)
    obtain ⟨s', folded, looked⟩ :=
      ih (fun e member => written e (List.mem_cons_of_mem _ member)) (put s e.1 address)
    refine ⟨s', ?_, ?_⟩
    · simp only [List.foldlM_cons, manifestAddress, read]
      exact folded
    · intro other
      rw [looked, look_put, Manifest.lastOf_cons]
      cases last : Manifest.lastOf entries other with
      | none =>
        split
        · simp [read]
        · simp
      | some text =>
        -- a later entry of this name comes first, and its address can be read too
        obtain ⟨f, member, -, rfl⟩ := Manifest.mem_of_lastOf last
        obtain ⟨later, readLater⟩ :=
          Option.isSome_iff_exists.mp (written f (List.mem_cons_of_mem _ member))
        simp [readLater]

theorem find?_addAccount (accounts : List Account) (account : Account) (name : String) :
    (addAccount accounts account).find? (fun a => sameWord a.name name) =
      if sameWord account.name name = true then some account
      else accounts.find? fun a => sameWord a.name name := by
  rw [addAccount, List.find?_append, List.find?_filter, List.find?_singleton]
  split
  · rename_i same
    rw [List.find?_eq_none.mpr]
    · rfl
    · intro a _
      rw [decide_eq_true_iff]
      rintro ⟨apart, isName⟩
      rw [sameWord_comm] at same
      rw [sameWord_trans isName same] at apart
      cases apart
  · rename_i other
    rw [Option.or_none]
    congr 1
    funext a
    cases isName : sameWord a.name name with
    | false => simp
    | true =>
      have apart : sameWord a.name account.name ≠ true := by
        intro same
        rw [sameWord_comm] at same
        exact other (sameWord_trans same isName)
      simp [apart]

/-- What a name stands for does not depend on the case of its letters. -/
theorem namedAddress?_congr (w : World) {name other : String} (same : sameWord name other = true) :
    w.namedAddress? name = w.namedAddress? other := by
  have folded : foldCase name = foldCase other := sameWord_iff.mp same
  have sameAs : ∀ text, sameWord text name = sameWord text other := by
    intro text
    rw [sameWord, sameWord, folded]
  simp only [namedAddress?, account?, Settings.alias?, sameAs, folded]

/-- What a name stands for in the world that a manifest sets up. -/
theorem ofManifest_names {m : Manifest} (checked : m.Checked) (runId : String) :
    ∃ w, ofManifest runId m = .ok w ∧ ∀ name, w.namedAddress? name =
      (((Manifest.lastOf m.accounts.toList name).bind Address.ofString?).or
        (Account.default? name)).or
        ((Manifest.lastOf m.aliases.toList name).bind Address.ofString?) := by
  obtain ⟨accounts, declared, account⟩ := foldlM_put
    (fun accounts name => (accounts.find? fun a => sameWord a.name name).map (·.address))
    (fun accounts name address => addAccount accounts ⟨name, address⟩) "accounts"
    (by
      intro accounts name address other
      rw [find?_addAccount]
      split <;> rfl)
    checked.accounts (Account.defaultNames.map Account.wellKnown)
  obtain ⟨settings, added, named⟩ := foldlM_put Settings.alias? Settings.setAlias "aliases"
    (by
      intro s name address other
      rw [Settings.alias?, Settings.setAlias, Store.get?_insert]
      simp only [sameWord_iff]
      split <;> rfl)
    checked.aliases { network := m.network, dryRun := m.dryRun, defaultFrom := m.defaultFrom }
  refine ⟨{ runId, accounts, settings }, ?_, ?_⟩
  · exact except_bind_eq_ok.mpr ⟨accounts, declared, except_bind_eq_ok.mpr ⟨settings, added, rfl⟩⟩
  · intro name
    rw [namedAddress?, account?, account, named]
    exact congrArg _ (Option.or_none)

/-- Every declared name stands for the address that was written for it. -/
def Honours (w : World) (m : Manifest) : Prop :=
  ∀ e ∈ m.accounts.toList ++ m.aliases.toList,
    ∃ address, Address.ofString? e.2 = some address ∧ w.namedAddress? e.1 = some address

theorem Honours.unshadowed {w : World} {m : Manifest} (h : w.Honours m)
    (defaults : ∀ e ∈ m.aliases.toList, ∀ address, Account.default? e.1 = some address →
      w.namedAddress? e.1 = some address) : m.Unshadowed := by
  have written : ∀ e ∈ m.accounts.toList ++ m.aliases.toList,
      Address.ofString? e.2 = w.namedAddress? e.1 := by
    intro e member
    obtain ⟨address, read, stands⟩ := h e member
    rw [read, stands]
  have account : ∀ e ∈ m.accounts.toList, Address.ofString? e.2 = w.namedAddress? e.1 :=
    fun e member => written e (List.mem_append_left _ member)
  have named : ∀ e ∈ m.aliases.toList, Address.ofString? e.2 = w.namedAddress? e.1 :=
    fun e member => written e (List.mem_append_right _ member)
  constructor
  · intro e member f other same
    rw [account e member, account f other, w.namedAddress?_congr same]
  · intro e member f other same
    rw [named e member, named f other, w.namedAddress?_congr same]
  · intro e member name known same
    rw [named e member, defaults e member _ (Account.default?_of_mem known same)]

/-- In the world that an accepted manifest sets up, every declared name stands for what was written
    for it exactly if no other name is in its way. -/
theorem honours_iff_unshadowed {text : String} {m : Manifest}
    (accepted : Manifest.parse text = .ok m) (runId : String) :
    ∃ w, ofManifest runId m = .ok w ∧ (w.Honours m ↔ m.Unshadowed) := by
  have checked := Manifest.checked_of_parse accepted
  obtain ⟨w, made, names⟩ := ofManifest_names checked runId
  have aliasOnly : ∀ e ∈ m.aliases.toList, w.namedAddress? e.1 = (Account.default? e.1).or
      ((Manifest.lastOf m.aliases.toList e.1).bind Address.ofString?) := by
    intro e member
    rw [names, Manifest.lastOf_eq_none.mpr (checked.apart e member)]
    rfl
  refine ⟨w, made, ?_, ?_⟩
  · intro honours
    refine honours.unshadowed fun e member address known => ?_
    rw [aliasOnly e member, known]
    rfl
  · intro unshadowed e member
    rcases List.mem_append.mp member with member | member
    · obtain ⟨address, read⟩ := Option.isSome_iff_exists.mp (checked.accounts e member)
      obtain ⟨f, declared, same, last⟩ := Manifest.lastOf_of_mem member
      refine ⟨address, read, ?_⟩
      rw [names, last, Option.bind_some, unshadowed.accounts f declared e member same, read]
      rfl
    · obtain ⟨address, read⟩ := Option.isSome_iff_exists.mp (checked.aliases e member)
      obtain ⟨f, declared, same, last⟩ := Manifest.lastOf_of_mem member
      refine ⟨address, read, ?_⟩
      rw [aliasOnly e member, last, Option.bind_some,
        unshadowed.aliases f declared e member same, read]
      cases known : Account.default? e.1 with
      | none => rfl
      | some other =>
        obtain ⟨name, isDefault, same, rfl⟩ := Account.default?_eq_some known
        rw [← unshadowed.defaults e member name isDefault same, read]
        rfl

section Texts

/-- A manifest with an account that takes the place of one that every world has, and an alias. -/
def geoffAndOracle : String :=
  "[accounts]\ngeoff = \"0x00000000000000000000000000000000000000a1\"\n\n" ++
  "[aliases]\nOracle = \"0x00000000000000000000000000000000000000b2\"\n"

/-- Both names stand for what was written for them. -/
theorem geoffAndOracle_honoured :
    ∃ m w, Manifest.parse geoffAndOracle = .ok m ∧ ofManifest "" m = .ok w ∧
      (m.accounts.toList ++ m.aliases.toList).map (·.1) = ["geoff", "Oracle"] ∧ w.Honours m := by
  have evaluated : (match Manifest.parse geoffAndOracle with
      | .ok m => some (m.accounts.toList, m.aliases.toList)
      | _ => none) =
      some ([("geoff", "0x00000000000000000000000000000000000000a1")],
        [("Oracle", "0x00000000000000000000000000000000000000b2")]) := by
    decide +kernel
  split at evaluated
  · rename_i m accepted
    obtain ⟨accounts, aliases⟩ := Prod.mk.inj (Option.some.inj evaluated)
    have unshadowed : m.Unshadowed := by
      constructor
      · rw [accounts]
        decide +kernel
      · rw [aliases]
        decide +kernel
      · rw [aliases]
        decide +kernel
    obtain ⟨w, made, honours⟩ := honours_iff_unshadowed accepted ""
    refine ⟨m, w, accepted, made, ?_, honours.mpr unshadowed⟩
    rw [accounts, aliases]
    rfl
  · cases evaluated

/-- A manifest with an alias of a name that is also that of an account of every world. -/
def geoffAlias : String := "[aliases]\nGeoff = \"0x00000000000000000000000000000000000000b2\"\n"

/-- The manifest is accepted, and its alias stands for the account. -/
theorem geoffAlias_shadowed :
    ∃ m w, Manifest.parse geoffAlias = .ok m ∧ ofManifest "" m = .ok w ∧
      w.namedAddress? "Geoff" = some (Account.wellKnown "Geoff").address ∧ ¬ w.Honours m := by
  have evaluated : (match Manifest.parse geoffAlias with
      | .ok m =>
        match ofManifest "" m with
        | .ok w => some (m.aliases.toList, w.namedAddress? "Geoff")
        | _ => none
      | _ => none) =
      some ([("Geoff", "0x00000000000000000000000000000000000000b2")],
        some (Account.wellKnown "Geoff").address) := by
    decide +kernel
  have other : Address.ofString? "0x00000000000000000000000000000000000000b2" ≠
      some (Account.wellKnown "Geoff").address := by
    decide +kernel
  split at evaluated
  · rename_i m accepted
    split at evaluated
    · rename_i w made
      obtain ⟨aliases, stands⟩ := Prod.mk.inj (Option.some.inj evaluated)
      refine ⟨m, w, accepted, made, stands, fun honours => ?_⟩
      obtain ⟨address, read, named⟩ := honours ("Geoff", _)
        (List.mem_append_right _ (aliases ▸ List.mem_singleton_self _))
      rw [stands] at named
      exact other (read.trans named.symm)
    · cases evaluated
  · cases evaluated

end Texts

end World

end MarketScript
