import Wurzburg.TigerBeetle.Batching

/-!
# Wurzburg.Api.Figures

The figures the handlers report from the ledger. Each is read off the list a
single-account lookup returned, with `.first()` and a default for the empty
list, so what a caller is told depends on whose account comes first in it.
-/

namespace Wurzburg.Api

open Wurzburg.Tb

/-- `current_balance` of `credit_user` and `debit_user`. -/
def currentBalance (tbAccounts : List AppAccount) : Int :=
  ((tbAccounts.head?).map
    (fun acc => subI64 (asI64 acc.creditsPosted) (asI64 acc.debitsPosted))).getD 0

/-- `(credit, debit)` of `provider::get`. -/
def providerFigures (tbAccounts : List AppAccount) : Int × Int :=
  ((tbAccounts.head?).map (fun acc => (asI64 acc.creditsPosted, asI64 acc.debitsPosted))).getD (0, 0)

/-- `(credit, debit)` of `user::get`. -/
def userFigures (tbAccounts : List AppAccount) : Nat × Nat :=
  ((tbAccounts.head?).map (fun acc => (acc.creditsPosted, acc.debitsPosted))).getD (0, 0)

/-- The figures taken from a list are those of one account, or the defaults
where there is none. -/
structure FiguresOf (own : Option AppAccount) (rs : List AppAccount) : Prop where
  balance : currentBalance rs = currentBalance own.toList
  provider : providerFigures rs = providerFigures own.toList
  user : userFigures rs = userFigures own.toList

theorem figuresOf_first {own : Option AppAccount} {rs : List AppAccount}
    (h : rs.head? = own) : FiguresOf own rs := by
  have htoList : own.toList.head? = rs.head? := by
    rw [h]
    cases own <;> rfl
  exact ⟨by simp only [currentBalance, htoList], by simp only [providerFigures, htoList],
    by simp only [userFigures, htoList]⟩

/-- Every figure a handler reads off an answered account lookup is that of the
account it named, as the ledger stood when its batch was served. -/
def OwnFigures (w : Worker) : Prop :=
  ∀ id r rs, ⟨.lookupAccount id, r⟩ ∈ w.received → (r, .accounts (.ok rs)) ∈ w.replies →
    ∃ s ∈ w.lookupAccLog, ∃ i : Nat, s.items[i]? = some id ∧ s.responders[i]? = some r ∧
      FiguresOf (s.before.appAccount? id) rs

theorem ownFigures_of_lookups {w : Worker} (h : w.OwnAccountLookups) : OwnFigures w := by
  intro id r rs hc hr
  obtain ⟨s, hs, i, hi, hresponder, hone⟩ := h id r rs hc hr
  exact ⟨s, hs, i, hi, hresponder, figuresOf_first hone.first⟩

/-- **Lookups.** Over every sequence of commands, each with its own response
channel, and ticks: every answered single lookup returned at most one object,
the one it named, and so the handlers' figures are those of the account they
asked for, exactly when every batch of lookups that was answered `Ok` held one
id or only ids the ledger did not hold. -/
theorem lookups_answered_own_iff (tb : TigerBeetle) (n : Nat) (l : Ledger)
    (es : List WorkerEvent)
    (hd : ((es.filterMap WorkerEvent.command?).map TbCommand.responder).Nodup) :
    (((Worker.start l).run tb n es).OwnAccountLookups ∧
      ((Worker.start l).run tb n es).OwnTransferLookups ∧
      OwnFigures ((Worker.start l).run tb n es)) ↔
    (∀ s ∈ ((Worker.start l).run tb n es).lookupAccLog, s.outcome = .ok →
      s.items.length ≤ 1 ∨ ∀ id ∈ s.items, s.before.account? id = none) ∧
    (∀ s ∈ ((Worker.start l).run tb n es).lookupTxLog, s.outcome = .ok →
      s.items.length ≤ 1 ∨ ∀ id ∈ s.items, s.before.transfer? id = none) := by
  have hh : Worker.History ((Worker.start l).run tb n es) := (Worker.History.start l).run es
  have ha : Worker.Answers tb ((Worker.start l).run tb n es) := (Worker.Answers.start l).run es
  have hdr : ((Worker.start l).run tb n es).Distinct := Worker.distinct_run hd
  rw [← Worker.ownAccountLookups_iff hh ha hdr, ← Worker.ownTransferLookups_iff hh ha hdr]
  constructor
  · exact fun h => ⟨h.1, h.2.1⟩
  · exact fun h => ⟨h.1, h.2, ownFigures_of_lookups h.1⟩

/-- Two users of a provider: user account 2 holds 70, user account 3 holds 5. -/
def twoUsers : Ledger :=
  ⟨[⟨2, 0, 0, 0, 70, 0, 0, 0, 1, 200, 2, 0⟩, ⟨3, 0, 0, 0, 5, 0, 0, 0, 1, 200, 2, 0⟩], []⟩

/-- Two balance lookups within one tick. -/
def sharedLookup : List WorkerEvent :=
  [.command ⟨.lookupAccount 2, 0⟩ .ok, .command ⟨.lookupAccount 3, 1⟩ .ok, .tick .allOk]

theorem lookups_answered_own_sharedLookup :
    (((Worker.start twoUsers).run .reference 8 sharedLookup).OwnAccountLookups ∧
      ((Worker.start twoUsers).run .reference 8 sharedLookup).OwnTransferLookups ∧
      OwnFigures ((Worker.start twoUsers).run .reference 8 sharedLookup)) ↔
    (∀ s ∈ ((Worker.start twoUsers).run .reference 8 sharedLookup).lookupAccLog,
      s.outcome = .ok → s.items.length ≤ 1 ∨ ∀ id ∈ s.items, s.before.account? id = none) ∧
    (∀ s ∈ ((Worker.start twoUsers).run .reference 8 sharedLookup).lookupTxLog,
      s.outcome = .ok → s.items.length ≤ 1 ∨ ∀ id ∈ s.items, s.before.transfer? id = none) :=
  lookups_answered_own_iff .reference 8 twoUsers sharedLookup (by decide)

/-- The second lookup is answered with both accounts, the other user's first:
the balance reported for account 3 is the 70 of account 2. -/
theorem sharedLookup_leaks_balance :
    ¬ OwnFigures ((Worker.start twoUsers).run .reference 8 sharedLookup) := by
  intro h
  obtain ⟨s, hs, -, -, -, hfig⟩ := h 3 1
    [fromTbAccount ⟨2, 0, 0, 0, 70, 0, 0, 0, 1, 200, 2, 0⟩,
     fromTbAccount ⟨3, 0, 0, 0, 5, 0, 0, 0, 1, 200, 2, 0⟩] (by decide) (by decide)
  have hlog : ((Worker.start twoUsers).run .reference 8 sharedLookup).lookupAccLog =
      [⟨[2, 3], [0, 1], twoUsers, .ok⟩] := rfl
  rw [hlog, List.mem_singleton] at hs
  subst hs
  exact absurd hfig.user (by decide)

end Wurzburg.Api
