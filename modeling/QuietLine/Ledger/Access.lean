/-
Reading a state after writing to it.

An account that has never been used reads as the empty account of its owner
(`accountAt`), so an account is a total function of the key and creating one
changes nothing that can be read.  The lemmas say what one write does to each
reading and to each sum over the accounts or the mandates.
-/
import QuietLine.Ledger.Engine
import QuietLine.Library.MapSum

namespace QuietLine

open Std MapSum

/-- The account filed under `key`, empty if there is none. -/
def State.accountAt (s : State) (key : String) : Account :=
  (s.accounts[key]?).getD { owner := key }

theorem account_eq (s : State) (owner : String) : s.account owner = s.accountAt (toLower owner) :=
  rfl

theorem accountAt_of_some {s : State} {key : String} {a : Account}
    (h : s.accounts[key]? = some a) : s.accountAt key = a := by
  simp [State.accountAt, h]

theorem accountAt_of_none {s : State} {key : String} (h : s.accounts[key]? = none) :
    s.accountAt key = { owner := key } := by
  simp [State.accountAt, h]

theorem accountAt_congr {s s' : State} (h : s'.accounts = s.accounts) (key : String) :
    s'.accountAt key = s.accountAt key := by
  rw [State.accountAt, State.accountAt, h]

/-! ### After a write -/

section Writes

variable (s : State) (owner id : String) (a : Account) (m : Mandate) (l : Loan)

@[simp] theorem putAccount_mandates : (s.putAccount owner a).mandates = s.mandates := rfl
@[simp] theorem putAccount_loans : (s.putAccount owner a).loans = s.loans := rfl
@[simp] theorem putAccount_processed : (s.putAccount owner a).processed = s.processed := rfl
@[simp] theorem putAccount_activeDebt : (s.putAccount owner a).activeDebt = s.activeDebt := rfl
@[simp] theorem putAccount_price : (s.putAccount owner a).price = s.price := rfl
@[simp] theorem putAccount_protocolReserve :
    (s.putAccount owner a).protocolReserve = s.protocolReserve := rfl
@[simp] theorem putAccount_backstopUSDT0 :
    (s.putAccount owner a).backstopUSDT0 = s.backstopUSDT0 := rfl
@[simp] theorem putAccount_backstopFXRP :
    (s.putAccount owner a).backstopFXRP = s.backstopFXRP := rfl

@[simp] theorem putMandate_accounts : (s.putMandate id m).accounts = s.accounts := rfl
@[simp] theorem putMandate_loans : (s.putMandate id m).loans = s.loans := rfl
@[simp] theorem putMandate_processed : (s.putMandate id m).processed = s.processed := rfl
@[simp] theorem putMandate_activeDebt : (s.putMandate id m).activeDebt = s.activeDebt := rfl
@[simp] theorem putMandate_price : (s.putMandate id m).price = s.price := rfl
@[simp] theorem putMandate_protocolReserve :
    (s.putMandate id m).protocolReserve = s.protocolReserve := rfl
@[simp] theorem putMandate_backstopUSDT0 :
    (s.putMandate id m).backstopUSDT0 = s.backstopUSDT0 := rfl
@[simp] theorem putMandate_backstopFXRP :
    (s.putMandate id m).backstopFXRP = s.backstopFXRP := rfl

@[simp] theorem putLoan_accounts : (s.putLoan id l).accounts = s.accounts := rfl
@[simp] theorem putLoan_mandates : (s.putLoan id l).mandates = s.mandates := rfl
@[simp] theorem putLoan_processed : (s.putLoan id l).processed = s.processed := rfl
@[simp] theorem putLoan_activeDebt : (s.putLoan id l).activeDebt = s.activeDebt := rfl
@[simp] theorem putLoan_price : (s.putLoan id l).price = s.price := rfl
@[simp] theorem putLoan_protocolReserve :
    (s.putLoan id l).protocolReserve = s.protocolReserve := rfl
@[simp] theorem putLoan_backstopUSDT0 : (s.putLoan id l).backstopUSDT0 = s.backstopUSDT0 := rfl
@[simp] theorem putLoan_backstopFXRP : (s.putLoan id l).backstopFXRP = s.backstopFXRP := rfl

@[simp] theorem markProcessed_accounts : (s.markProcessed id).accounts = s.accounts := rfl
@[simp] theorem markProcessed_mandates : (s.markProcessed id).mandates = s.mandates := rfl
@[simp] theorem markProcessed_loans : (s.markProcessed id).loans = s.loans := rfl
@[simp] theorem markProcessed_activeDebt : (s.markProcessed id).activeDebt = s.activeDebt := rfl
@[simp] theorem markProcessed_price : (s.markProcessed id).price = s.price := rfl
@[simp] theorem markProcessed_protocolReserve :
    (s.markProcessed id).protocolReserve = s.protocolReserve := rfl
@[simp] theorem markProcessed_backstopUSDT0 :
    (s.markProcessed id).backstopUSDT0 = s.backstopUSDT0 := rfl
@[simp] theorem markProcessed_backstopFXRP :
    (s.markProcessed id).backstopFXRP = s.backstopFXRP := rfl

theorem mem_processed_markProcessed {id' : String} :
    id' ∈ (s.markProcessed id).processed ↔ id' = id ∨ id' ∈ s.processed := by
  rw [State.markProcessed, ExtTreeSet.mem_insert, Std.compare_eq_iff_eq]
  exact or_congr_left eq_comm

theorem putAccount_accounts_get (key : String) :
    (s.putAccount owner a).accounts[key]? =
      if toLower owner = key then some a else s.accounts[key]? :=
  getElem?_insert_eq _ _ _ _

theorem putMandate_get (key : String) :
    (s.putMandate id m).mandates[key]? = if id = key then some m else s.mandates[key]? :=
  getElem?_insert_eq _ _ _ _

theorem putLoan_get (key : String) :
    (s.putLoan id l).loans[key]? = if id = key then some l else s.loans[key]? :=
  getElem?_insert_eq _ _ _ _

theorem accountAt_putAccount (key : String) :
    (s.putAccount owner a).accountAt key =
      if toLower owner = key then a else s.accountAt key := by
  unfold State.accountAt
  rw [putAccount_accounts_get]
  by_cases h : toLower owner = key
  · rw [if_pos h, if_pos h]; rfl
  · rw [if_neg h, if_neg h]

@[simp] theorem accountAt_putMandate (key : String) :
    (s.putMandate id m).accountAt key = s.accountAt key := rfl

@[simp] theorem accountAt_putLoan (key : String) :
    (s.putLoan id l).accountAt key = s.accountAt key := rfl

@[simp] theorem accountAt_markProcessed (key : String) :
    (s.markProcessed id).accountAt key = s.accountAt key := rfl

end Writes

/-! ### Sums over accounts and mandates -/

/-- The sum of `f` over the accounts. -/
def State.totalAccounts (s : State) (f : Account → Nat) : Nat := total s.accounts fun _ a => f a

/-- The sum of `f` over the mandates. -/
def State.totalMandates (s : State) (f : Mandate → Nat) : Nat := total s.mandates fun _ m => f m

/-- The sum of `f` over the loans that are neither closed nor liquidated. -/
def State.totalOpen (s : State) (f : Loan → Nat) : Nat :=
  total s.loans fun _ l => if l.isOpen then f l else 0

/-- Writing an account trades its part of a sum, provided that an empty account counts for
nothing. -/
theorem totalAccounts_putAccount {f : Account → Nat} (hf : ∀ o, f { owner := o } = 0) (s : State)
    (owner : String) (a : Account) :
    (s.putAccount owner a).totalAccounts f + f (s.account owner) = s.totalAccounts f + f a := by
  cases h : s.accounts[toLower owner]? with
  | none =>
      rw [account_eq, accountAt_of_none h, hf, Nat.add_zero]
      exact total_insert_none h
  | some b =>
      rw [account_eq, accountAt_of_some h]
      exact total_insert_some (f := fun _ a => f a) h

theorem le_totalAccounts {f : Account → Nat} (hf : ∀ o, f { owner := o } = 0) (s : State)
    (key : String) : f (s.accountAt key) ≤ s.totalAccounts f := by
  cases h : s.accounts[key]? with
  | none => rw [accountAt_of_none h, hf]; exact Nat.zero_le _
  | some a => rw [accountAt_of_some h]; exact le_total (f := fun _ a => f a) h

theorem totalMandates_putMandate_some {f : Mandate → Nat} {s : State} {id : String}
    {m : Mandate} (m' : Mandate) (h : s.mandates[id]? = some m) :
    (s.putMandate id m').totalMandates f + f m = s.totalMandates f + f m' :=
  total_insert_some (f := fun _ m => f m) h

theorem le_totalMandates {f : Mandate → Nat} {s : State} {id : String} {m : Mandate}
    (h : s.mandates[id]? = some m) : f m ≤ s.totalMandates f :=
  le_total (f := fun _ m => f m) h

/-- Opening a loan under a fresh id adds its part. -/
theorem totalOpen_putLoan_new {f : Loan → Nat} {s : State} {id : String} {l : Loan}
    (h : s.loans[id]? = none) (hopen : l.isOpen = true) :
    (s.putLoan id l).totalOpen f = s.totalOpen f + f l := by
  have := total_insert_none (v := l) (f := fun _ l => if l.isOpen then f l else 0) h
  simpa [State.totalOpen, State.putLoan, hopen] using this

/-- Closing an open loan takes its part away. -/
theorem totalOpen_putLoan_close {f : Loan → Nat} {s : State} {id : String} {l l' : Loan}
    (h : s.loans[id]? = some l) (hopen : l.isOpen = true) (hclosed : l'.isOpen = false) :
    (s.putLoan id l').totalOpen f + f l = s.totalOpen f := by
  have := total_insert_some (v := l') (f := fun _ l => if l.isOpen then f l else 0) h
  simpa [State.totalOpen, State.putLoan, hopen, hclosed] using this

/-- Updating an open loan that stays open trades its part. -/
theorem totalOpen_putLoan_keep {f : Loan → Nat} {s : State} {id : String} {l l' : Loan}
    (h : s.loans[id]? = some l) (hopen : l.isOpen = true) (hopen' : l'.isOpen = true) :
    (s.putLoan id l').totalOpen f + f l = s.totalOpen f + f l' := by
  have := total_insert_some (v := l') (f := fun _ l => if l.isOpen then f l else 0) h
  simpa [State.totalOpen, State.putLoan, hopen, hopen'] using this

theorem le_totalOpen {f : Loan → Nat} {s : State} {id : String} {l : Loan}
    (h : s.loans[id]? = some l) (hopen : l.isOpen = true) : f l ≤ s.totalOpen f := by
  have := le_total (f := fun _ l => if l.isOpen then f l else 0) h
  simpa [State.totalOpen, State.putLoan, hopen] using this

end QuietLine
