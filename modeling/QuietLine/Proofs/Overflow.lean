/-
When the unchecked additions fit.

`Deposit` compares the amount with what the account has available, and nothing else.  What the
account moved to its mandates in the meantime is not counted, so a second deposit can bring an
account to hold more than a `uint64`, and the next move of it wraps.  Where every account, and the
backstop together with all reserved FXRP, stays below that, no addition of the ledger wraps,
whatever the calls and their amounts.
-/
import QuietLine.Proofs.Solvency

namespace QuietLine

open Outcome

/-- What is asked of a call for the books to stay exact. -/
structure Roomy (s : State) (e : Event) : Prop where
  fresh : FreshLoanID s e
  room : s.Room

/-- One call that has room keeps the books, and computes what exact arithmetic computes. -/
theorem backed_step_of_room {host : Host} (s : State) (e : Event) (s' : State) (h : Backed s)
    (hroomy : Roomy s e) (hstep : step .wrapping host s e = .ok s') : Backed s' := by
  cases e with
  | operate ctx stored op =>
      obtain ⟨_, _, next, hbody, rfl⟩ := Operation.apply_ok hstep
      rw [← h.body_eq hroomy.room] at hbody
      obtain ⟨hbacked, _⟩ := body_books h hroomy.fresh hbody
      exact hbacked.of_parts rfl rfl rfl rfl
  | confirm sequence root stored =>
      obtain rfl := confirmAnchor_ok hstep
      exact h.of_parts rfl rfl rfl rfl

theorem backed_ledgerAfter_of_room (host : Host) (events : List Event)
    (h : Machine.Meets (step .wrapping host) Roomy newState events) :
    Backed (ledgerAfter .wrapping host events) :=
  Machine.invariant_of_meets backed_step_of_room sound_newState.toBacked events h

theorem Backed.step_eq {host : Host} {s : State} (h : Backed s) (hroom : s.Room) (e : Event) :
    step .trapping host s e = step .wrapping host s e := by
  cases e with
  | operate ctx stored op =>
      show op.apply .trapping host ctx stored s = op.apply .wrapping host ctx stored s
      unfold Operation.apply mutate
      rw [h.body_eq hroom]
  | confirm sequence root stored => rfl

/-- **Where there is room, no addition wraps**, in no state of the run and for no call. -/
theorem additions_fit (host : Host) (events : List Event)
    (hfresh : Machine.Meets (step .wrapping host) FreshLoanID newState events)
    (hroom : ∀ before, before <+: events → (ledgerAfter .wrapping host before).Room)
    (before : List Event) (e : Event) (hbefore : before ++ [e] <+: events) :
    step .trapping host (ledgerAfter .wrapping host before) e =
      step .wrapping host (ledgerAfter .wrapping host before) e := by
  have hlonger := (List.prefix_append before [e]).trans hbefore
  obtain ⟨rest, hrest⟩ := hlonger
  rw [← hrest] at hfresh
  have hroomy : Machine.Meets (step .wrapping host) Roomy newState before := by
    intro c hc
    refine ⟨(Machine.meets_append.mp hfresh).1 c hc, ?_⟩
    obtain ⟨first, after, _, rfl, hstate, _⟩ := Machine.exists_prefix_of_mem_commits hc
    rw [hstate]
    exact hroom first ⟨_, by rw [← hrest, List.append_assoc]⟩
  exact (backed_ledgerAfter_of_room host before hroomy).step_eq
    (hroom before ((List.prefix_append before [e]).trans hbefore)) e

/-- The calls of `lending`, and its last one. -/
theorem additions_fit_lending :
    step .trapping sampleHost (ledgerAfter .wrapping sampleHost
        (settledCalls .wrapping sampleHost newState lending)) (sampleCall repayment) =
      step .wrapping sampleHost (ledgerAfter .wrapping sampleHost
        (settledCalls .wrapping sampleHost newState lending)) (sampleCall repayment) := by
  have hguard : Guarded (ledgerAfter .wrapping sampleHost
      (settledCalls .wrapping sampleHost newState lending)) (sampleCall repayment) :=
    ⟨nofun, trivial⟩
  have hmeets := Machine.meets_append.mpr ⟨lending_guarded, Machine.meets_single hguard⟩
  refine additions_fit sampleHost _ (hmeets.mono fun _ _ h => h.fresh) ?_ _ _ (List.prefix_refl _)
  rintro before ⟨rest, hrest⟩
  rw [← hrest] at hmeets
  exact (sound_ledgerAfter sampleHost before (Machine.meets_append.mp hmeets).1).room

/-! ### Without room -/

/-- An account that holds more than a `uint64` of USDT0 wraps its reserved balance with the first
mandate it makes of all it has available. -/
theorem setMandate_wraps {ctx : Context} {s : State} {owner id : String} {minAPR : UInt32}
    {termMask : UInt8} {cap : UInt64} (hid : s.mandates[id]? = none)
    (hfull : 2 ^ 64 ≤ (s.account owner).usdt0Held) :
    setMandate .trapping ctx owner id (s.account owner).balances.usdt0.available minAPR termMask cap
      (s.account owner).nonce s = .error .wraparound := by
  unfold Account.usdt0Held at hfull
  unfold setMandate
  rw [rejectIf_of_not (by simp [hid]), ok_bind, consumeNonce_eq_ok.mpr ⟨rfl, rfl⟩, ok_bind]
  dsimp only
  rw [rejectIf_of_not (by simp), ok_bind]
  simp only [Arith.sub, Arith.add, UInt64.le_refl, if_true, ok_bind]
  rw [if_neg (by omega), error_bind]

/-- All that fits a `uint64`, twice: the first deposit is in a mandate when the second comes. -/
def refilled : List Operation := [
  .deposit "0xc" "USDT0" 0xFFFFFFFFFFFFFFFF "d1",
  .setMandate "0xc" "m" 0xFFFFFFFFFFFFFFFF 800 7 1 0,
  .deposit "0xc" "USDT0" 0xFFFFFFFFFFFFFFFF "d2"]

/-- The second deposit is accepted, and the mandate made of it wraps what is reserved. -/
theorem refilled_wraps : ∃ s',
    Machine.Meets (step .wrapping sampleHost) FreshLoanID newState
      (settledCalls .wrapping sampleHost newState refilled) ∧
    step .trapping sampleHost (ledgerAfter .wrapping sampleHost
        (settledCalls .wrapping sampleHost newState refilled))
      (sampleCall (.setMandate "0xc" "m2" 0xFFFFFFFFFFFFFFFF 800 7 1 1)) = .error .wraparound ∧
    step .wrapping sampleHost (ledgerAfter .wrapping sampleHost
        (settledCalls .wrapping sampleHost newState refilled))
      (sampleCall (.setMandate "0xc" "m2" 0xFFFFFFFFFFFFFFFF 800 7 1 1)) = .ok s' ∧
    (s'.account "0xc").balances.usdt0.reserved = 0xFFFFFFFFFFFFFFFE := by
  have hfresh : Machine.Meets (step .wrapping sampleHost) FreshLoanID newState
      (settledCalls .wrapping sampleHost newState refilled) := by
    refine meets_settledCalls (fun _ _ _ _ => nofun) ?_
    decide +kernel
  have htraps : (step .trapping sampleHost (settledState .wrapping sampleHost newState refilled)
      (sampleCall (.setMandate "0xc" "m2" 0xFFFFFFFFFFFFFFFF 800 7 1 1))).map (fun _ => ()) =
        .error .wraparound := by
    decide +kernel
  have hwraps : (step .wrapping sampleHost (settledState .wrapping sampleHost newState refilled)
      (sampleCall (.setMandate "0xc" "m2" 0xFFFFFFFFFFFFFFFF 800 7 1 1))).map
        (fun s' => (s'.account "0xc").balances.usdt0.reserved) = .ok 0xFFFFFFFFFFFFFFFE := by
    decide +kernel
  unfold ledgerAfter
  rw [run_settledCalls]
  cases hwrapping : step .wrapping sampleHost (settledState .wrapping sampleHost newState refilled)
      (sampleCall (.setMandate "0xc" "m2" 0xFFFFFFFFFFFFFFFF 800 7 1 1)) with
  | error e =>
      rw [hwrapping] at hwraps
      cases hwraps
  | ok s' =>
      rw [hwrapping] at hwraps
      refine ⟨s', hfresh, ?_, rfl, Except.ok.inj hwraps⟩
      cases htrapping : step .trapping sampleHost
          (settledState .wrapping sampleHost newState refilled)
          (sampleCall (.setMandate "0xc" "m2" 0xFFFFFFFFFFFFFFFF 800 7 1 1)) with
      | error e =>
          rw [htrapping] at htraps
          rw [Except.error.inj htraps]
      | ok s'' =>
          rw [htrapping] at htraps
          cases htraps

end QuietLine
