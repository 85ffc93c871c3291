/-
What the caches' code asks, and what the handlers make of it.

A lookup writes to a cache only what it has just read, under the stamp that its program
says; what it ends with is in its trace.  A handler withdraws only what a lookup said
the vault has, and quotes only at a price that one found.
-/
import QuietLine.Proofs.Provenance
import QuietLine.System.Cached

namespace QuietLine

open Process Process.Fallible

/-! ### Lookups -/

/-- What a lookup may write: a balance under a stamp from before it was read, a price under one from
after. -/
def Stamped (t : CacheTrace) : CacheRequest → Prop
  | .setLiquidity token balance readAt => ∃ later earlier,
      t = later ++ ⟨.callBalance token, some balance.toNat⟩ :: earlier ∧
        (⟨.clock, readAt⟩ : CacheExchange) ∈ earlier
  | .setPrice price readAt => ∃ read earlier, price = observedPrice read.1 read.2 ∧
      t = ⟨.clock, readAt⟩ :: ⟨.callPrice, some read⟩ :: earlier
  | _ => True

/-- How a lookup came by the price it found: from the cache while that was fresh, or by a read of
its own. -/
inductive FoundPrice (price : Price) : CacheTrace → Prop
  | cached {cache : PriceCache} {now : Int} (same : price = cache.price)
      (primed : cache.primed = true) (fresh : now - cache.readAt ≤ priceCacheMaxAge) :
      FoundPrice price [⟨.clock, now⟩, ⟨.getPrice, cache⟩]
  | live {read : UInt64 × UInt64} {now : Int} {earlier : CacheTrace}
      (same : price = observedPrice read.1 read.2) :
      FoundPrice price (⟨.setPrice price now, ()⟩ :: ⟨.clock, now⟩ :: ⟨.callPrice, some read⟩ ::
        earlier)

/-- What a task ends with, and how it came by it. -/
inductive EndsWith : Task → CacheTrace → Found → Prop
  | nothing {task : Task} {t : CacheTrace} (h : ∀ answer, task.resumes answer .nothing = none) :
      EndsWith task t .nothing
  | priceless {pid : Nat} {t : CacheTrace} : EndsWith (.currentXrpUsdPrice pid) t (.price none)
  | price {pid : Nat} {t : CacheTrace} {price : Price} (found : FoundPrice price t) :
      EndsWith (.currentXrpUsdPrice pid) t (.price (some price))
  | unknown {pid : Nat} {token : Address} {t : CacheTrace} :
      EndsWith (.vaultLiquidity pid token) t (.balance none)
  | balance {pid : Nat} {token : Address} {value : VaultLiquidityValue} {now : Int}
      (fresh : now - value.readAt ≤ liquidityCacheMaxAge) :
      EndsWith (.vaultLiquidity pid token)
        [⟨.clock, now⟩, ⟨.getLiquidity token, some value⟩] (.balance (some value.balance))

/-- The lookup writes only what is stamped, and ends as `ok` and `fail` say. -/
abbrev Looks {α : Type} (t : CacheTrace) (x : Lookup α) (ok : CacheTrace → α → Prop)
    (fail : CacheTrace → CacheError → Prop) : Prop :=
  Fallible.Obeys Stamped ok fail t x

section Lookups

variable {t : CacheTrace} {now : Int}

theorem readXrpUsdPrice_looks : Looks t readXrpUsdPrice
    (fun t' price => ∃ read, t' = ⟨.callPrice, some read⟩ :: t ∧
      price = observedPrice read.1 read.2)
    fun _ _ => True := by
  refine Fallible.Obeys.ask trivial fun output => ?_
  refine Fallible.Obeys.ofExcept (fun _ _ => trivial) fun read hread => ?_
  obtain rfl := Outcome.orElse_eq_ok.mp hread
  exact Fallible.Obeys.pure ⟨read, rfl, rfl⟩

theorem readThrough_looks : Looks t readThrough (fun t' price => FoundPrice price t')
    fun _ _ => True := by
  refine Fallible.Obeys.bind readXrpUsdPrice_looks ?_
  rintro _ price ⟨read, rfl, hprice⟩
  refine Fallible.Obeys.ask trivial fun now => ?_
  refine Fallible.Obeys.ask ⟨read, t, hprice, rfl⟩ fun _ => ?_
  exact Fallible.Obeys.pure (.live hprice)

theorem currentXrpUsdPrice_looks : Looks [] currentXrpUsdPrice
    (fun t' price => FoundPrice price t') fun _ _ => True := by
  refine Fallible.Obeys.ask trivial fun cached => ?_
  by_cases hprimed : cached.primed = true
  · rw [if_pos hprimed]
    refine Fallible.Obeys.ask trivial fun now => ?_
    by_cases hfresh : now - cached.readAt ≤ priceCacheMaxAge
    · rw [if_pos hfresh]
      exact Fallible.Obeys.pure (.cached rfl hprimed hfresh)
    · rw [if_neg hfresh]
      exact readThrough_looks
  · rw [if_neg hprimed]
    exact readThrough_looks

/-- A balance is written under the stamp that was taken before it was read. -/
theorem refreshToken_looks {token : Address} (h : (⟨.clock, now⟩ : CacheExchange) ∈ t) :
    Looks t (refreshToken now token) (fun t' _ => (⟨.clock, now⟩ : CacheExchange) ∈ t')
      fun _ _ => True := by
  have hread : Looks t (readVaultLiquidity token)
      (fun t' balance => ∃ later, t' = later ++ ⟨.callBalance token, some balance.toNat⟩ :: t)
      fun t' _ => (⟨.clock, now⟩ : CacheExchange) ∈ t' := by
    refine Fallible.Obeys.ask trivial fun output => ?_
    have hstamp := List.mem_cons_of_mem (⟨.callBalance token, output⟩ : CacheExchange) h
    refine Fallible.Obeys.ofExcept (fun _ _ => hstamp) fun balance hbalance => ?_
    refine Fallible.Obeys.ofExcept (fun _ _ => hstamp) fun _ hfits => ?_
    obtain rfl := Outcome.orElse_eq_ok.mp hbalance
    have hlt : balance < 2 ^ 64 := Nat.lt_of_not_le (Outcome.rejectIf_eq_ok.mp hfits)
    refine Fallible.Obeys.pure ⟨[], ?_⟩
    rw [UInt64.toNat_ofNat_of_lt' hlt]
    rfl
  refine Fallible.Obeys.tryCatch (Fallible.Obeys.bind hread ?_) fun t' e h => h
  rintro _ balance ⟨later, rfl⟩
  refine Fallible.Obeys.ask ⟨later, t, rfl, h⟩ fun _ => ?_
  have hmem : (⟨.clock, now⟩ : CacheExchange) ∈
      later ++ ⟨.callBalance token, some balance.toNat⟩ :: t :=
    List.mem_append_right _ (List.mem_cons_of_mem _ h)
  exact Fallible.Obeys.pure (List.mem_cons_of_mem _ hmem)

theorem refreshLiquidity_looks (cfg : Config) :
    Looks [] (refreshLiquidity cfg) (fun _ _ => True) fun _ _ => True := by
  refine Fallible.Obeys.ask trivial fun now => ?_
  refine Fallible.Obeys.bind (refreshToken_looks List.mem_cons_self) fun t _ h => ?_
  exact Fallible.Obeys.mono (refreshToken_looks h) (fun _ _ _ => trivial) fun _ _ h => h

theorem vaultLiquidity_looks (pid : Nat) {token : Address} : Looks [] (vaultLiquidity token)
    (fun t' balance => EndsWith (.vaultLiquidity pid token) t' (.balance balance))
    fun _ _ => True := by
  refine Fallible.Obeys.ask trivial fun value => ?_
  cases value with
  | none => exact Fallible.Obeys.pure .unknown
  | some value =>
      refine Fallible.Obeys.ask trivial fun now => Fallible.Obeys.pure ?_
      by_cases hstale : now - value.readAt > liquidityCacheMaxAge
      · rw [if_pos hstale]
        exact .unknown
      · rw [if_neg hstale]
        exact .balance (Int.not_lt.mp hstale)

/-- **Every task writes only what it has just read, and tells how it came by what it found.** -/
theorem program_looks (cfg : Config) (task : Task) :
    Process.Obeys Stamped (EndsWith task) [] (task.program cfg) := by
  cases task with
  | refreshPrice =>
      have hround : Looks [] refreshPrice (fun _ _ => True) fun _ _ => True :=
        Fallible.Obeys.bind readThrough_looks fun _ _ _ => trivial
      exact Process.Obeys.bind hround fun t r _ => .nothing fun _ => rfl
  | refreshLiquidity =>
      exact Process.Obeys.bind (refreshLiquidity_looks cfg) fun t r _ => .nothing fun _ => rfl
  | currentXrpUsdPrice pid =>
      refine Process.Obeys.bind currentXrpUsdPrice_looks fun t r hr => ?_
      cases r with
      | ok price => exact EndsWith.price hr
      | error e => exact EndsWith.priceless
  | vaultLiquidity pid token =>
      refine Process.Obeys.bind (vaultLiquidity_looks pid) fun t r hr => ?_
      cases r with
      | ok balance => exact hr
      | error e => exact EndsWith.unknown

end Lookups

/-! ### Handlers -/

/-- The handler was told that the vault has this much of the token. -/
def ToldBalance (t : Trace) (token : Address) (amount : UInt64) : Prop :=
  ∃ balance, (⟨.vaultLiquidity token, some balance⟩ : Exchange) ∈ t ∧ amount ≤ balance

/-- A withdrawal is one the vault was said to have the funds for. -/
def Operation.Covered (cfg : Config) (t : Trace) : Operation → Prop
  | .withdraw _ asset amount _ _ => ∃ token, assetForToken cfg token = .ok asset ∧
      ToldBalance t token amount
  | .withdrawFromMandate _ _ amount _ _ => ToldBalance t cfg.usdt0 amount
  | _ => True

/-- What a handler may ask, as far as the caches go. -/
def Sourced (cfg : Config) (t : Trace) : Request → Prop
  | .mutate op => op.Covered cfg t
  | .quoteAtPrice _ price => (⟨.currentXrpUsdPrice, some price⟩ : Exchange) ∈ t
  | _ => True

/-- The program keeps to it from the trace on. -/
abbrev Sources {α : Type} (cfg : Config) (t : Trace) (x : Handler α)
    (ok : Trace → α → Prop) : Prop :=
  Fallible.Obeys (Sourced cfg) ok (fun _ _ => True) t x

section Handlers

variable {P : Platform} {cfg : Config} {action : Action} {t : Trace} {α β : Type}
  {ok : Trace → α → Prop} {out : Trace → β → Prop}

theorem Sources.attempt {x : Except HandlerError α} {f : α → Handler β}
    (h : ∀ a, x = .ok a → Sources cfg t (f a) out) :
    Sources cfg t (Handler.attempt x >>= f) out :=
  Fallible.Obeys.ofExcept (fun _ _ => trivial) h

theorem Sources.orElse {o : Option α} {err : HandlerError} {f : α → Handler β}
    (h : ∀ a, o = some a → Sources cfg t (f a) out) :
    Sources cfg t (Handler.orElse err o >>= f) out :=
  Sources.attempt fun a ha => h a (Outcome.orElse_eq_ok.mp ha)

theorem Sources.rejectIf {bad : Prop} [Decidable bad] {err : HandlerError} {f : Unit → Handler β}
    (h : ¬ bad → Sources cfg t (f ()) out) :
    Sources cfg t (Handler.rejectIf bad err >>= f) out :=
  Sources.attempt fun _ ha => h (Outcome.rejectIf_eq_ok.mp ha)

theorem Sources.ask {r : Request} {f : Response r → Handler β} (hr : Sourced cfg t r)
    (h : ∀ x, Sources cfg (⟨r, x⟩ :: t) (f x) out) :
    Sources cfg t (Handler.perform r >>= f) out :=
  Fallible.Obeys.ask hr h

theorem Sources.ite {c : Prop} [Decidable c] {x y : Handler α} (hx : Sources cfg t x ok)
    (hy : Sources cfg t y ok) : Sources cfg t (if c then x else y) ok := by
  by_cases h : c
  · rw [if_pos h]; exact hx
  · rw [if_neg h]; exact hy

/-- What comes after a program may start from any trace. -/
theorem Sources.next {x : Handler α} {f : α → Handler β}
    (hx : Sources cfg t x fun _ _ => True) (h : ∀ t a, Sources cfg t (f a) out) :
    Sources cfg t (x >>= f) out :=
  Fallible.Obeys.bind hx fun t a _ => h t a

theorem operate_sources {op : Operation} (h : op.Covered cfg t) :
    Sources cfg t (Handler.operate op) fun _ _ => True := by
  refine Sources.ask h fun answer => ?_
  cases answer <;> exact trivial

theorem anchorSettlement_sources {requestID : Hash} {payout : Payout} :
    Sources cfg t (anchorSettlement P requestID payout) fun _ _ => True := by
  refine Sources.ask trivial fun s => Sources.orElse fun pending _ => ?_
  refine Sources.ask trivial fun now => Sources.ask trivial fun signed => ?_
  exact Sources.rejectIf fun _ => trivial

/-- An operation and the settlement that anchors it. -/
theorem operate_anchored {op : Operation} (h : op.Covered cfg t) {requestID : Hash}
    {payout : Payout} {f : Settlement → α} :
    Sources cfg t (Handler.operate op >>= fun _ =>
      anchorSettlement P requestID payout >>= fun s => pure (f s)) fun _ _ => True :=
  Sources.next (operate_sources h) fun _ _ => Sources.next anchorSettlement_sources
    fun _ _ => trivial

theorem requireLiquidity_sources {token : Address} {amount : UInt64} :
    Sources cfg t (requireLiquidity token amount) fun t' _ => ToldBalance t' token amount := by
  refine Sources.ask trivial fun balance => Sources.orElse fun b hb => ?_
  obtain rfl := hb
  by_cases hlow : b < amount
  · unfold Handler.rejectIf Outcome.rejectIf
    rw [if_pos hlow]
    trivial
  · unfold Handler.rejectIf Outcome.rejectIf
    rw [if_neg hlow]
    exact ⟨b, List.mem_cons_self, UInt64.not_lt.mp hlow⟩

theorem ToldBalance.cons {token : Address} {amount : UInt64} (x : Exchange)
    (h : ToldBalance t token amount) : ToldBalance (x :: t) token amount := by
  obtain ⟨balance, hmem, hle⟩ := h
  exact ⟨balance, List.mem_cons_of_mem x hmem, hle⟩

theorem verifySignedAction_sources {req : SignedAction} {expected : List UInt8} :
    Sources cfg t (verifySignedAction P cfg req expected) fun _ _ => True := by
  refine Sources.rejectIf fun _ => Sources.ask trivial fun now => ?_
  refine Sources.rejectIf fun _ => Sources.rejectIf fun _ => Sources.rejectIf fun _ => ?_
  refine Sources.orElse fun recovered _ => Sources.rejectIf fun _ => ?_
  refine Sources.ask trivial fun s => Sources.rejectIf fun _ => ?_
  cases s.accounts[lower P.keccak256 req.sender]? with
  | none => exact trivial
  | some a =>
      dsimp only
      unfold Handler.rejectIf Outcome.rejectIf
      split <;> exact trivial

theorem accountView_sources {sender : Address} :
    Sources cfg t (accountView P sender) fun _ _ => True :=
  Sources.ask trivial fun _ => Sources.ask trivial fun _ => trivial

theorem performAction_sources {req : SignedAction} :
    Sources cfg t (performAction P cfg action req) fun _ _ => True := by
  have hmutates : ∀ (op : Operation) (t : Trace), op.Covered cfg t →
      Sources cfg t (Handler.operate op >>= fun _ => (pure (.none, none) : Handler Performed))
        fun _ _ => True :=
    fun op t h => Sources.next (operate_sources h) fun _ _ => trivial
  unfold performAction
  refine Sources.ite (Sources.orElse fun p _ => hmutates _ _ trivial) ?_
  refine Sources.ite (Sources.orElse fun p _ => hmutates _ _ trivial) ?_
  refine Sources.ite (Sources.orElse fun p _ => hmutates _ _ trivial) ?_
  refine Sources.ite (Sources.orElse fun p _ => ?_) ?_
  · refine Fallible.Obeys.bind requireLiquidity_sources fun t _ h => ?_
    refine operate_anchored ?_
    exact h
  refine Sources.ite (Sources.orElse fun p _ => ?_) ?_
  · refine Sources.ask trivial fun found => Sources.orElse fun price hprice => ?_
    obtain rfl := hprice
    refine Sources.ask List.mem_cons_self fun quoted => ?_
    exact Sources.attempt fun q _ => trivial
  refine Sources.ite (Sources.orElse fun p _ => hmutates _ _ trivial) ?_
  refine Sources.ite ?_ (Sources.ite (Sources.orElse fun p _ => ?_) trivial)
  · exact Sources.next accountView_sources fun _ _ => Sources.attempt fun _ _ => trivial
  · have hstress : Sources cfg t (stressView P req.sender p.xrpUSDE6) fun _ _ => True := by
      refine Sources.next accountView_sources fun t view => Sources.orElse fun loan _ => ?_
      refine Sources.ask trivial fun now => ?_
      unfold Handler.attempt
      cases stressFigures loan p.xrpUSDE6 now <;> exact trivial
    exact Sources.next hstress fun _ _ => trivial

theorem handleSignedDirect_sources {req : SignedAction} :
    Sources cfg t (handleSignedDirect P cfg action req) fun _ _ => True := by
  refine Sources.next performAction_sources fun t performed => ?_
  have hanchor : Sources cfg t (anchorMutation P action req performed.2) fun _ _ => True :=
    Sources.ite (Sources.next anchorSettlement_sources fun _ _ => trivial) trivial
  exact Sources.next hanchor fun _ _ => Sources.orElse fun _ _ => trivial

theorem handleWithdrawal_sources {df : DataFixed} :
    Sources cfg t (handleWithdrawal P cfg action df) fun _ _ => True := by
  refine Sources.attempt ?_
  rintro ⟨sender, token, amount, destination⟩ _
  refine Sources.attempt fun asset hasset => ?_
  refine Fallible.Obeys.bind requireLiquidity_sources fun t _ h => ?_
  refine Sources.ask trivial fun s => Sources.orElse fun account _ => ?_
  refine operate_anchored ?_
  exact ⟨token, hasset, h.cons _⟩

theorem processInstruction_sources :
    Sources cfg t (processInstruction P cfg action) fun _ _ => True := by
  refine Sources.orElse fun df _ => Sources.rejectIf fun _ => ?_
  refine Sources.ite (Sources.attempt fun _ _ => Sources.attempt fun _ _ => ?_) ?_
  · refine operate_anchored ?_
    exact trivial
  refine Sources.ite (Sources.attempt fun _ _ => Sources.orElse fun _ _ => ?_) ?_
  · refine Sources.orElse fun req _ => Sources.rejectIf fun _ => ?_
    refine Sources.next verifySignedAction_sources fun t _ => Sources.orElse fun payload _ => ?_
    refine operate_anchored ?_
    exact trivial
  refine Sources.ite handleWithdrawal_sources ?_
  refine Sources.ite (Sources.attempt fun _ _ => ?_) ?_
  · refine operate_anchored ?_
    exact trivial
  refine Sources.ite (Sources.attempt fun _ _ => ?_) trivial
  refine operate_anchored ?_
  exact trivial

theorem processDirect_sources :
    Sources cfg t (processDirect P cfg action) fun _ _ => True := by
  refine Sources.orElse fun di _ => Sources.rejectIf fun _ => ?_
  refine Sources.ite (Sources.orElse fun payload _ => ?_) (Sources.ite ?_ (Sources.ite ?_ ?_))
  · refine Sources.next ?_ fun t read => Sources.attempt fun _ _ => ?_
    · refine Sources.ask trivial fun sequenceFirst => Sources.ite ?_ ?_
      · exact Sources.ask trivial fun _ => Sources.ask trivial fun _ => trivial
      · exact Sources.ask trivial fun _ => Sources.ask trivial fun _ => trivial
    · exact Sources.ask trivial fun _ => Sources.attempt fun _ _ => trivial
  · refine Sources.ask trivial fun s => Sources.orElse fun pending _ => Sources.rejectIf fun _ => ?_
    exact Sources.next anchorSettlement_sources fun _ _ => trivial
  · refine Sources.orElse fun payload _ => Sources.next ?_ fun t _ => ?_
    · refine Sources.rejectIf fun _ => Sources.ask trivial fun output => ?_
      refine Sources.orElse fun raw _ => Sources.orElse fun record _ => ?_
      unfold Handler.attempt
      cases checkDepositRecord payload record <;> exact trivial
    · refine Sources.attempt fun asset _ => Sources.ask trivial fun answer => ?_
      cases answer with
      | ok u => exact Sources.next anchorSettlement_sources fun _ _ => trivial
      | error cause => exact Sources.ite trivial trivial
  · refine Sources.orElse fun plain _ => Sources.orElse fun req _ => ?_
    exact Sources.next verifySignedAction_sources fun _ _ => handleSignedDirect_sources

/-- **A handler withdraws only what it was told the vault has, and quotes only at a price it was
told.** -/
theorem processAction_sources (P : Platform) (cfg : Config) (action : Action) :
    Sources cfg [] (processAction P cfg action) fun _ _ => True := by
  unfold processAction
  cases action.actionType with
  | instruction => exact processInstruction_sources
  | direct => exact processDirect_sources
  | other => exact trivial

end Handlers

end QuietLine
