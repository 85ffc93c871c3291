/-
How old what the caches serve may be.

A balance is stamped before it is read, so one that is served under a stamp of the last
half minute is one that the vault had in the last half minute.  A price is stamped after
it was read, so one that is served was stamped in the last half minute and read before
that.  Both hold beside anything else that happens, the refreshers and the other
lookups included, because a lookup's exchanges come in their order along the run.
-/
import QuietLine.Proofs.Lookups
import QuietLine.Proofs.Traces
import QuietLine.Proofs.Custody
import QuietLine.Proofs.Instructions

namespace QuietLine

open Process

/-! ### The network beneath -/

section Networks

variable {S : Setup} {n n' : Network} {move : NetworkMove} {pid : Nat}

/-- A handler after a move of the network: as it was, or new, or one answer further. -/
theorem network_handlers (h : n.step S move = .ok n') {h' : Started}
    (hget : n'.world.handlers[pid]? = some h') :
    n.world.handlers[pid]? = some h' ∨ h'.trace = [] ∨
      ∃ a started r k, move = .advance pid a ∧ n.world.handlers[pid]? = some started ∧
        started.process = .call r k ∧
        h'.trace = ⟨r, (n.world.respond S pid started a r).2⟩ :: started.trace := by
  have hworld : ∀ m : Move, (∀ a, m = .advance pid a → move = .advance pid a) →
      n.world.step S m = .ok n'.world → n.world.handlers[pid]? = some h' ∨ h'.trace = [] ∨
        ∃ a started r k, move = .advance pid a ∧ n.world.handlers[pid]? = some started ∧
          started.process = .call r k ∧
          h'.trace = ⟨r, (n.world.respond S pid started a r).2⟩ :: started.trace := by
    intro m hmove hm
    rcases step_handlers hm hget with ⟨before, hbefore, rfl⟩ | ⟨_, htrace, _⟩ |
      ⟨a, before, r, k, ha, hbefore, hp, rfl⟩
    · exact Or.inl hbefore
    · exact Or.inr (Or.inl htrace)
    · exact Or.inr (Or.inr ⟨a, before, r, k, hmove a ha, hbefore, hp, rfl⟩)
  cases move with
  | receive action => exact hworld _ (by intro a ha; cases ha) (extend_ok h).1
  | advance i a => exact hworld _ (by intro a ha; cases ha; rfl) (extend_ok h).1
  | restart => exact hworld _ (by intro a ha; cases ha) (extend_ok h).1
  | chain m =>
      left
      rw [(chain_ok h).2] at hget
      exact hget

theorem pending_eq_some {w : World} {r : Request} : w.pending pid = some r ↔
    ∃ started k, w.lost ≤ pid ∧ w.handlers[pid]? = some started ∧ started.process = .call r k := by
  unfold World.pending
  by_cases hlost : pid < w.lost
  · rw [if_pos hlost]
    constructor
    · intro h
      cases h
    · rintro ⟨_, _, hle, _⟩
      omega
  · rw [if_neg hlost, Option.bind_eq_some_iff]
    constructor
    · rintro ⟨started, hget, hp⟩
      cases hprocess : started.process with
      | done reply => rw [hprocess] at hp; cases hp
      | call r' k =>
          rw [hprocess] at hp
          cases hp
          exact ⟨started, k, Nat.le_of_not_lt hlost, hget, hprocess⟩
    · rintro ⟨started, k, _, hget, hp⟩
      exact ⟨started, hget, by rw [hp]⟩

/-- A handler that is not advanced goes on waiting, unless the extension restarts. -/
theorem network_pending (h : n.step S move = .ok n') (hrestart : move ≠ .restart)
    (hadvance : ∀ a, move ≠ .advance pid a) {r : Request} (hp : n.world.pending pid = some r) :
    n'.world.pending pid = some r := by
  obtain ⟨started, k, hlost, hget, hprocess⟩ := pending_eq_some.mp hp
  refine pending_eq_some.mpr ⟨started, k, ?_⟩
  cases move with
  | receive action =>
      have hw : Except.ok _ = Except.ok n'.world := (extend_ok h).1
      rw [← Except.ok.inj hw]
      refine ⟨hlost, ?_, hprocess⟩
      exact (List.getElem?_append_left (List.getElem?_eq_some_iff.mp hget).1).trans hget
  | advance i a =>
      obtain ⟨other, r', k', hother, _, _, hw⟩ := advance_ok (extend_ok h).1
      have hne : i ≠ pid := fun hi => hadvance a (by rw [hi])
      obtain ⟨_, hhandlers, hlost', _⟩ := respond_frame S i other a n.world r'
      rw [hw]
      refine ⟨hlost'.le.trans hlost, ?_, hprocess⟩
      dsimp only
      rw [List.getElem?_set_ne hne, hhandlers]
      exact hget
  | restart => exact absurd rfl hrestart
  | chain m =>
      rw [(chain_ok h).2]
      exact ⟨hlost, hget, hprocess⟩

end Networks

/-! ### One lookup for each that waits -/

/-- The handler that waits for the task, and what it waits with. -/
def Task.awaited : Task → Option (Nat × Request)
  | .refreshPrice | .refreshLiquidity => none
  | .currentXrpUsdPrice pid => some (pid, .currentXrpUsdPrice)
  | .vaultLiquidity pid token => some (pid, .vaultLiquidity token)

theorem isDue_iff {task : Task} {w : World} :
    task.isDue w = true ↔ ∀ p ∈ task.awaited, w.pending p.1 = some p.2 := by
  cases task with
  | refreshPrice | refreshLiquidity => simp [Task.isDue, Task.awaited]
  | currentXrpUsdPrice pid | vaultLiquidity pid token =>
      simp only [Task.isDue, Task.awaited, Option.mem_def, Option.some.injEq, forall_eq']
      cases w.pending pid with
      | none => simp
      | some r => cases r <;> simp [eq_comm]

theorem awaited_cached {task : Task} {p : Nat × Request} (h : p ∈ task.awaited) :
    p.2.isCached = true := by
  cases task with
  | refreshPrice | refreshLiquidity => cases h
  | currentXrpUsdPrice pid | vaultLiquidity pid token => cases h; rfl

/-- No two tasks are waited for alike. -/
theorem awaited_inj {task task' : Task} {p : Nat × Request} (h : p ∈ task.awaited)
    (h' : p ∈ task'.awaited) : task = task' := by
  cases task <;> cases task' <;> cases h <;> cases h' <;> rfl

/-- A task that goes on with its handler answers what that waits with. -/
theorem resumes_awaited {task : Task} {answer : Answer} {found : Found} {move : NetworkMove}
    (h : task.resumes answer found = some move) :
    ∃ p a, p ∈ task.awaited ∧ move = .advance p.1 a := by
  cases task <;> cases found <;> cases h <;> exact ⟨_, _, rfl, rfl⟩

/-- Every thread is waited for, or a refresher's, and no task has two. -/
structure Cached.Orderly (c : Cached) : Prop where
  due : ∀ th ∈ c.threads, th.task.isDue c.network.world = true
  distinct : (c.threads.map Thread.task).Nodup

section Orderly

variable {S : Setup} {c c' : Cached}

/-- A thread goes on being waited for while its handler is not advanced. -/
theorem isDue_network {n n' : Network} {move : NetworkMove} {task : Task}
    (h : n.step S move = .ok n') (hrestart : move ≠ .restart)
    (hother : ∀ p ∈ task.awaited, ∀ a, move ≠ .advance p.1 a)
    (hdue : task.isDue n.world = true) : task.isDue n'.world = true := by
  rw [isDue_iff] at hdue ⊢
  intro p hp
  exact network_pending h hrestart (hother p hp) (hdue p hp)

/-- The other threads are for other tasks. -/
theorem Cached.Orderly.others (h : c.Orderly) {i : Nat} {th th' : Thread}
    (hget : c.threads[i]? = some th) (hmem : th' ∈ c.threads.eraseIdx i) : th'.task ≠ th.task := by
  obtain ⟨j, hne, hget'⟩ := List.mem_eraseIdx_iff_getElem?.mp hmem
  have hlt : j < (c.threads.map Thread.task).length := by
    rw [List.length_map]
    exact (List.getElem?_eq_some_iff.mp hget').1
  intro hsame
  refine hne ((List.getElem?_inj hlt h.distinct).mp ?_)
  rw [List.getElem?_map, List.getElem?_map, hget, hget', Option.map_some, Option.map_some, hsame]

theorem Cached.Orderly.step {move : CachedMove} (h : c.Orderly) (hstep : c.step S move = .ok c') :
    c'.Orderly := by
  cases Cached.step_ok hstep with
  | network hrestart huncached hmoves =>
      refine ⟨fun th hth => ?_, h.distinct⟩
      refine isDue_network hmoves hrestart ?_ (h.due th hth)
      rintro p hp a rfl
      have hcached := huncached p.1 a p.2 rfl (isDue_iff.mp (h.due th hth) p hp)
      rw [awaited_cached hp] at hcached
      cases hcached
  | restart hmoves => exact ⟨by simp, List.nodup_nil⟩
  | elapse nanoseconds => exact ⟨h.due, h.distinct⟩
  | launch hidle hdue =>
      constructor
      · intro th hth
        rcases List.mem_append.mp hth with hth | hth
        · exact h.due th hth
        · rw [List.mem_singleton.mp hth]
          exact hdue
      · rw [List.map_append, List.map_singleton]
        refine List.nodup_append'.mpr ⟨h.distinct, List.nodup_singleton _, ?_⟩
        rw [List.disjoint_singleton, List.mem_map]
        rintro ⟨th, hth, hsame⟩
        exact hidle th hth hsame
  | @look i env reachable th r k hget hp =>
      have htasks : (c.threads.set i (th.answer r (c.respond env reachable r).2
          (k (c.respond env reachable r).2))).map Thread.task = c.threads.map Thread.task := by
        obtain ⟨hlt, hth⟩ := List.getElem?_eq_some_iff.mp hget
        have hi : i < (c.threads.map Thread.task).length := by
          rw [List.length_map]
          exact hlt
        have htask : (c.threads.map Thread.task)[i] = th.task := by
          rw [List.getElem_map, hth]
        rw [List.map_set]
        show (c.threads.map Thread.task).set i th.task = _
        rw [← htask, List.set_getElem_self]
      refine ⟨fun th' hth' => ?_, by dsimp only; rw [htasks]; exact h.distinct⟩
      have hmem := List.mem_map_of_mem (f := Thread.task) hth'
      rw [htasks] at hmem
      obtain ⟨th₀, hth₀, hsame⟩ := List.mem_map.mp hmem
      rw [← hsame]
      simpa using h.due th₀ hth₀
  | drop hget hended hresumes =>
      refine ⟨fun th hth => h.due th (List.mem_of_mem_eraseIdx hth), ?_⟩
      exact (List.Sublist.map _ (List.eraseIdx_sublist _ _)).nodup h.distinct
  | @finish i answer th found move network hget hended hresumes hmoves =>
      refine ⟨fun th' hth' => ?_, (List.Sublist.map _ (List.eraseIdx_sublist _ _)).nodup h.distinct⟩
      obtain ⟨⟨pid, r⟩, a, hp, rfl⟩ := resumes_awaited hresumes
      have hdue := h.due th' (List.mem_of_mem_eraseIdx hth')
      refine isDue_network hmoves (by simp) ?_ hdue
      rintro ⟨pid', r'⟩ hp' a' hmove
      cases hmove
      -- both wait with what that handler is pending with
      have hwaits := isDue_iff.mp (h.due th (List.mem_of_getElem? hget)) _ hp
      have hwaits' := isDue_iff.mp hdue _ hp'
      obtain rfl := Option.some.inj (hwaits.symm.trans hwaits')
      exact h.others hget hth' (awaited_inj hp' hp)

theorem orderly_cachedAfter (S : Setup) (admin operator : Address) (moves : List CachedMove) :
    (cachedAfter S admin operator moves).Orderly :=
  Machine.invariant (fun _ _ _ h hstep => h.step hstep) ⟨by simp [Cached.start], List.nodup_nil⟩
    moves

end Orderly

/-! ### What was read, and when -/

section Reads

variable (S : Setup) (admin operator : Address) (moves : List CachedMove)

/-- The vault had the balance at a moment of the run, at the stamp or after. -/
def BalanceRead (token : Address) (balance : UInt64) (stamp : Int) : Prop :=
  ∃ read, read <+: moves ∧ stamp ≤ (cachedAfter S admin operator read).now ∧
    (cachedAfter S admin operator read).network.chain.balance token = balance.toNat

/-- The vault's view gave the price at a moment of the run, and later the clock stood at the
stamp. -/
def PriceRead (price : Price) (stamp : Int) : Prop :=
  ∃ read stamped i env value, read ++ [.look i env true] <+: stamped ∧ stamped <+: moves ∧
    env.currentXrpUsdPrice = .ok value ∧ price = observedPrice value.1 value.2 ∧
    (cachedAfter S admin operator stamped).now = stamp

/-- While the handler waited for the balance of the token, it was at most half a minute since the
vault had this one. -/
def BalanceSeen (pid : Nat) (token : Address) (balance : UInt64) : Prop :=
  ∃ read served, read <+: served ∧ served <+: moves ∧
    (cachedAfter S admin operator read).network.chain.balance token = balance.toNat ∧
    (cachedAfter S admin operator served).network.world.pending pid =
      some (.vaultLiquidity token) ∧
    (cachedAfter S admin operator served).now ≤
      (cachedAfter S admin operator read).now + liquidityCacheMaxAge

/-- While the handler waited for the price, it was at most half a minute since the stamp of this
one. -/
def PriceSeen (pid : Nat) (price : Price) : Prop :=
  ∃ served stamp, served <+: moves ∧ PriceRead S admin operator served price stamp ∧
    (cachedAfter S admin operator served).network.world.pending pid = some .currentXrpUsdPrice ∧
    (cachedAfter S admin operator served).now ≤ stamp + priceCacheMaxAge

end Reads

/-- The move answers the task's request so. -/
def Cached.Tells (task : Task) (x : CacheExchange) (c : Cached) (move : CachedMove) : Prop :=
  ∃ (i : Nat) (env : Surroundings) (reachable : Bool) (th : Thread),
    move = .look i env reachable ∧ c.threads[i]? = some th ∧ th.task = task ∧
      x.answer = (c.respond env reachable x.request).2

section Tells

variable {S : Setup} {admin operator : Address} {moves moves' : List CachedMove}
  {c c' : Cached} {task : Task} {move : CachedMove} {token : Address} {price : Price}
  {balance : UInt64} {stamp : Int}

theorem BalanceRead.later (h : BalanceRead S admin operator moves token balance stamp)
    (hlonger : moves <+: moves') : BalanceRead S admin operator moves' token balance stamp := by
  obtain ⟨read, hread, hrest⟩ := h
  exact ⟨read, hread.trans hlonger, hrest⟩

theorem PriceRead.later (h : PriceRead S admin operator moves price stamp)
    (hlonger : moves <+: moves') : PriceRead S admin operator moves' price stamp := by
  obtain ⟨read, stamped, i, env, value, hread, hstamped, hrest⟩ := h
  exact ⟨read, stamped, i, env, value, hread, hstamped.trans hlonger, hrest⟩

theorem BalanceSeen.later {pid : Nat} (h : BalanceSeen S admin operator moves pid token balance)
    (hlonger : moves <+: moves') : BalanceSeen S admin operator moves' pid token balance := by
  obtain ⟨read, served, hread, hserved, hrest⟩ := h
  exact ⟨read, served, hread, hserved.trans hlonger, hrest⟩

theorem PriceSeen.later {pid : Nat} (h : PriceSeen S admin operator moves pid price)
    (hlonger : moves <+: moves') : PriceSeen S admin operator moves' pid price := by
  obtain ⟨served, stamp, hserved, hrest⟩ := h
  exact ⟨served, stamp, hserved.trans hlonger, hrest⟩

/-- The clock does not go back. -/
theorem now_le (S : Setup) (admin operator : Address) (h : moves <+: moves') :
    (cachedAfter S admin operator moves).now ≤ (cachedAfter S admin operator moves').now := by
  obtain ⟨rest, rfl⟩ := h
  have hrun : cachedAfter S admin operator (moves ++ rest) =
      Machine.run (Cached.step S) (cachedAfter S admin operator moves) rest :=
    Machine.run_append _ _ _
  have hkeep : ∀ (c : Cached) (move : CachedMove) (c' : Cached),
      (cachedAfter S admin operator moves).now ≤ c.now → c.step S move = .ok c' →
      (cachedAfter S admin operator moves).now ≤ c'.now := by
    intro c move c' hle hstep
    cases Cached.step_ok hstep with
    | elapse nanoseconds =>
        exact Int.le_trans hle (Int.le_add_of_nonneg_right (Int.natCast_nonneg _))
    | look hget hp => simpa using hle
    | _ => exact hle
  rw [hrun]
  exact Machine.invariant hkeep (Int.le_refl _) rest

/-- Whoever is told something by a cache is waited for. -/
theorem tells_due {x : CacheExchange} (h : (cachedAfter S admin operator moves).Orderly)
    (htells : Cached.Tells task x (cachedAfter S admin operator moves) move) :
    task.isDue (cachedAfter S admin operator moves).network.world = true := by
  obtain ⟨i, env, reachable, th, _, hget, rfl, _⟩ := htells
  exact h.due th (List.mem_of_getElem? hget)

theorem tells_clock {now : Int} (h : Cached.Tells task ⟨.clock, now⟩ c move) : c.now = now := by
  obtain ⟨_, _, _, _, _, _, _, hanswer⟩ := h
  exact hanswer.symm

theorem tells_getPrice {cache : PriceCache} (h : Cached.Tells task ⟨.getPrice, cache⟩ c move) :
    c.price = cache := by
  obtain ⟨_, _, _, _, _, _, _, hanswer⟩ := h
  exact hanswer.symm

theorem tells_getLiquidity {value : Option VaultLiquidityValue}
    (h : Cached.Tells task ⟨.getLiquidity token, value⟩ c move) : c.liquidity token = value := by
  obtain ⟨_, _, _, _, _, _, _, hanswer⟩ := h
  exact hanswer.symm

theorem tells_callBalance {n : Nat} (h : Cached.Tells task ⟨.callBalance token, some n⟩ c move) :
    c.network.chain.balance token = n := by
  obtain ⟨_, _, reachable, _, _, _, _, hanswer⟩ := h
  replace hanswer : some n = if reachable then some (c.network.chain.balance token) else none :=
    hanswer
  cases reachable with
  | true => exact (Option.some.inj hanswer).symm
  | false => cases hanswer

theorem tells_callPrice {value : UInt64 × UInt64}
    (h : Cached.Tells task ⟨.callPrice, some value⟩ c move) :
    ∃ i env, move = .look i env true ∧ env.currentXrpUsdPrice = .ok value := by
  obtain ⟨i, env, reachable, _, rfl, _, _, hanswer⟩ := h
  replace hanswer : some value =
      if reachable then env.currentXrpUsdPrice.toOption else none := hanswer
  cases reachable with
  | false => cases hanswer
  | true =>
      refine ⟨i, env, rfl, ?_⟩
      cases hprice : env.currentXrpUsdPrice with
      | error cause => rw [hprice] at hanswer; cases hanswer
      | ok found => rw [hprice] at hanswer; cases hanswer; rfl

/-- What the task's lookup has seen so far. -/
abbrev Seen (S : Setup) (admin operator : Address) (task : Task) (t : CacheTrace)
    (moves : List CachedMove) : Prop :=
  Machine.Chronicle (Cached.step S) (Cached.Tells task) (Cached.start admin operator) t moves

/-- **A balance is written under a stamp no later than its reading.** -/
theorem Seen.balanceRead {t : CacheTrace} (h : Seen S admin operator task t moves)
    (hstamped : Stamped t (.setLiquidity token balance stamp)) :
    BalanceRead S admin operator moves token balance stamp := by
  obtain ⟨after, before, rfl, hclock⟩ := hstamped
  obtain ⟨read, move, hread, hbalance, hbefore⟩ := Machine.Chronicle.drop h
  obtain ⟨start, move', hstart, hnow⟩ := Machine.Chronicle.once hbefore hclock
  refine ⟨read, (List.prefix_append read [move]).trans hread, ?_, tells_callBalance hbalance⟩
  rw [← tells_clock hnow]
  exact now_le S admin operator ((List.prefix_append start [move']).trans hstart)

/-- A price that has just been read is stamped with the time. -/
theorem Seen.priceRead {t : CacheTrace} {value : UInt64 × UInt64} {now : Int}
    (h : Seen S admin operator task (⟨.clock, now⟩ :: ⟨.callPrice, some value⟩ :: t) moves) :
    ∃ stamped move, stamped ++ [move] <+: moves ∧
      Cached.Tells task ⟨.clock, now⟩ (cachedAfter S admin operator stamped) move ∧
      PriceRead S admin operator stamped (observedPrice value.1 value.2) now := by
  obtain ⟨stamped, move, hstamped, hnow, read, move', hread, hprice, _⟩ := h
  obtain ⟨i, env, rfl, henv⟩ := tells_callPrice hprice
  exact ⟨stamped, move, hstamped, hnow, read, stamped, i, env, value, hread, List.prefix_rfl, henv,
    rfl, tells_clock hnow⟩

end Tells

/-! ### The caches -/

/-- The lookups are where their programs have got to, and the caches hold what was read. -/
structure Vouched (S : Setup) (admin operator : Address) (moves : List CachedMove) (c : Cached) :
    Prop where
  resumes : ∀ th ∈ c.threads, After (th.task.program S.config) th.trace th.process
  seen : ∀ th ∈ c.threads, Seen S admin operator th.task th.trace moves
  price : c.price.primed = true →
    PriceRead S admin operator moves c.price.price c.price.readAt
  liquidity : ∀ token value, c.liquidity token = some value →
    BalanceRead S admin operator moves token value.balance value.readAt

section Vouched

variable {S : Setup} {admin operator : Address} {moves moves' : List CachedMove} {c c' : Cached}
  {move : CachedMove}

theorem Vouched.later (h : Vouched S admin operator moves c) (hlonger : moves <+: moves') :
    Vouched S admin operator moves' c :=
  ⟨h.resumes, fun th hth => (h.seen th hth).later hlonger, fun hp => (h.price hp).later hlonger,
    fun token value hv => (h.liquidity token value hv).later hlonger⟩

/-- What a lookup writes to the caches it has just read. -/
theorem Vouched.respond (h : Vouched S admin operator moves c) {th : Thread} (hth : th ∈ c.threads)
    {r : CacheRequest} {k : CacheResponse r → Looking} (hp : th.process = .call r k)
    (env : Surroundings) (reachable : Bool) :
    ((c.respond env reachable r).1.price.primed = true →
      PriceRead S admin operator moves (c.respond env reachable r).1.price.price
        (c.respond env reachable r).1.price.readAt) ∧
      ∀ token value, (c.respond env reachable r).1.liquidity token = some value →
        BalanceRead S admin operator moves token value.balance value.readAt := by
  have hstamped : Stamped th.trace r := by
    have hresumes := h.resumes th hth
    rw [hp] at hresumes
    exact ((program_looks S.config th.task).after hresumes).allowed
  have hseen := h.seen th hth
  cases r with
  | setPrice price readAt =>
      obtain ⟨value, earlier, rfl, htrace⟩ := hstamped
      rw [htrace] at hseen
      obtain ⟨stamped, move, hmoves, _, hread⟩ := hseen.priceRead
      exact ⟨fun _ => hread.later ((List.prefix_append stamped [move]).trans hmoves), h.liquidity⟩
  | setLiquidity token balance readAt =>
      refine ⟨h.price, fun t value hv => ?_⟩
      replace hv : (if t = token then some ⟨balance, readAt⟩ else c.liquidity t) = some value := hv
      by_cases ht : t = token
      · rw [if_pos ht] at hv
        cases hv
        rw [ht]
        exact hseen.balanceRead hstamped
      · rw [if_neg ht] at hv
        exact h.liquidity t value hv
  | _ => exact ⟨h.price, h.liquidity⟩

theorem Vouched.step (h : Vouched S admin operator moves (cachedAfter S admin operator moves))
    (hstep : (cachedAfter S admin operator moves).step S move = .ok c') :
    Vouched S admin operator (moves ++ [move]) c' := by
  have hlater := h.later (List.prefix_append moves [move])
  cases Cached.step_ok hstep with
  | network _ _ _ => exact ⟨hlater.resumes, hlater.seen, hlater.price, hlater.liquidity⟩
  | restart _ => exact ⟨by simp, by simp, by simp, fun token value hv => by cases hv⟩
  | elapse nanoseconds => exact ⟨hlater.resumes, hlater.seen, hlater.price, hlater.liquidity⟩
  | launch hidle hdue =>
      refine ⟨fun th hth => ?_, fun th hth => ?_, hlater.price, hlater.liquidity⟩
      · rcases List.mem_append.mp hth with hth | hth
        · exact hlater.resumes th hth
        · rw [List.mem_singleton.mp hth]
          exact rfl
      · rcases List.mem_append.mp hth with hth | hth
        · exact hlater.seen th hth
        · rw [List.mem_singleton.mp hth]
          trivial
  | @look i env reachable th r k hget hp =>
      have hth := List.mem_of_getElem? hget
      obtain ⟨hprice, hliquidity⟩ := hlater.respond hth hp env reachable
      refine ⟨fun th' hth' => ?_, fun th' hth' => ?_, hprice, hliquidity⟩
      · rcases List.mem_or_eq_of_mem_set hth' with hth' | rfl
        · exact hlater.resumes th' hth'
        · have hresumes := hlater.resumes th hth
          rw [hp] at hresumes
          exact hresumes.answer _
      · rcases List.mem_or_eq_of_mem_set hth' with hth' | rfl
        · exact hlater.seen th' hth'
        · exact (h.seen th hth).snoc ⟨i, env, reachable, th, rfl, hget, rfl, rfl⟩
  | drop _ _ _ | finish _ _ _ _ =>
      exact ⟨fun th hth => hlater.resumes th (List.mem_of_mem_eraseIdx hth),
        fun th hth => hlater.seen th (List.mem_of_mem_eraseIdx hth), hlater.price,
        hlater.liquidity⟩

theorem vouched_cachedAfter (S : Setup) (admin operator : Address) (moves : List CachedMove) :
    Vouched S admin operator moves (cachedAfter S admin operator moves) := by
  refine Machine.invariant_along ?_ ?_ ?_ moves
  · refine ⟨by simp [Cached.start], by simp [Cached.start], ?_, ?_⟩
    · intro hprimed
      cases hprimed
    · intro token value hv
      cases hv
  · exact fun moves move _ h _ => h.later (List.prefix_append moves [move])
  · exact fun moves move c' h hstep => h.step hstep

end Vouched

/-! ### What the handlers are told -/

/-- What a cache told the handler was read in the run, and not long before. -/
def Told (S : Setup) (admin operator : Address) (moves : List CachedMove) (pid : Nat) :
    Exchange → Prop
  | ⟨.vaultLiquidity token, some balance⟩ => BalanceSeen S admin operator moves pid token balance
  | ⟨.currentXrpUsdPrice, some price⟩ => PriceSeen S admin operator moves pid price
  | _ => True

section Told

variable {S : Setup} {admin operator : Address} {moves moves' : List CachedMove} {pid : Nat}
  {x : Exchange}

theorem Told.later (h : Told S admin operator moves pid x) (hlonger : moves <+: moves') :
    Told S admin operator moves' pid x := by
  obtain ⟨r, answer⟩ := x
  cases r with
  | vaultLiquidity token =>
      cases answer with
      | none => trivial
      | some balance => exact BalanceSeen.later h hlonger
  | currentXrpUsdPrice =>
      cases answer with
      | none => trivial
      | some price => exact PriceSeen.later h hlonger
  | _ => trivial

/-- What no cache answers is nobody's to vouch for. -/
theorem told_uncached (h : x.request.isCached = false) : Told S admin operator moves pid x := by
  obtain ⟨r, answer⟩ := x
  cases r with
  | vaultLiquidity token => cases h
  | currentXrpUsdPrice => cases h
  | _ => trivial

/-- **The balance that a lookup finds is one that the vault had.** -/
theorem balanceSeen_of_endsWith {token : Address} {t : CacheTrace} {balance : UInt64}
    (hseen : Seen S admin operator (.vaultLiquidity pid token) t moves)
    (h : EndsWith (.vaultLiquidity pid token) t (.balance (some balance))) :
    BalanceSeen S admin operator moves pid token balance := by
  cases h with
  | @balance _ _ value now hfresh =>
      obtain ⟨served, move, hserved, hnow, found, move', hfound, hvalue, _⟩ := hseen
      obtain ⟨read, hread, hstamp, hbalance⟩ :=
        (vouched_cachedAfter S admin operator found).liquidity token value
          (tells_getLiquidity hvalue)
      have hclock : (cachedAfter S admin operator served).now = now := tells_clock hnow
      have hdue := tells_due (orderly_cachedAfter S admin operator served) hnow
      refine ⟨read, served, ?_, ?_, hbalance, isDue_iff.mp hdue _ rfl, by omega⟩
      · exact hread.trans ((List.prefix_append found [move']).trans hfound)
      · exact (List.prefix_append served [move]).trans hserved

/-- The price that a lookup finds is one that it or another has read. -/
theorem priceSeen_of_endsWith {t : CacheTrace} {price : Price}
    (hseen : Seen S admin operator (.currentXrpUsdPrice pid) t moves)
    (h : EndsWith (.currentXrpUsdPrice pid) t (.price (some price))) :
    PriceSeen S admin operator moves pid price := by
  cases h with
  | price hfound =>
      cases hfound with
      | @cached cache now hsame hprimed hfresh =>
          obtain ⟨served, move, hserved, hnow, found, move', hfound, hcache, _⟩ := hseen
          have hclock : (cachedAfter S admin operator served).now = now := tells_clock hnow
          have hheld : (cachedAfter S admin operator found).price = cache := tells_getPrice hcache
          have hread := (vouched_cachedAfter S admin operator found).price
          rw [hheld] at hread
          have hdue := tells_due (orderly_cachedAfter S admin operator served) hnow
          refine ⟨served, cache.readAt, (List.prefix_append served [move]).trans hserved, ?_,
            isDue_iff.mp hdue _ rfl, by omega⟩
          rw [hsame]
          exact (hread hprimed).later ((List.prefix_append found [move']).trans hfound)
      | @live value now earlier hsame =>
          obtain ⟨set, move, hset, _, hrest⟩ := hseen
          obtain ⟨served, move', hserved, hnow, hread⟩ := Seen.priceRead hrest
          have hclock : (cachedAfter S admin operator served).now = now := tells_clock hnow
          have hage : (0 : Int) ≤ priceCacheMaxAge := by decide
          have hdue := tells_due (orderly_cachedAfter S admin operator served) hnow
          refine ⟨served, now, ?_, by rw [hsame]; exact hread, isDue_iff.mp hdue _ rfl, by omega⟩
          exact ((List.prefix_append served [move']).trans hserved).trans
            ((List.prefix_append set [move]).trans hset)

/-- What a finished lookup answers its handler with. -/
theorem told_of_resumes {th : Thread} {answer a : Answer} {found : Found} {r : Request}
    (hseen : Seen S admin operator th.task th.trace moves)
    (hends : EndsWith th.task th.trace found)
    (hresumes : th.task.resumes answer found = some (.advance pid a))
    (hwaits : (pid, r) ∈ th.task.awaited) {w : World} {started : Started} :
    Told S admin operator moves pid ⟨r, (w.respond S pid started a r).2⟩ := by
  obtain ⟨task, t, process⟩ := th
  cases task with
  | refreshPrice | refreshLiquidity => cases hwaits
  | currentXrpUsdPrice pid' =>
      cases hwaits
      cases found with
      | nothing | balance b => cases hresumes
      | price price =>
          cases hresumes
          cases price with
          | none => trivial
          | some price => exact priceSeen_of_endsWith hseen hends
  | vaultLiquidity pid' token =>
      cases hwaits
      cases found with
      | nothing | price price => cases hresumes
      | balance balance =>
          cases hresumes
          cases balance with
          | none => trivial
          | some balance => exact balanceSeen_of_endsWith hseen hends

/-- What every handler was told. -/
abbrev AllTold (S : Setup) (admin operator : Address) (moves : List CachedMove) (c : Cached) :
    Prop :=
  ∀ (pid : Nat) (started : Started), c.network.world.handlers[pid]? = some started →
    ∀ x ∈ started.trace, Told S admin operator moves pid x

theorem AllTold.later {c : Cached} (h : AllTold S admin operator moves c)
    (hlonger : moves <+: moves') : AllTold S admin operator moves' c :=
  fun pid started hget x hx => (h pid started hget x hx).later hlonger

/-- A move of the network adds what it tells the handler that it advances. -/
theorem AllTold.network {c : Cached} {n : Network} {move : NetworkMove}
    (h : AllTold S admin operator moves c) (hn : c.network.step S move = .ok n)
    (htold : ∀ pid a started r k, move = .advance pid a →
      c.network.world.handlers[pid]? = some started → started.process = .call r k →
      Told S admin operator moves pid ⟨r, (c.network.world.respond S pid started a r).2⟩) :
    AllTold S admin operator moves { c with network := n } := by
  intro pid started hget x hx
  rcases network_handlers hn hget with hsame | hnew | ⟨a, before, r, k, hmove, hbefore, hp, htrace⟩
  · exact h pid started hsame x hx
  · rw [hnew] at hx
    cases hx
  · rw [htrace] at hx
    rcases List.mem_cons.mp hx with rfl | hx
    · exact htold pid a before r k hmove hbefore hp
    · exact h pid before hbefore x hx

/-- A handler that may be advanced is pending. -/
theorem pending_of_advance {n n' : Network} {a : Answer} {started : Started} {r : Request}
    {k : Response r → Running} (h : n.step S (.advance pid a) = .ok n')
    (hget : n.world.handlers[pid]? = some started) (hp : started.process = .call r k) :
    n.world.pending pid = some r := by
  obtain ⟨_, _, _, _, hlost, _, _⟩ := advance_ok (extend_ok h).1
  exact pending_eq_some.mpr ⟨started, k, hlost, hget, hp⟩

theorem AllTold.step {move : CachedMove} {c' : Cached}
    (h : AllTold S admin operator moves (cachedAfter S admin operator moves))
    (hstep : (cachedAfter S admin operator moves).step S move = .ok c') :
    AllTold S admin operator moves c' := by
  cases Cached.step_ok hstep with
  | network _ huncached hmoves =>
      refine h.network hmoves fun pid a started r k hmove hget hp => told_uncached ?_
      obtain rfl := hmove
      exact huncached pid a r rfl (pending_of_advance hmoves hget hp)
  | restart hmoves =>
      refine h.network hmoves fun pid a started r k hmove => ?_
      cases hmove
  | finish hget hended hresumes hmoves =>
      have hth := List.mem_of_getElem? hget
      have hvouched := vouched_cachedAfter S admin operator moves
      have hdue := (orderly_cachedAfter S admin operator moves).due _ hth
      have hends := hvouched.resumes _ hth
      rw [hended] at hends
      replace hends := (program_looks S.config _).after hends
      refine h.network hmoves fun pid a started r k hmove hhandler hp => ?_
      obtain rfl := hmove
      obtain ⟨⟨pid', r'⟩, a', hwaits, hsame⟩ := resumes_awaited hresumes
      cases hsame
      have hpending := pending_of_advance hmoves hhandler hp
      obtain rfl := Option.some.inj ((isDue_iff.mp hdue _ hwaits).symm.trans hpending)
      exact told_of_resumes (hvouched.seen _ hth) hends hresumes hwaits
  | look _ _ => simpa using h
  | _ => exact h

theorem allTold_cachedAfter (S : Setup) (admin operator : Address) (moves : List CachedMove) :
    AllTold S admin operator moves (cachedAfter S admin operator moves) := by
  refine Machine.invariant_along ?_ ?_ ?_ moves
  · intro pid started hget
    simp [Cached.start, Network.start] at hget
  · exact fun moves move _ h _ => AllTold.later h (List.prefix_append moves [move])
  · exact fun moves move _ h hstep =>
      AllTold.later (AllTold.step h hstep) (List.prefix_append moves [move])

end Told

/-! ### The system beneath -/

/-- The network under the caches is one that a run of the network reaches. -/
theorem network_cachedAfter (S : Setup) (admin operator : Address) (moves : List CachedMove) :
    ∃ networkMoves, (cachedAfter S admin operator moves).network =
      networkAfter S admin operator networkMoves := by
  have hkeep : ∀ (c : Cached) (move : CachedMove) (c' : Cached),
      (∃ networkMoves, c.network = networkAfter S admin operator networkMoves) →
      c.step S move = .ok c' →
      ∃ networkMoves, c'.network = networkAfter S admin operator networkMoves := by
    rintro c move c' ⟨networkMoves, h⟩ hstep
    have hmoved : ∀ {move : NetworkMove} {n : Network}, c.network.step S move = .ok n →
        n = networkAfter S admin operator (networkMoves ++ [move]) := by
      intro move n hn
      rw [h] at hn
      rw [networkAfter, Machine.run_append, Machine.run_cons, Machine.run_nil]
      exact (Machine.next_ok hn).symm
    cases Cached.step_ok hstep with
    | network _ _ hn => exact ⟨_, hmoved hn⟩
    | restart hn => exact ⟨_, hmoved hn⟩
    | finish _ _ _ hn => exact ⟨_, hmoved hn⟩
    | look _ _ => exact ⟨networkMoves, by simpa using h⟩
    | _ => exact ⟨networkMoves, h⟩
  exact Machine.invariant hkeep ⟨[], rfl⟩ moves

/-- The world under the caches is one that the model of the system reaches. -/
theorem world_cachedAfter (S : Setup) (admin operator : Address) (moves : List CachedMove) :
    ∃ systemMoves, (cachedAfter S admin operator moves).network.world =
      worldAfter S systemMoves := by
  obtain ⟨networkMoves, hnetwork⟩ := network_cachedAfter S admin operator moves
  obtain ⟨systemMoves, ⟨hworld, _⟩, _⟩ := Network.simulated S admin operator networkMoves
  exact ⟨systemMoves, by rw [hnetwork, hworld]⟩

/-- What the operation takes out of the vault, and of which token. -/
def Operation.drawn (cfg : Config) : Operation → Option (Address × UInt64)
  | .withdraw _ asset amount .. => some (cfg.tokenOf asset, amount)
  | .withdrawFromMandate _ _ amount .. => some (cfg.usdt0, amount)
  | _ => none

/-- What the call takes out of the vault. -/
def Call.drawn (cfg : Config) (c : Call) : Option (Address × UInt64) :=
  match c.event with
  | .operate _ _ op => op.drawn cfg
  | .confirm .. => none

theorem tokenOf_assetForToken {cfg : Config} {token : Address} {asset : String}
    (h : assetForToken cfg token = .ok asset) : cfg.tokenOf asset = token := by
  unfold assetForToken at h
  split at h
  · next hfxrp =>
    cases h
    exact hfxrp.symm
  · split at h
    · next husdt0 =>
      cases h
      exact husdt0.symm
    · cases h

theorem told_of_drawn {cfg : Config} {t : Trace} {op : Operation} {token : Address}
    {amount : UInt64} (h : op.Covered cfg t) (hdrawn : op.drawn cfg = some (token, amount)) :
    ToldBalance t token amount := by
  cases op with
  | withdraw owner asset n operationID expectedNonce =>
      cases hdrawn
      obtain ⟨token, hasset, htold⟩ := h
      rw [tokenOf_assetForToken hasset]
      exact htold
  | withdrawFromMandate owner mandateID n operationID expectedNonce =>
      cases hdrawn
      exact h
  | _ => cases hdrawn

theorem operate_of_drawn {cfg : Config} {c : Call} {p : Address × UInt64}
    (h : c.drawn cfg = some p) :
    ∃ ctx stored op, c.event = .operate ctx stored op ∧ op.drawn cfg = some p := by
  unfold Call.drawn at h
  cases hevent : c.event with
  | operate ctx stored op =>
      rw [hevent] at h
      exact ⟨ctx, stored, op, rfl, h⟩
  | confirm sequence root stored => rw [hevent] at h; cases h

/-- **The vault had what is withdrawn.**  In every run, beside whatever else happens: where the
ledger has committed a withdrawal, the contract had at least that much of the token at a moment of
the run, and at most half a minute later the handler was still to be told of it. -/
theorem withdrawals_covered (S : Setup) (admin operator : Address) (moves : List CachedMove)
    {c : State × Call} (hc : c ∈ (cachedAfter S admin operator moves).network.world.commits S)
    {token : Address} {amount : UInt64} (hdrawn : c.2.drawn S.config = some (token, amount)) :
    ∃ read served, read <+: served ∧ served <+: moves ∧
      amount.toNat ≤ (cachedAfter S admin operator read).network.chain.balance token ∧
      (cachedAfter S admin operator served).network.world.pending c.2.pid =
        some (.vaultLiquidity token) ∧
      (cachedAfter S admin operator served).now ≤
        (cachedAfter S admin operator read).now + liquidityCacheMaxAge := by
  obtain ⟨systemMoves, hworld⟩ := world_cachedAfter S admin operator moves
  have htold := allTold_cachedAfter S admin operator moves
  unfold AllTold at htold
  rw [hworld] at hc htold
  obtain ⟨ctx, stored, op, hop, hop_drawn⟩ := operate_of_drawn hdrawn
  obtain ⟨started, hget, _, htrace⟩ :=
    ((coherent_worldAfter S systemMoves).commits c hc ctx stored op hop).handler
  obtain ⟨after, hafter⟩ := htrace
  have hcovered : op.Covered S.config c.2.trace :=
    (processAction_sources S.platform S.config started.action).past
      ((traced_worldAfter S systemMoves).resumes c.2.pid started hget) hafter.symm
  obtain ⟨balance, hmem, hle⟩ := told_of_drawn hcovered hop_drawn
  have hseen := htold c.2.pid started hget ⟨.vaultLiquidity token, some balance⟩ (by
    rw [← hafter]
    exact List.mem_append_right _ (List.mem_cons_of_mem _ hmem))
  obtain ⟨read, served, hread, hserved, hbalance, hpending, hage⟩ := hseen
  refine ⟨read, served, hread, hserved, ?_, hpending, hage⟩
  rw [hbalance]
  exact UInt64.le_iff_toNat_le.mp hle

/-! ### A withdrawal at the end of its half minute -/

/-- The thread's next `n` requests. -/
def sampleLooks (n : Nat) : List CachedMove :=
  List.replicate n (.look 0 (sampleSurroundings none) true)

/-- Moves of the system, after the extension was configured. -/
def sampleConfigured (moves : List Move) : List CachedMove :=
  (.chain (.govern (sampleSurroundings none) (sampleAddress 1) (.setExtensionID 0x10000)) ::
    moves.map sampleNetworkMove).map .network

/-- The deposit settles and the balances are read; half a minute later the handler of the withdrawal
looks at them. -/
def coveredWithdrawal : List CachedMove :=
  sampleConfigured (depositSettled sampleSetup.config.fxrp ++ (withdrawalCommitted 2).take 2) ++
    [.launch .refreshLiquidity] ++ sampleLooks 5 ++ [.finish 0 sampleAnswer] ++
    [.elapse 30000000000, .launch (.vaultLiquidity 2 sampleSetup.config.fxrp)] ++ sampleLooks 2 ++
    [.finish 0 sampleAnswer] ++ (sampleAdvance 2 2).map fun m => .network (sampleNetworkMove m)

theorem coveredWithdrawal_run :
    ((cachedAfter sampleSetup (sampleAddress 1) (sampleAddress 2)
      coveredWithdrawal).network.world.commits sampleSetup).any
        (fun c => c.2.drawn sampleSetup.config = some (sampleSetup.config.fxrp, 100)) = true := by
  decide +kernel

theorem withdrawals_covered_late :
    ∃ c ∈ (cachedAfter sampleSetup (sampleAddress 1) (sampleAddress 2)
        coveredWithdrawal).network.world.commits sampleSetup,
      ∃ read served, read <+: served ∧ served <+: coveredWithdrawal ∧
        100 ≤ (cachedAfter sampleSetup (sampleAddress 1) (sampleAddress 2)
          read).network.chain.balance sampleSetup.config.fxrp ∧
        (cachedAfter sampleSetup (sampleAddress 1) (sampleAddress 2)
          served).network.world.pending c.2.pid =
            some (.vaultLiquidity sampleSetup.config.fxrp) ∧
        (cachedAfter sampleSetup (sampleAddress 1) (sampleAddress 2) served).now ≤
          (cachedAfter sampleSetup (sampleAddress 1) (sampleAddress 2) read).now +
            liquidityCacheMaxAge := by
  obtain ⟨c, hc, hdrawn⟩ := List.any_eq_true.mp coveredWithdrawal_run
  exact ⟨c, hc, withdrawals_covered sampleSetup (sampleAddress 1) (sampleAddress 2)
    coveredWithdrawal hc (of_decide_eq_true hdrawn)⟩

/-! ### Quotes -/

/-- A quote is at the price that was observed. -/
theorem quoteAtPrice_ok {host : Host} {range : RangeOrder} {s : State} {req : QuoteRequest}
    {observed : Price} {now : Int} {q : Quote}
    (h : quoteAtPrice host range s req observed now = .ok q) :
    q.priceE6 = observed.xrpUSDE6 := by
  unfold quoteAtPrice quote at h
  simp only [Outcome.bind_eq_ok] at h
  obtain ⟨_, _, _, _, _, _, _, _, _, _, _, _, _, _, _, _, _, _, _, _, hq⟩ := h
  cases hq
  rfl

/-- **A quote is at a price that the vault gave.**  In every run, beside whatever else happens: the
price of a quote is one that the vault's view gave at a moment of the run, from a feed that was then
no older than five minutes; and when the handler was still to be told of it, it was at most half a
minute since that price had been stamped. -/
theorem quotes_at_read_prices (S : Setup) (admin operator : Address) (moves : List CachedMove)
    {pid : Nat} {started : Started}
    (hget : (cachedAfter S admin operator moves).network.world.handlers[pid]? = some started)
    {req : QuoteRequest} {observed : Price} {q : Quote}
    (hquoted : (⟨.quoteAtPrice req observed, .ok q⟩ : Exchange) ∈ started.trace) :
    ∃ read stamped served i env value, read ++ [.look i env true] <+: stamped ∧
      stamped <+: served ∧ served <+: moves ∧ env.Quotes value ∧ q.priceE6 = value.1 ∧
      (cachedAfter S admin operator served).network.world.pending pid =
        some .currentXrpUsdPrice ∧
      (cachedAfter S admin operator served).now ≤
        (cachedAfter S admin operator stamped).now + priceCacheMaxAge := by
  obtain ⟨systemMoves, hworld⟩ := world_cachedAfter S admin operator moves
  have htold := allTold_cachedAfter S admin operator moves
  unfold AllTold at htold
  rw [hworld] at hget htold
  obtain ⟨after, earlier, htrace⟩ := List.append_of_mem hquoted
  have hsource : Sourced S.config earlier (.quoteAtPrice req observed) :=
    (processAction_sources S.platform S.config started.action).past
      ((traced_worldAfter S systemMoves).resumes pid started hget) htrace
  have hseen := htold pid started hget ⟨.currentXrpUsdPrice, some observed⟩ (by
    rw [htrace]
    exact List.mem_append_right _ (List.mem_cons_of_mem _ hsource))
  obtain ⟨served, stamp, hserved, ⟨read, stamped, i, env, value, hread, hstamped, hprice, hobserved,
    hstamp⟩, hpending, hage⟩ := hseen
  obtain ⟨before, move, _, answering, a, _, _, hanswer⟩ :=
    ((traced_worldAfter S systemMoves).answered pid started hget).once hquoted
  have hat : q.priceE6 = observed.xrpUSDE6 := quoteAtPrice_ok hanswer.symm
  refine ⟨read, stamped, served, i, env, value, hread, hstamped, hserved,
    currentXrpUsdPrice_ok hprice, ?_, hpending, ?_⟩
  · rw [hat, hobserved]
    rfl
  · rw [hstamp]
    exact hage

/-- The sample setup, where message 255 asks for a quote for account 10. -/
def quoteSetup : Setup := { sampleSetup with
  platform := { samplePlatform with
    directInstruction message :=
      if message = [255] then
        some { opType := toHash "CREDIT", opCommand := toHash "QUOTE_REQUEST", message }
      else samplePlatform.directInstruction message
    signedAction message :=
      if message = [255] then
        some {
          sender := sampleAddress 10, nonce := 0, deadline := 2000, action := "QUOTE_REQUEST"
          payload := [], responsePublicKey := 4 :: List.replicate 64 0
          signature := (sampleAddress 10).toList ++ List.replicate 45 0 }
      else samplePlatform.signedAction message
    quotePayload _ := some {
      id := "q", borrower := "", amount := 40, termDays := 30, maxAPRBPS := 1500
      collateralFXRP := 100, expiresAt := 2000 } } }

/-- A lender offers 50, the price is read, and half a minute later a quote is asked for. -/
def quotedLate : List CachedMove :=
  sampleConfigured (depositSettled sampleSetup.config.usdt0 ++
      [.receive (sampleAction 2 .direct "SET_MANDATE" (sampleSigned 10 0 "SET_MANDATE" [50]))] ++
      sampleAdvance 2 6 ++
      sampleSettled 3 1 (sampleSettlement 1 .setMandate "m" 2
        (Payout.checkpoint (sampleAddress 10))) ++
      [.receive { sampleAction 4 .direct "" [] with message := [255] }] ++ sampleAdvance 4 2) ++
    [.launch .refreshPrice] ++ sampleLooks 3 ++ [.finish 0 sampleAnswer] ++
    [.elapse 30000000000, .launch (.currentXrpUsdPrice 4)] ++ sampleLooks 2 ++
    [.finish 0 sampleAnswer] ++ (sampleAdvance 4 1).map fun m => .network (sampleNetworkMove m)

/-- A quote that the handler was given. -/
def Started.quoted (h : Started) : Option (QuoteRequest × Price × Quote) :=
  h.trace.findSome? fun x =>
    match x with
    | ⟨.quoteAtPrice req observed, .ok q⟩ => some (req, observed, q)
    | _ => none

theorem mem_of_quoted {h : Started} {req : QuoteRequest} {observed : Price} {q : Quote}
    (hquoted : h.quoted = some (req, observed, q)) :
    (⟨.quoteAtPrice req observed, .ok q⟩ : Exchange) ∈ h.trace := by
  obtain ⟨x, hx, hfound⟩ := List.exists_of_findSome?_eq_some hquoted
  split at hfound
  · cases hfound
    exact hx
  · cases hfound

theorem quotedLate_run :
    ((cachedAfter quoteSetup (sampleAddress 1) (sampleAddress 2)
      quotedLate).network.world.handlers[4]?.bind fun h =>
        h.quoted.map fun found => found.2.2.priceE6) = some 2000000 := by
  decide +kernel

theorem quotes_at_read_prices_late :
    ∃ read stamped served i env, ∃ value : UInt64 × UInt64,
      read ++ [.look i env true] <+: stamped ∧ stamped <+: served ∧ served <+: quotedLate ∧
      env.Quotes value ∧ value.1 = 2000000 ∧
      (cachedAfter quoteSetup (sampleAddress 1) (sampleAddress 2)
        served).network.world.pending 4 = some .currentXrpUsdPrice ∧
      (cachedAfter quoteSetup (sampleAddress 1) (sampleAddress 2) served).now ≤
        (cachedAfter quoteSetup (sampleAddress 1) (sampleAddress 2) stamped).now +
          priceCacheMaxAge := by
  obtain ⟨started, hget, hrest⟩ := Option.bind_eq_some_iff.mp quotedLate_run
  obtain ⟨⟨req, observed, q⟩, hquoted, hprice⟩ := Option.map_eq_some_iff.mp hrest
  obtain ⟨read, stamped, served, i, env, value, hread, hstamped, hserved, hquotes, hat, hpending,
    hage⟩ := quotes_at_read_prices quoteSetup (sampleAddress 1) (sampleAddress 2) quotedLate hget
      (mem_of_quoted hquoted)
  exact ⟨read, stamped, served, i, env, value, hread, hstamped, hserved, hquotes,
    hat.symm.trans hprice, hpending, hage⟩

end QuietLine
