/-
The network with the extension's caches and its clock.

`System.Network` lets a handler be told any price and any balance.  Here both come from
the caches: a handler that asks for one runs its lookup beside everything else and goes
on with what that finds, and the two refreshers run their rounds.  An `eth_call` sees
the chain at one moment, between whatever else happens.  A refresher's round begins
when its ticker fires, which is at any time that no round of it is under way.
-/
import QuietLine.Extension.Caches
import QuietLine.System.Network

namespace QuietLine

/-! ### Threads -/

inductive Task where
  | refreshPrice
  | refreshLiquidity
  /-- Handler `pid` calls `currentXrpUsdPrice`. -/
  | currentXrpUsdPrice (pid : Nat)
  /-- Handler `pid` calls `vaultLiquidity`. -/
  | vaultLiquidity (pid : Nat) (token : Address)
  deriving DecidableEq

/-- What a task ends with; a refresher drops its errors. -/
inductive Found where
  | nothing
  | price (price : Option Price)
  | balance (balance : Option UInt64)
  deriving DecidableEq

/-- A program on the caches that is under way. -/
abbrev Looking := Process CacheRequest CacheResponse Found

def Task.program (cfg : Config) : Task → Looking
  | .refreshPrice => QuietLine.refreshPrice.run.bind fun _ => .done .nothing
  | .refreshLiquidity => (QuietLine.refreshLiquidity cfg).run.bind fun _ => .done .nothing
  | .currentXrpUsdPrice _ => QuietLine.currentXrpUsdPrice.run.bind fun price =>
      .done (.price price.toOption)
  | .vaultLiquidity _ token => (QuietLine.vaultLiquidity token).run.bind fun balance =>
      .done (.balance (balance.toOption.bind id))

structure Thread where
  task : Task
  trace : CacheTrace := []
  process : Looking

/-- The request that a running handler waits with. -/
def World.pending (w : World) (pid : Nat) : Option Request :=
  if pid < w.lost then
    none
  else
    w.handlers[pid]?.bind fun h =>
      match h.process with
      | .call r _ => some r
      | .done _ => none

/-- The caches answer the request. -/
def Request.isCached : Request → Bool
  | .vaultLiquidity _ | .currentXrpUsdPrice => true
  | _ => false

/-- The task may begin: its ticker may fire, or its handler waits for it. -/
def Task.isDue (w : World) : Task → Bool
  | .refreshPrice | .refreshLiquidity => true
  | .currentXrpUsdPrice pid =>
      match w.pending pid with
      | some .currentXrpUsdPrice => true
      | _ => false
  | .vaultLiquidity pid token =>
      match w.pending pid with
      | some (.vaultLiquidity t) => t = token
      | _ => false

/-! ### State and moves -/

structure Cached where
  network : Network
  now : Int := 0
  price : PriceCache := {}
  liquidity : VaultLiquidityCache := VaultLiquidityCache.empty
  threads : List Thread := []

def Cached.start (admin operator : Address) : Cached where
  network := Network.start admin operator

inductive CachedMove where
  /-- The network moves; no handler that waits for a cache does. -/
  | network (move : NetworkMove)
  /-- Time passes. -/
  | elapse (nanoseconds : Nat)
  | launch (task : Task)
  /-- The thread makes its next request. -/
  | look (i : Nat) (env : Surroundings) (reachable : Bool)
  /-- The thread is over, and the handler that waits for it goes on. -/
  | finish (i : Nat) (answer : Answer)

inductive Unready where
  | network (cause : Refusal ⊕ ContractError)
  | waits
  | busy
  | notDue
  | noThread

def ofNetwork {α : Type} : Except (Refusal ⊕ ContractError) α → Except Unready α
  | .ok a => .ok a
  | .error cause => .error (.network cause)

/-- One request of a thread. -/
def Cached.respond (env : Surroundings) (reachable : Bool) (c : Cached) :
    (r : CacheRequest) → Cached × CacheResponse r
  | .clock => (c, c.now)
  | .getPrice => (c, c.price)
  | .setPrice price readAt => ({ c with price := { price, readAt, primed := true } }, ())
  | .getLiquidity token => (c, c.liquidity token)
  | .setLiquidity token balance readAt =>
      ({ c with liquidity := c.liquidity.set token { balance, readAt } }, ())
  | .callPrice => (c, if reachable then env.currentXrpUsdPrice.toOption else none)
  | .callBalance token => (c, if reachable then some (c.network.chain.balance token) else none)

/-- The thread has its answer. -/
def Thread.answer (th : Thread) (r : CacheRequest) (x : CacheResponse r) (next : Looking) :
    Thread :=
  { th with trace := ⟨r, x⟩ :: th.trace, process := next }

def Cached.look (i : Nat) (env : Surroundings) (reachable : Bool) (c : Cached) :
    Except Unready Cached :=
  match c.threads[i]? with
  | none => .error .noThread
  | some th =>
      match th.process with
      | .done _ => .error .noThread
      | .call r k =>
          let responded := c.respond env reachable r
          .ok { responded.1 with
            threads := responded.1.threads.set i (th.answer r responded.2 (k responded.2)) }

/-- The move of the network with which a task's handler goes on. -/
def Task.resumes (answer : Answer) : Task → Found → Option NetworkMove
  | .currentXrpUsdPrice pid, .price price => some (.advance pid { answer with price })
  | .vaultLiquidity pid _, .balance liquidity => some (.advance pid { answer with liquidity })
  | _, _ => none

def Cached.finish (S : Setup) (i : Nat) (answer : Answer) (c : Cached) : Except Unready Cached :=
  match c.threads[i]? with
  | none => .error .noThread
  | some th =>
      match th.process with
      | .call .. => .error .noThread
      | .done found =>
          match th.task.resumes answer found with
          | none => .ok { c with threads := c.threads.eraseIdx i }
          | some move => do
              let network ← ofNetwork (c.network.step S move)
              return { c with network, threads := c.threads.eraseIdx i }

def Cached.step (S : Setup) (c : Cached) : CachedMove → Except Unready Cached
  | .network move =>
      match move with
      | .advance pid answer =>
          if (c.network.world.pending pid).any Request.isCached then
            .error .waits
          else do
            let network ← ofNetwork (c.network.step S (.advance pid answer))
            return { c with network }
      | .restart => do
          let network ← ofNetwork (c.network.step S .restart)
          return { c with
            network, price := {}, liquidity := VaultLiquidityCache.empty, threads := [] }
      | move => do
          let network ← ofNetwork (c.network.step S move)
          return { c with network }
  | .elapse nanoseconds => .ok { c with now := c.now + nanoseconds }
  | .launch task =>
      if c.threads.any fun th => th.task = task then
        .error .busy
      else if task.isDue c.network.world then
        .ok { c with
          threads := c.threads ++ [{ task, process := task.program S.config }] }
      else
        .error .notDue
  | .look i env reachable => c.look i env reachable
  | .finish i answer => c.finish S i answer

/-- The network and its caches after a list of moves. -/
def cachedAfter (S : Setup) (admin operator : Address) (moves : List CachedMove) : Cached :=
  Machine.run (Cached.step S) (Cached.start admin operator) moves

/-! ### Inversion -/

/-- What a move can do. -/
inductive CachedStep (S : Setup) (c : Cached) : CachedMove → Cached → Prop
  | network {move : NetworkMove} {network : Network} (restarts : move ≠ .restart)
      (uncached : ∀ pid a r, move = .advance pid a → c.network.world.pending pid = some r →
        r.isCached = false)
      (moves : c.network.step S move = .ok network) :
      CachedStep S c (.network move) { c with network }
  | restart {network : Network} (moves : c.network.step S .restart = .ok network) :
      CachedStep S c (.network .restart) { c with
        network, price := {}, liquidity := VaultLiquidityCache.empty, threads := [] }
  | elapse (nanoseconds : Nat) :
      CachedStep S c (.elapse nanoseconds) { c with now := c.now + nanoseconds }
  | launch {task : Task} (idle : ∀ th ∈ c.threads, th.task ≠ task)
      (due : task.isDue c.network.world = true) :
      CachedStep S c (.launch task) { c with
        threads := c.threads ++ [{ task, process := task.program S.config }] }
  | look {i : Nat} {env : Surroundings} {reachable : Bool} {th : Thread} {r : CacheRequest}
      {k : CacheResponse r → Looking} (at_ : c.threads[i]? = some th)
      (asks : th.process = .call r k) :
      CachedStep S c (.look i env reachable) { (c.respond env reachable r).1 with
        threads := c.threads.set i
          (th.answer r (c.respond env reachable r).2 (k (c.respond env reachable r).2)) }
  /-- A refresher's round is over. -/
  | drop {i : Nat} {answer : Answer} {th : Thread} {found : Found} (at_ : c.threads[i]? = some th)
      (ended : th.process = .done found) (resumes : th.task.resumes answer found = none) :
      CachedStep S c (.finish i answer) { c with threads := c.threads.eraseIdx i }
  | finish {i : Nat} {answer : Answer} {th : Thread} {found : Found} {move : NetworkMove}
      {network : Network} (at_ : c.threads[i]? = some th) (ended : th.process = .done found)
      (resumes : th.task.resumes answer found = some move)
      (moves : c.network.step S move = .ok network) :
      CachedStep S c (.finish i answer) { c with network, threads := c.threads.eraseIdx i }

section Inversion

variable {S : Setup} {c c' : Cached}

theorem ofNetwork_eq_ok {α : Type} {x : Except (Refusal ⊕ ContractError) α} {a : α} :
    ofNetwork x = .ok a ↔ x = .ok a := by
  cases x <;> simp [ofNetwork]

@[simp] theorem respond_threads (c : Cached) (env : Surroundings) (reachable : Bool)
    (r : CacheRequest) : (c.respond env reachable r).1.threads = c.threads := by
  cases r <;> rfl

@[simp] theorem respond_network (c : Cached) (env : Surroundings) (reachable : Bool)
    (r : CacheRequest) : (c.respond env reachable r).1.network = c.network := by
  cases r <;> rfl

@[simp] theorem respond_now (c : Cached) (env : Surroundings) (reachable : Bool)
    (r : CacheRequest) : (c.respond env reachable r).1.now = c.now := by
  cases r <;> rfl

theorem look_ok {i : Nat} {env : Surroundings} {reachable : Bool}
    (h : c.look i env reachable = .ok c') : CachedStep S c (.look i env reachable) c' := by
  unfold Cached.look at h
  cases hget : c.threads[i]? with
  | none => rw [hget] at h; cases h
  | some th =>
      rw [hget] at h
      cases hp : th.process with
      | done found => simp only [hp] at h; cases h
      | call r k =>
          simp only [hp, respond_threads] at h
          cases h
          exact .look hget hp

theorem finish_ok {i : Nat} {answer : Answer} (h : c.finish S i answer = .ok c') :
    CachedStep S c (.finish i answer) c' := by
  unfold Cached.finish at h
  cases hget : c.threads[i]? with
  | none => rw [hget] at h; cases h
  | some th =>
      rw [hget] at h
      cases hp : th.process with
      | call r k => simp only [hp] at h; cases h
      | done found =>
          simp only [hp] at h
          cases hresumes : th.task.resumes answer found with
          | none =>
              simp only [hresumes] at h
              cases h
              exact .drop hget hp hresumes
          | some move =>
              simp only [hresumes] at h
              obtain ⟨network, hnetwork, hc⟩ := Outcome.bind_eq_ok.mp h
              cases hc
              exact .finish hget hp hresumes (ofNetwork_eq_ok.mp hnetwork)

theorem Cached.step_ok {move : CachedMove} (h : c.step S move = .ok c') :
    CachedStep S c move c' := by
  cases move with
  | network move =>
      cases move with
      | advance pid a =>
          unfold Cached.step at h
          dsimp only at h
          split at h
          · cases h
          · next hwaits =>
            obtain ⟨network, hnetwork, hc⟩ := Outcome.bind_eq_ok.mp h
            cases hc
            refine .network (by simp) ?_ (ofNetwork_eq_ok.mp hnetwork)
            intro pid' a' r hmove hpending
            cases hmove
            simpa [hpending] using hwaits
      | restart =>
          obtain ⟨network, hnetwork, hc⟩ := Outcome.bind_eq_ok.mp h
          cases hc
          exact .restart (ofNetwork_eq_ok.mp hnetwork)
      | receive action =>
          obtain ⟨network, hnetwork, hc⟩ := Outcome.bind_eq_ok.mp h
          cases hc
          exact .network (by simp) (by simp) (ofNetwork_eq_ok.mp hnetwork)
      | chain m =>
          obtain ⟨network, hnetwork, hc⟩ := Outcome.bind_eq_ok.mp h
          cases hc
          exact .network (by simp) (by simp) (ofNetwork_eq_ok.mp hnetwork)
  | elapse nanoseconds =>
      cases h
      exact .elapse nanoseconds
  | launch task =>
      unfold Cached.step at h
      dsimp only at h
      split at h
      · cases h
      · next hidle =>
        split at h
        · next hdue =>
          cases h
          exact .launch (by simpa using hidle) hdue
        · cases h
  | look i env reachable => exact look_ok h
  | finish i answer => exact finish_ok h

end Inversion

end QuietLine
