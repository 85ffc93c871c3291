/-
The caches of the extension (`extension/oracle.go`, `extension/liquidity.go`).

A background refresher keeps the price warm and another the vault's balances, so that a
handler need not wait for the chain.  The two caches differ in two ways: the price is
stamped after it was read and a balance before, and a handler that finds no fresh price
reads one itself where one that finds no fresh balance gives up.

Times are readings of the monotonic clock in nanoseconds, which is what `Time.Sub`
compares.  A read of a cache, a read of the clock and a call of the chain are each one
request, and anything may happen between two.
-/
import QuietLine.Extension.Handlers

namespace QuietLine

/-- `priceCacheMaxAge`, 30 seconds. -/
def priceCacheMaxAge : Int := 30000000000

/-- `liquidityCacheMaxAge`, 30 seconds. -/
def liquidityCacheMaxAge : Int := 30000000000

structure PriceCache where
  price : Price := {}
  readAt : Int := 0
  primed : Bool := false
  deriving DecidableEq

structure VaultLiquidityValue where
  balance : UInt64
  readAt : Int
  deriving DecidableEq

/-- `map[common.Address]vaultLiquidityValue`. -/
abbrev VaultLiquidityCache := Address → Option VaultLiquidityValue

/-- The constructor leaves both empty. -/
def VaultLiquidityCache.empty : VaultLiquidityCache := fun _ => none

def VaultLiquidityCache.set (cache : VaultLiquidityCache) (token : Address)
    (value : VaultLiquidityValue) : VaultLiquidityCache :=
  fun t => if t = token then some value else cache t

/-! ### Requests -/

inductive CacheRequest where
  | clock
  | getPrice
  | setPrice (price : Price) (at_ : Int)
  | getLiquidity (token : Address)
  | setLiquidity (token : Address) (balance : UInt64) (at_ : Int)
  /-- The vault's `currentXrpUsdPrice`. -/
  | callPrice
  /-- The token's `balanceOf`, of the vault. -/
  | callBalance (token : Address)

abbrev CacheResponse : CacheRequest → Type
  | .clock => Int
  | .getPrice => PriceCache
  | .setPrice .. => Unit
  | .getLiquidity _ => Option VaultLiquidityValue
  | .setLiquidity .. => Unit
  | .callPrice => Option (UInt64 × UInt64)
  | .callBalance _ => Option Nat

abbrev CacheExchange := Process.Exchange CacheRequest CacheResponse
abbrev CacheTrace := Process.Trace CacheRequest CacheResponse

inductive CacheError where
  | priceUnreachable
  | balanceUnreachable
  | balanceExceedsUint64
  deriving DecidableEq

/-- A program on the caches and the chain. -/
abbrev Lookup := Process.Fallible CacheError CacheRequest CacheResponse

namespace Lookup

abbrev perform (r : CacheRequest) : Lookup (CacheResponse r) := Process.Fallible.perform r

abbrev orElse {α : Type} (err : CacheError) (o : Option α) : Lookup α :=
  Process.Fallible.ofExcept (Outcome.orElse err o)

abbrev rejectIf (bad : Prop) [Decidable bad] (err : CacheError) : Lookup Unit :=
  Process.Fallible.ofExcept (Outcome.rejectIf bad err)

end Lookup

open Lookup

/-! ### The price -/

def readXrpUsdPrice : Lookup Price := do
  let output ← perform .callPrice
  let output ← orElse .priceUnreachable output
  return observedPrice output.1 output.2

/-- A live read of the price, stamped when it is over. -/
def readThrough : Lookup Price := do
  let price ← readXrpUsdPrice
  let now ← perform .clock
  perform (.setPrice price now)
  return price

def currentXrpUsdPrice : Lookup Price := do
  let cached ← perform .getPrice
  if cached.primed then do
    let now ← perform .clock
    if now - cached.readAt ≤ priceCacheMaxAge then return cached.price else readThrough
  else
    readThrough

/-- One round of `startPriceRefresher`. -/
def refreshPrice : Lookup Unit := do
  let _ ← readThrough

/-! ### The balances -/

def readVaultLiquidity (token : Address) : Lookup UInt64 := do
  let output ← perform (.callBalance token)
  let balance ← orElse .balanceUnreachable output
  rejectIf (balance ≥ 2 ^ 64) .balanceExceedsUint64
  return UInt64.ofNat balance

/-- One turn of the loop of `refresh`: a read that fails leaves the cached balance. -/
def refreshToken (now : Int) (token : Address) : Lookup Unit :=
  tryCatch (do
    let balance ← readVaultLiquidity token
    perform (.setLiquidity token balance now)) fun _ => return ()

/-- `refresh` of `startVaultLiquidityRefresher`: one stamp for both, taken before either is read. -/
def refreshLiquidity (cfg : Config) : Lookup Unit := do
  let now ← perform .clock
  refreshToken now cfg.usdt0
  refreshToken now cfg.fxrp

/-- `vaultLiquidity`; the balance, or `none` for one that is not known. -/
def vaultLiquidity (token : Address) : Lookup (Option UInt64) := do
  let value ← perform (.getLiquidity token)
  match value with
  | none => return none
  | some value => do
      let now ← perform .clock
      return if now - value.readAt > liquidityCacheMaxAge then none else some value.balance

end QuietLine
