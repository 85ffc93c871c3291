/-
The system on its chain.

`System.Model` lets a transaction find anything at all.  Here the vault's transactions
are those of the contract on its chain, and the extension is as before; the two share
the vault.  A signature over a settlement that the TEE has not signed recovers to no
authorised signer, hence to the zero address as well as to any other.
-/
import QuietLine.Chain.Contract
import QuietLine.System.Model

namespace QuietLine

open Outcome

structure Network where
  world : World := {}
  chain : Chain

/-- The contract is deployed, and the extension has not started. -/
def Network.start (admin operator : Address) : Network where
  chain := { contract := Contract.deployed admin operator }

inductive NetworkMove where
  /-- A message arrives at the extension. -/
  | receive (action : Action)
  /-- A handler of the extension makes its next request. -/
  | advance (pid : Nat) (answer : Answer)
  | restart
  | chain (move : ChainMove)

/-- The signer as the chain sees it. -/
def World.recovers (w : World) (settlement : Settlement) (signer : Address) : Address :=
  if settlement ∈ w.signed then signer else Address.zero

/-- The move with the signer that its signature recovers to. -/
def World.verified (w : World) : ChainMove → ChainMove
  | .execute env sender signer settlement =>
      .execute env sender (w.recovers settlement signer) settlement
  | move => move

/-- What the model of the system calls the move; what only concerns the chain it has not. -/
def Network.project (S : Setup) (n : Network) : NetworkMove → Option Move
  | .receive action => some (.receive action)
  | .advance pid answer => some (.advance pid answer)
  | .restart => some .restart
  | .chain (.transact env sender call) =>
      some (.transact (n.chain.incoming S.config env sender (call.brings S.config)) call)
  | .chain (.execute env sender signer settlement) =>
      some (.execute (n.chain.outgoing S.config env sender (n.world.recovers settlement signer))
        settlement)
  | .chain (.govern ..) | .chain (.receive ..) => none

def ofWorld {α : Type} : Except Refusal α → Except (Refusal ⊕ ContractError) α
  | .ok a => .ok a
  | .error cause => .error (.inl cause)

def ofChain {α : Type} : Except ContractError α → Except (Refusal ⊕ ContractError) α
  | .ok a => .ok a
  | .error cause => .error (.inr cause)

/-- A move of the extension. -/
def Network.extend (S : Setup) (n : Network) (move : Move) :
    Except (Refusal ⊕ ContractError) Network := do
  let world ← ofWorld (n.world.step S move)
  return { n with world }

def Network.step (S : Setup) (n : Network) :
    NetworkMove → Except (Refusal ⊕ ContractError) Network
  | .receive action => n.extend S (.receive action)
  | .advance pid answer => n.extend S (.advance pid answer)
  | .restart => n.extend S .restart
  | .chain move => do
      let chain ← ofChain
        (n.chain.step S.platform.keccak256 S.config (n.world.verified move))
      return { chain, world := { n.world with vault := chain.contract.vault } }

/-- The network after a list of moves. -/
def networkAfter (S : Setup) (admin operator : Address) (moves : List NetworkMove) : Network :=
  Machine.run (Network.step S) (Network.start admin operator) moves

/-! ### Inversion -/

section Inversion

variable {α : Type} {S : Setup} {n n' : Network}

theorem ofContract_eq_ok {x : Except VaultError α} {b : α} :
    ofContract x = .ok b ↔ x = .ok b := by
  cases x <;> simp [ofContract]

theorem ofWorld_eq_ok {x : Except Refusal α} {b : α} : ofWorld x = .ok b ↔ x = .ok b := by
  cases x <;> simp [ofWorld]

theorem ofChain_eq_ok {x : Except ContractError α} {b : α} : ofChain x = .ok b ↔ x = .ok b := by
  cases x <;> simp [ofChain]

theorem extend_ok {move : Move} (h : n.extend S move = .ok n') :
    n.world.step S move = .ok n'.world ∧ n'.chain = n.chain := by
  obtain ⟨world, hw, hn⟩ := bind_eq_ok.mp h
  cases hn
  exact ⟨ofWorld_eq_ok.mp hw, rfl⟩

theorem chain_ok {move : ChainMove} (h : n.step S (.chain move) = .ok n') :
    n.chain.step S.platform.keccak256 S.config (n.world.verified move) = .ok n'.chain ∧
      n'.world = { n.world with vault := n'.chain.contract.vault } := by
  obtain ⟨chain, hc, hn⟩ := bind_eq_ok.mp h
  cases hn
  exact ⟨ofChain_eq_ok.mp hc, rfl⟩

end Inversion

section Chains

variable {keccak : Keccak} {cfg : Config} {ch ch' : Chain}

theorem govern_ok {env : Surroundings} {sender : Address} {call : Governing}
    (h : ch.step keccak cfg (.govern env sender call) = .ok ch') :
    ∃ contract, call.apply cfg env sender ch.contract = .ok contract ∧
      ch' = { ch with contract } := by
  obtain ⟨contract, hcontract, hch⟩ := bind_eq_ok.mp h
  cases hch
  exact ⟨contract, hcontract, rfl⟩

theorem transacted_ok {env : Surroundings} {sender : Address} {call : VaultCall}
    (h : ch.step keccak cfg (.transact env sender call) = .ok ch') :
    ∃ vault, call.apply keccak cfg (ch.incoming cfg env sender (call.brings cfg))
        ch.contract.vault = .ok vault ∧
      ch' = { contract := { ch.contract with vault }
              balance := ch.settled env (call.brings cfg) } := by
  obtain ⟨vault, hvault, hch⟩ := bind_eq_ok.mp h
  cases hch
  exact ⟨vault, ofContract_eq_ok.mp hvault, rfl⟩

theorem executed_ok {env : Surroundings} {sender signer : Address} {settlement : Settlement}
    (h : ch.step keccak cfg (.execute env sender signer settlement) = .ok ch') :
    ∃ vault, ch.contract.vault.executeSettlement cfg (ch.outgoing cfg env sender signer)
        (ch.contract.isAuthorizedTeeSigner env signer) settlement = .ok vault ∧
      ch' = { contract := { ch.contract with vault }
              balance := ch.settled env settlement.spends } := by
  obtain ⟨vault, hvault, hch⟩ := bind_eq_ok.mp h
  cases hch
  exact ⟨vault, ofContract_eq_ok.mp hvault, rfl⟩

/-- Governing the contract leaves the vault's books alone. -/
theorem govern_vault {env : Surroundings} {sender : Address} {call : Governing} {c c' : Contract}
    (h : call.apply cfg env sender c = .ok c') : c'.vault = c.vault := by
  cases call with
  | setExtensionID id =>
      obtain ⟨_, _, hc⟩ := bind_eq_ok.mp h
      obtain ⟨_, _, hc⟩ := bind_eq_ok.mp hc
      cases hc
      rfl
  | setTeeSigner signer =>
      obtain ⟨_, _, hc⟩ := bind_eq_ok.mp h
      obtain ⟨_, _, hc⟩ := bind_eq_ok.mp hc
      obtain ⟨_, _, hc⟩ := bind_eq_ok.mp hc
      cases hc
      rfl
  | pause | unpause =>
      obtain ⟨_, _, hc⟩ := bind_eq_ok.mp h
      obtain ⟨_, _, hc⟩ := bind_eq_ok.mp hc
      cases hc
      rfl
  | grantRole role account | revokeRole role account | renounceRole role account =>
      obtain ⟨_, _, hc⟩ := bind_eq_ok.mp h
      cases hc
      rfl

theorem isAuthorizedTeeSigner_zero (env : Surroundings) (c : Contract) :
    c.isAuthorizedTeeSigner env Address.zero = false := by
  unfold Contract.isAuthorizedTeeSigner
  exact if_pos (Or.inl rfl)

end Chains

end QuietLine
