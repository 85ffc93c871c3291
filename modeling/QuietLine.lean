import QuietLine.Library.Outcome
import QuietLine.Library.Machine
import QuietLine.Library.MapSum
import QuietLine.Library.Bytes
import QuietLine.Ledger.Model
import QuietLine.Ledger.Arithmetic
import QuietLine.Ledger.Quote
import QuietLine.Ledger.Risk
import QuietLine.Ledger.Repayment
import QuietLine.Ledger.Engine
import QuietLine.Ledger.Access
import QuietLine.Library.MapRel
import QuietLine.Proofs.Distribution
import QuietLine.Proofs.Liquidity
import QuietLine.Proofs.Steps
import QuietLine.Proofs.Moves
import QuietLine.Proofs.Wellformed
import QuietLine.Proofs.Pointers
import QuietLine.Proofs.Nonces
import QuietLine.Proofs.Identifiers
import QuietLine.Proofs.Books
import QuietLine.Proofs.Backing
import QuietLine.Proofs.Lending
import QuietLine.Proofs.Faults
import QuietLine.Proofs.Solvency
import QuietLine.Proofs.Frame
import QuietLine.Chain.Types
import QuietLine.Library.Process
import QuietLine.Chain.Vault
import QuietLine.Extension.Protocol
import QuietLine.Extension.Crypto
import QuietLine.Extension.Handlers
import QuietLine.Proofs.Provenance
import QuietLine.System.Model
import QuietLine.Proofs.Fundings
import QuietLine.Proofs.Coherence
import QuietLine.Proofs.Anchors
import QuietLine.Proofs.Duplicates
import QuietLine.Proofs.Payouts
import QuietLine.Proofs.Executable
import QuietLine.Proofs.Authorisation
import QuietLine.Proofs.Credits
import QuietLine.Ledger.Store
import QuietLine.Ledger.Gate
import QuietLine.Proofs.Gate
import QuietLine.Proofs.Durability
import QuietLine.Library.Floors
import QuietLine.Proofs.Accrual
import QuietLine.Proofs.Interest
import QuietLine.Proofs.Ticks
import QuietLine.Proofs.Stress
import QuietLine.Relayer.Indexer
import QuietLine.Proofs.Indexing
import QuietLine.Relayer.Orchestrator
import QuietLine.Proofs.Wakeups
import QuietLine.System.Deployment
import QuietLine.Proofs.Endings
import QuietLine.Proofs.Recovery
import QuietLine.Proofs.Lifecycle
import QuietLine.Proofs.Coverage
import QuietLine.Chain.Contract
import QuietLine.System.Network
import QuietLine.Proofs.Custody
import QuietLine.Proofs.Instructions
import QuietLine.Proofs.Governance
import QuietLine.Relayer.Auth
import QuietLine.Relayer.Server
import QuietLine.Proofs.Sessions
import QuietLine.Proofs.Requests
import QuietLine.Library.Greedy
import QuietLine.Proofs.Classification
import QuietLine.Proofs.Thresholds
import QuietLine.Proofs.Matching
import QuietLine.Proofs.Acceptance
import QuietLine.Extension.Settlement
import QuietLine.Proofs.Admission
import QuietLine.Proofs.Messages
import QuietLine.Proofs.Withdrawals
import QuietLine.Proofs.Overflow
import QuietLine.Library.Budget
import QuietLine.Proofs.Bills
import QuietLine.Proofs.Rounds
import QuietLine.Proofs.Orders
import QuietLine.Proofs.Traces
import QuietLine.Proofs.Statement
import QuietLine.Proofs.Answers
import QuietLine.Extension.Caches
import QuietLine.System.Cached
import QuietLine.Proofs.Lookups
import QuietLine.Proofs.Freshness
import QuietLine.Proofs.Divergence
