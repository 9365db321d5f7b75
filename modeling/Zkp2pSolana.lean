import Zkp2pSolana.Lib.Result
import Zkp2pSolana.Lib.Checked
import Zkp2pSolana.Lib.Fresh
import Zkp2pSolana.Lib.FinmapTotal
import Zkp2pSolana.Lib.FinmapAlter
import Zkp2pSolana.Lib.Bytes
import Zkp2pSolana.Lib.BigEndian
import Zkp2pSolana.Lib.Base58
import Zkp2pSolana.Lib.Borsh
import Zkp2pSolana.Lib.Str
import Zkp2pSolana.Lib.WhileLoop
import Zkp2pSolana.Lib.TxMachine
import Zkp2pSolana.Lib.TxHistory
import Zkp2pSolana.Lib.TxLife
import Zkp2pSolana.Lib.Market
import Zkp2pSolana.Lib.TxProgress
import Zkp2pSolana.Error
import Zkp2pSolana.Constants
import Zkp2pSolana.Address
import Zkp2pSolana.Math
import Zkp2pSolana.State
import Zkp2pSolana.Ledger
import Zkp2pSolana.Instructions.Initialize
import Zkp2pSolana.Instructions.Governance
import Zkp2pSolana.Instructions.RateManager
import Zkp2pSolana.Instructions.Whitelist
import Zkp2pSolana.Instructions.Verifier
import Zkp2pSolana.Instructions.Escrow
import Zkp2pSolana.Instructions.Stake
import Zkp2pSolana.Instructions.Orchestrator
import Zkp2pSolana.Instructions.Dispute
import Zkp2pSolana.Instructions.Settlement
import Zkp2pSolana.Program
import Zkp2pSolana.Signers
import Zkp2pSolana.Deployment
import Zkp2pSolana.Genesis
import Zkp2pSolana.Preflight
import Zkp2pSolana.TokenMoves
import Zkp2pSolana.Payout
import Zkp2pSolana.LifecycleSteps
import Zkp2pSolana.ConfigMoves
import Zkp2pSolana.StakeMoves
import Zkp2pSolana.CustodyMoves
import Zkp2pSolana.EscrowMoves
import Zkp2pSolana.PolicyMoves
import Zkp2pSolana.WhitelistMoves
import Zkp2pSolana.LifecycleMoves
import Zkp2pSolana.TokenFlow
import Zkp2pSolana.StakeLedger
import Zkp2pSolana.Resolution
import Zkp2pSolana.Custody
import Zkp2pSolana.Audit
import Zkp2pSolana.Admission
import Zkp2pSolana.Coverage
import Zkp2pSolana.Bindings
import Zkp2pSolana.DisputeHistory
import Zkp2pSolana.Availability
import Zkp2pSolana.TakerLimits
import Zkp2pSolana.ExitArithmetic
import Zkp2pSolana.Handover
import Zkp2pSolana.Succession
import Zkp2pSolana.Consent
import Zkp2pSolana.Payloads
import Zkp2pSolana.Digests
import Zkp2pSolana.Disputes
import Zkp2pSolana.Fingerprint
import Zkp2pSolana.Oversight
import Zkp2pSolana.FieldReduction
import Zkp2pSolana.Fees
import Zkp2pSolana.RecordWrites
import Zkp2pSolana.Listings
import Zkp2pSolana.Issuance
import Zkp2pSolana.AccessLists
import Zkp2pSolana.Witnesses
import Zkp2pSolana.Verification
import Zkp2pSolana.Outflow
import Zkp2pSolana.Expiry
import Zkp2pSolana.Rates
import Zkp2pSolana.Withdrawal
import Zkp2pSolana.Gating
import Zkp2pSolana.Aliasing
import Zkp2pSolana.Replay
import Zkp2pSolana.Snapshot
import Zkp2pSolana.Effects
import Zkp2pSolana.Commute
import Zkp2pSolana.Release
import Zkp2pSolana.Unwind
import Zkp2pSolana.WindDown
import Zkp2pSolana.StakeExit
import Zkp2pSolana.MadeWhole
import Zkp2pSolana.IntentLives
import Zkp2pSolana.Paused
import Zkp2pSolana.MarketRefinement
import Zkp2pSolana.Lib.Market
