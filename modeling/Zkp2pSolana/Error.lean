/-
`programs/zkp2p_solana/src/error.rs`: the program's own errors, and the errors
of the account framework and of the token program that a handler can return
before or instead of one of them.

A failed handler commits nothing, so no theorem below reads an error; they are
kept because a handler says which check it failed.
-/
import Zkp2pSolana.Lib.Result

set_option autoImplicit false

namespace Zkp2pSolana

/-- `error.rs`: errors name the exact rejected condition. -/
inductive Zkp2pError where
  | ZeroAddress
  | ZeroValue
  | Unauthorized
  | Paused
  | AlreadyInState
  | ArithmeticOverflow
  | ArrayLengthMismatch
  | InvalidRange
  | AmountBelowMinimum
  | AmountAboveMaximum
  | InsufficientBalance
  | FeeExceedsMaximum
  | DepositNotFound
  | DepositNotAcceptingIntents
  | IntentNotFound
  | IntentAlreadyExists
  | PaymentMethodNotSupported
  | CurrencyNotSupported
  | RateBelowMinimum
  | InvalidOracleQuote
  | InvalidSpread
  | AccountHasActiveIntent
  | MaximumIntentsExceeded
  | SignatureExpired
  | InvalidSignature
  | DataHashMismatch
  | IntentSnapshotMismatch
  | NullifierAlreadyExists
  | IntentAlreadyBound
  | InvalidPaymentBinding
  | InsufficientFreeStake
  | LockNotFound
  | LockAlreadyExists
  | InvalidMaturity
  | LockAlreadyMatured
  | ClaimsExceedLock
  | InvalidClaim
  | UnauthorizedStakeOwner
  | ControllerNotReady
  | DisputeProtectionDisabled
  | AdmissionsPaused
  | DisputeIntentNotPending
  | DisputeIntentNotSettled
  | NotReleaseEligible
  | IntentTokenMismatch
  | TakerNotWhitelisted
  | GroupNotFound
  | DepositAlreadyBootstrapped
  | TooManyGroups
  | InvalidTokenBalanceDelta
  | InvalidDeploymentDomain
  deriving DecidableEq, Repr

/-- What the account framework rejects before a handler runs. -/
inductive AnchorError where
  | AccountNotInitialized
  | AccountAlreadyInUse
  | AccountNotSigner
  | ConstraintSeeds
  | ConstraintHasOne
  | ConstraintAddress
  | ConstraintTokenMint
  | ConstraintTokenOwner
  | ConstraintDuplicateMutableAccount
  deriving DecidableEq, Repr

/-- What the token program rejects. -/
inductive TokenError where
  | InsufficientFunds
  | MintMismatch
  | OwnerMismatch
  | NonNativeHasBalance
  | Overflow
  deriving DecidableEq, Repr

/-- Everything an instruction can fail with. -/
inductive ProgramError where
  | zkp2p (e : Zkp2pError)
  | anchor (e : AnchorError)
  | token (e : TokenError)
  deriving DecidableEq, Repr

instance : Coe Zkp2pError ProgramError := ⟨.zkp2p⟩
instance : Coe AnchorError ProgramError := ⟨.anchor⟩
instance : Coe TokenError ProgramError := ⟨.token⟩

/-- The `Result<T>` of a handler. -/
abbrev ProgramResult (α : Type) := Except ProgramError α

end Zkp2pSolana
