import PayEra.Lib.Transition
import PayEra.Lib.Soroban
import PayEra.Lib.Governance
import PayEra.Lib.Journal
import PayEra.Lib.Traps
import PayEra.Lib.Custody
import PayEra.Lib.Ledger
import PayEra.Lib.Async
import PayEra.Lib.Unwinding
import PayEra.Lib.Sessions
import PayEra.Lib.Protocol
import PayEra.Lib.Script
import PayEra.Lib.Transcript
import PayEra.Lib.Retry
import PayEra.Lib.Sequenced
import PayEra.Api.Stellar
import PayEra.Lib.Hex
import PayEra.Lib.Json
import PayEra.StarToken.Basic
import PayEra.StarToken.Effects
import PayEra.StarToken.Conservation
import PayEra.StarToken.Roles
import PayEra.StarToken.Authority
import PayEra.StarToken.Allowances
import PayEra.StarToken.Journal
import PayEra.StarToken.Answers
import PayEra.RewardEngine.Basic
import PayEra.RewardEngine.Effects
import PayEra.RewardEngine.Roles
import PayEra.RewardEngine.Accounting
import PayEra.RewardEngine.Journal
import PayEra.RewardEngine.Answers
import PayEra.PaymentEngine.Basic
import PayEra.PaymentEngine.Effects
import PayEra.PaymentEngine.Roles
import PayEra.PaymentEngine.Lifecycle
import PayEra.PaymentEngine.Terminal
import PayEra.PaymentEngine.Rewards
import PayEra.PaymentEngine.Failures
import PayEra.PaymentEngine.Journal
import PayEra.PaymentEngine.Answers
import PayEra.PaymentEngine.Prospects
import PayEra.MerchantRegistry.Basic
import PayEra.MerchantRegistry.Effects
import PayEra.MerchantRegistry.Roles
import PayEra.MerchantRegistry.Lifecycle
import PayEra.MerchantRegistry.Journal
import PayEra.MerchantRegistry.Answers
import PayEra.Governance
import PayEra.Administration
import PayEra.Api.Database
import PayEra.Api.Soroban
import PayEra.Api.Abi
import PayEra.Api.Backend
import PayEra.Api.Processor
import PayEra.Api.Transactions
import PayEra.Api.Playback
import PayEra.Api.Calls
import PayEra.Api.Answers
import PayEra.Api.Payout
import PayEra.Api.Outcome
import PayEra.Api.Payee
import PayEra.Api.Settlement
import PayEra.Api.OnChain
import PayEra.Api.Status
import PayEra.Api.Cancellation
import PayEra.Api.Forward
import PayEra.Api.Agreement
import PayEra.Api.Sessions
import PayEra.Api.Exclusive
import PayEra.Api.Stranded
import PayEra.Api.Decided
import PayEra.Api.Creation
import PayEra.Api.Controller
import PayEra.Api.Idempotency
import PayEra.Api.Histories
import PayEra.Api.Isolation
import PayEra.Api.EventLog
import PayEra.Api.Bookkeeping
import PayEra.Api.LogAgreement
import PayEra.Api.Merchants
import PayEra.Api.MerchantAgreement
import PayEra.Api.Accounts
import PayEra.Api.Escalation
import PayEra.Api.Wallets
import PayEra.Api.WalletEffects
import PayEra.Api.Suspension
import PayEra.Api.Ownership
import PayEra.Api.Forgery
import PayEra.Api.Logins
import PayEra.Api.Replay
import PayEra.Api.Rewards
import PayEra.Lib.Base64
import PayEra.Api.StoredHashes
import PayEra.Api.Rotation
import PayEra.Lib.Execution
import PayEra.Ramps.Database
import PayEra.Ramps.Provider
import PayEra.Ramps.Script
import PayEra.Ramps.Service
import PayEra.Ramps.Initiation
import PayEra.Ramps.Sessions
import PayEra.Ramps.Openings
import PayEra.Ramps.WriteOff
import PayEra.Ramps.Terminal
import PayEra.Ramps.Trail
import PayEra.Api.RewardLifecycle
import PayEra.Api.Referrals
import PayEra.Api.Kyc
import PayEra.PaymentEngine.Approval
import PayEra.Api.Submission
import PayEra.StarToken.FeeBurn
import PayEra.Api.Amounts
import PayEra.Ramps.Refresh
import PayEra.Ramps.Convergence
import PayEra.Lib.Rounds
import PayEra.Ramps.Fairness
import PayEra.Ramps.ReadThrough
import PayEra.Api.Deliveries
import PayEra.Api.PrimaryWallets
import PayEra.Api.WalletAddresses
import PayEra.Lib.FormUrlEncoded
import PayEra.Lib.Url
import PayEra.Lib.Decimal
import PayEra.Lib.Double
import PayEra.Web.Upi
import PayEra.Api.MerchantQrs
import PayEra.Web.UpiRoundTrip
import PayEra.Web.UpiGrammar
import PayEra.Web.Vpa
import PayEra.Web.TopUp
import PayEra.Lib.Calendar
import PayEra.Lib.Grouping
import PayEra.Api.TaxReport
import PayEra.Api.Analytics
import PayEra.Api.Aml
import PayEra.Api.Identifiers
import PayEra.Api.Pagination
import PayEra.Api.Listings
import PayEra.Api.Campaigns
import PayEra.Api.AccessTokens
import PayEra.Api.LiveRates
import PayEra.Api.Serialization
import PayEra.Sdk.ApiClient
