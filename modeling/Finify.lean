import Finify.Admin.Base32
import Finify.Admin.Control
import Finify.Admin.FactorGuard
import Finify.Admin.SingleUse
import Finify.Aml.Interleaving
import Finify.Aml.Simulator
import Finify.Credit.BindingChoice
import Finify.Credit.CachedScores
import Finify.Credit.CommercialAudit
import Finify.Credit.ConditionConstants
import Finify.Credit.FourEyes
import Finify.Credit.ManualReview
import Finify.Credit.Policies
import Finify.Credit.UgandaMonotone
import Finify.Delivery.AccountedAttempts
import Finify.Delivery.ActiveIntegrations
import Finify.Delivery.MappingLaws
import Finify.Delivery.TokensInForce
import Finify.Eod.BalanceSheet
import Finify.Eod.Completion
import Finify.Eod.ConfigurationTiling
import Finify.Eod.CsvReports
import Finify.Eod.Independence
import Finify.Eod.Publication
import Finify.Eod.Scheduler
import Finify.Kyc.Decisions
import Finify.Kyc.Journeys
import Finify.Kyc.Portal
import Finify.Kyc.SanctionRuns
import Finify.Kyc.WalletGate
import Finify.Onboarding.Executability
import Finify.Onboarding.HandoffPaths
import Finify.Onboarding.Handoffs
import Finify.Onboarding.RequestHashes
import Finify.Onboarding.Retries
import Finify.Onboarding.Simulation
import Finify.Posting.ExactReversal
import Finify.Posting.Solvency
import Finify.Pricing.Currency
import Finify.Pricing.LegacyApprovals
import Finify.Pricing.MakerChecker
import Finify.Reference.Approvals
import Finify.Treasury.Runs
import Finify.Wallets.Iban
import Finify.Wallets.PinChanges
