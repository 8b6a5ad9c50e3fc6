import StoaCore.Crypto.Reencryption
import StoaCore.Network.CustomNode
import StoaCore.Signing.Coverage
import StoaCore.Signing.Preflight
import StoaCore.Network.RetryContract
import StoaCore.Network.ConfigErrors
import StoaCore.Signing.GasLimit
import StoaCore.Signing.GasPayer
import StoaCore.Signing.KeyRequests
import StoaCore.Guard.SmartAccountAuth
import StoaCore.Signing.AuthPaths
import StoaCore.Signing.SigningSteps
import StoaCore.Signing.FilledSlots
import StoaCore.Library.Js.Hex
import StoaCore.Cryptography.Base64Url
import StoaCore.Cryptography.CryptographyUtils
import StoaCore.Signing.VerifySignatures
import StoaCore.Signing.ForeignKeys
import StoaCore.Cryptography.KeyPairs
import StoaCore.Signing.Primitives
import StoaCore.Signing.ManualKeys
import StoaCore.Library.Tasks
import StoaCore.Library.OneShot
import StoaCore.Crypto.Interleaved
import StoaCore.Crypto.V1Advisory
import StoaCore.Library.Grid
import StoaCore.Library.Js.Strings
import StoaCore.Pact.Format
import StoaCore.Pact.DecimalLiterals
import StoaCore.Pact.Truncation
import StoaCore.Library.Js.ParseFloat
import StoaCore.Pact.EuropeanNumbers
import StoaCore.Gas.Calibration
import StoaCore.Signing.KeyEntry
import StoaCore.Library.Positions
import StoaCore.Signing.SlotStatus
import StoaCore.Library.Js.JsonSame
import StoaCore.Signing.EnvelopeCodec
import StoaCore.Crypto.Classification
import StoaCore.Signing.AllOrNothing
import StoaCore.Signing.PlacedSignatures
import StoaCore.Guard.Thresholds
import StoaCore.Library.Quorum
import StoaCore.Guard.Progressive
import StoaCore.Signing.DistinctKeys
import StoaCore.Wallet.KadenaWalletBuilder
import StoaCore.Library.Js.DecimalText
import StoaCore.Gas.AnuConversion
import StoaCore.Guard.KeysetRef
import StoaCore.Pact.EuropeanGroups
import StoaCore.Library.EventLoop
import StoaCore.Network.RunWithTimeout
import StoaCore.Network.DeadlineInvariant
import StoaCore.Network.DeadlineRuns
import StoaCore.Network.FailoverClient
import StoaCore.Network.ClientInvariant
import StoaCore.Network.ClientRuns
import StoaCore.Network.OutcomeSpec
import StoaCore.Client.PactCommand
import StoaCore.Client.TransactionBuilder
import StoaCore.Client.BuilderRefinement
import StoaCore.Client.BuilderRuns
import StoaCore.Client.BuilderContents
import StoaCore.Client.BuilderData
import StoaCore.Client.BuiltTransactions
import StoaCore.Client.InitialSigners
import StoaCore.Client.Polling
import StoaCore.Client.PollingRuns
import StoaCore.Client.PolledResults
import StoaCore.Client.PollingTimes
import StoaCore.HdWallet.KadenaEncryption
import StoaCore.HdWallet.Envelopes
import StoaCore.HdWallet.Slip10
import StoaCore.HdWallet.DerivedKeys
import StoaCore.HdWallet.Chainweaver
import StoaCore.HdWallet.ChainweaverKeys
import StoaCore.Wallet.MnemonicWallets
