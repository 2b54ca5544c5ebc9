import Trinity.Lib.Actions
import Trinity.Lib.BitSet
import Trinity.Lib.BranchBound
import Trinity.Lib.Bytes
import Trinity.Lib.Framing
import Trinity.Lib.Codec
import Trinity.Lib.Outcome
import Trinity.Lib.Counted
import Trinity.Lib.Dialog
import Trinity.Lib.Discovery
import Trinity.Lib.Gap
import Trinity.Lib.OrderedMap
import Trinity.Lib.Packing
import Trinity.Lib.Precedes
import Trinity.Lib.ShiftRegister
import Trinity.Lib.Shuffle
import Trinity.Lib.SlidingLedger
import Trinity.Lib.Word
import Trinity.Lib.Worklist
import Trinity.Lib.XChaCha
import Trinity.Bitcoin.Text
import Trinity.Bitcoin.Transaction
import Trinity.Bitcoin.Psbt
import Trinity.Verify.Descriptor
import Trinity.Verify.DescriptorFacts
import Trinity.Verify.ParserReturns
import Trinity.Verify.Checksum
import Trinity.Verify.Bip380
import Trinity.Verify.Derive
import Trinity.Verify.Checks
import Trinity.Verify.Sample
import Trinity.Verify.CheckFacts
import Trinity.Verify.Soundness
import Trinity.Verify.ChangeBinding
import Trinity.Verify.ChecksumDamage
import Trinity.Verify.Completeness
import Trinity.Verify.NeverAborts
import Trinity.Verify.Cost
import Trinity.Verify.DistinctCoins
import Trinity.Verify.Grammar
import Trinity.Verify.Search
import Trinity.Verify.KeyOrder
import Trinity.Verify.Loosening
import Trinity.Verify.ParserGrammar
import Trinity.Verify.ShownPayment
import Trinity.Keystore.Blob
import Trinity.Signer.Limits
import Trinity.Signer.Window
import Trinity.Signer.Sign
import Trinity.Signer.Local
import Trinity.Keystore.Seal
import Trinity.Signer.Allowance
import Trinity.Signer.Ledger
import Trinity.Signer.Runs
import Trinity.Signer.Retention
import Trinity.Signer.Booking
import Trinity.Signer.Charge
import Trinity.Signer.CoreState
import Trinity.Signer.CoreStateCanonical
import Trinity.Signer.Finalize
import Trinity.Signer.FinalizeSigned
import Trinity.Signer.KeyA
import Trinity.Signer.HonestKeys
import Trinity.Signer.HonestFinish
import Trinity.Signer.FinalizeShape
import Trinity.Signer.Handback
import Trinity.Signer.HonestSend
import Trinity.Signer.LocalFrame
import Trinity.Signer.Restart
import Trinity.Signer.ScanCost
import Trinity.Signer.SpendLimit
import Trinity.Signer.WindowTime
import Trinity.Signer.WallVeto
import Trinity.Signer.WindowChange
import Trinity.Chain.CbfBroadcast
import Trinity.Chain.TxGraph
import Trinity.Chain.CbfSync
import Trinity.Chain.CoreRpc
import Trinity.Chain.ScanExact
import Trinity.Chain.FullScan
import Trinity.Chain.CoreDialog
import Trinity.Chain.FullScanTip
import Trinity.Chain.LocalChain
import Trinity.Chain.SteadyNode
import Trinity.Chain.SyncEvictions
import Trinity.Chain.RpcFailures
import Trinity.Chain.StopGap
import Trinity.Watch.TxGraph
import Trinity.Watch.Canonical
import Trinity.Watch.CanonicalSpends
import Trinity.Watch.Base64
import Trinity.Watch.Build
import Trinity.Watch.CoinSelection
import Trinity.Watch.KeychainIndex
import Trinity.Watch.CreateTx
import Trinity.Watch.KeychainRuns
import Trinity.Watch.BranchAndBound
import Trinity.Watch.SelectedCoins
import Trinity.Watch.SelectionDecides
import Trinity.Watch.BuiltPsbt
import Trinity.Watch.BuiltPayment
import Trinity.Watch.PaymentDecides
import Trinity.Watch.WalletRuns
import Trinity.Watch.ReachableWallets
import Trinity.Watch.AcceptedPayment
import Trinity.Watch.DocumentText
import Trinity.Watch.SlotOrder
import Trinity.Watch.Verified
import Trinity.Watch.Document
import Trinity.Watch.DocumentOrder
import Trinity.Watch.FeeratePaid
import Trinity.Entropy.Sources
import Trinity.Entropy.Canonical
import Trinity.Entropy.Cards
