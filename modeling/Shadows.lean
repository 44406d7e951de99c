import Shadows.Foundations.ByteOrder
import Shadows.Foundations.Lineage
import Shadows.Foundations.Loops
import Shadows.Foundations.BackwardWalk
import Shadows.Foundations.Journal
import Shadows.Foundations.Runs
import Shadows.Foundations.Lifetimes
import Shadows.Foundations.Totals
import Shadows.Foundations.Choices
import Shadows.Foundations.Segments
import Shadows.Foundations.Pursuit
import Shadows.Foundations.Partial
import Shadows.Foundations.Bisection
import Shadows.Foundations.Approach
import Shadows.Foundations.ZeroExtension
import Shadows.Foundations.Blake2b
import Shadows.Primitives.Types
import Shadows.Primitives.Ethereum
import Shadows.Consensus.Digest
import Shadows.Consensus.Proofs.DigestProofs
import Shadows.Consensus.Proofs.OneLogProofs
import Shadows.Db.MappingDb
import Shadows.Db.WriteLog
import Shadows.Db.Proofs.WriteLogProofs
import Shadows.Db.Proofs.ContentsProofs
import Shadows.MappingSync.SyncOneBlock
import Shadows.MappingSync.Chain
import Shadows.MappingSync.SyncBlocks
import Shadows.MappingSync.ImportBlock
import Shadows.MappingSync.Worker
import Shadows.MappingSync.Proofs.SelectTipProofs
import Shadows.MappingSync.Proofs.SyncStepProofs
import Shadows.MappingSync.Proofs.CompletenessProofs
import Shadows.MappingSync.Proofs.ContentsProofs
import Shadows.MappingSync.Proofs.InterruptProofs
import Shadows.MappingSync.Proofs.SyncBlocksProofs
import Shadows.MappingSync.Proofs.ImportBlockProofs
import Shadows.MappingSync.Proofs.WorkerProofs
import Shadows.Evm.Account
import Shadows.Evm.StackState
import Shadows.Evm.Runner
import Shadows.Evm.Laws
import Shadows.Evm.Ledger
import Shadows.Evm.Currency
import Shadows.Evm.References
import Shadows.Evm.Frames
import Shadows.Evm.Fees
import Shadows.Evm.Flat
import Shadows.Evm.Proofs.JournalProofs
import Shadows.Evm.Proofs.RunnerProofs
import Shadows.Evm.Proofs.LedgerProofs
import Shadows.Evm.Proofs.TransferProofs
import Shadows.Evm.Proofs.PaymentProofs
import Shadows.Evm.Proofs.ReferenceProofs
import Shadows.Evm.Proofs.FrameProofs
import Shadows.Evm.Proofs.FeeProofs
import Shadows.Evm.Proofs.FlatProofs
import Shadows.Ethereum.Pallet
import Shadows.Ethereum.Blocks
import Shadows.Ethereum.Records
import Shadows.Ethereum.Histories
import Shadows.Ethereum.Chains
import Shadows.Ethereum.ValidateUnsigned
import Shadows.Ethereum.BlockWeights
import Shadows.Ethereum.Proofs.StoreBlockProofs
import Shadows.Ethereum.Proofs.AssemblyProofs
import Shadows.Ethereum.Proofs.RecordProofs
import Shadows.Ethereum.Proofs.DigestAgreementProofs
import Shadows.Ethereum.Proofs.ReplayProofs
import Shadows.Ethereum.Proofs.PreLogProofs
import Shadows.Ethereum.Proofs.BlockWeightProofs
import Shadows.Ethereum.Proofs.ValidationProofs
import Shadows.Ethereum.Proofs.FailureProofs
import Shadows.Ethereum.Proofs.ChainProofs
import Shadows.Ethereum.Proofs.IssuanceProofs
import Shadows.Ethereum.Proofs.FlatChainProofs
import Shadows.DynamicFee.Pallet
import Shadows.DynamicFee.Proofs.PalletProofs
import Shadows.Precompiles.Precompile
import Shadows.Precompiles.Modexp
import Shadows.Precompiles.Blake2
import Shadows.Precompiles.Bn128
import Shadows.Precompiles.Simple
import Shadows.Precompiles.Proofs.CostProofs
import Shadows.Precompiles.Proofs.ModexpProofs
import Shadows.Precompiles.Proofs.Blake2Proofs
import Shadows.Precompiles.Proofs.Bn128Proofs
import Shadows.Precompiles.Proofs.PairingProofs
import Shadows.Precompiles.Proofs.ECRecoverProofs
import Shadows.Rpc.Lookup
import Shadows.Rpc.Overrides
import Shadows.Rpc.Filters
import Shadows.Rpc.Logs
import Shadows.Rpc.FilterPool
import Shadows.Rpc.FilterRuns
import Shadows.Rpc.TopicMatching
import Shadows.Rpc.Receipts
import Shadows.Rpc.LogQueries
import Shadows.Rpc.LogSelection
import Shadows.Rpc.ExecutionFailure
import Shadows.Rpc.EstimateGas
import Shadows.Rpc.BlockIds
import Shadows.Rpc.TransactionCount
import Shadows.Rpc.RichBlocks
import Shadows.Rpc.IndexLookups
import Shadows.Rpc.TopicLoops
import Shadows.Rpc.BlockNumbers
import Shadows.Rpc.Proofs.LoadHashProofs
import Shadows.Rpc.Proofs.CanonicalHashProofs
import Shadows.Rpc.Proofs.LocateTransactionProofs
import Shadows.Rpc.Proofs.OverrideProofs
import Shadows.Rpc.Proofs.LogsProofs
import Shadows.Rpc.Proofs.FilterPoolProofs
import Shadows.Rpc.Proofs.FilterStepProofs
import Shadows.Rpc.Proofs.PollingProofs
import Shadows.Rpc.Proofs.CursorProofs
import Shadows.Rpc.Proofs.FilterIdProofs
import Shadows.Rpc.Proofs.TopicMatchingProofs
import Shadows.Rpc.Proofs.TopicPositionProofs
import Shadows.Rpc.Proofs.WildcardProofs
import Shadows.Rpc.Proofs.ReceiptProofs
import Shadows.Rpc.Proofs.CumulativeGasProofs
import Shadows.Rpc.Proofs.LogRangeProofs
import Shadows.Rpc.Proofs.TagProofs
import Shadows.Rpc.Proofs.LogSelectionProofs
import Shadows.Rpc.Proofs.ChainOrderProofs
import Shadows.Rpc.Proofs.RevertReasonProofs
import Shadows.Rpc.Proofs.EstimateGasProofs
import Shadows.Rpc.Proofs.SufficientGasProofs
import Shadows.Rpc.Proofs.PendingNonceProofs
import Shadows.Rpc.Proofs.RichBlockProofs
import Shadows.Rpc.Proofs.IndexLookupProofs
import Shadows.Rpc.Proofs.TopicLoopProofs
import Shadows.Rpc.Proofs.BlockObjectProofs
import Shadows.Rpc.Proofs.BlockRoundTripProofs
import Shadows.Rpc.PendingTransactions
import Shadows.Rpc.Proofs.PendingTransactionProofs
import Shadows.Rpc.Proofs.RuntimeChainProofs
import Shadows.Rpc.RuntimeChain
import Shadows.Rpc.ChainQueries
import Shadows.Rpc.Proofs.TransactionByHashProofs
import Shadows.Rpc.Proofs.ChainQueryProofs
import Shadows.Rpc.Proofs.TransactionReceiptProofs
import Shadows.Rpc.SendTransaction
import Shadows.Rpc.Proofs.SendTransactionProofs
import Shadows.Rpc.Subscriptions
import Shadows.Rpc.Proofs.SubscriptionProofs
import Shadows.Evm.Dispatch
import Shadows.Evm.Proofs.ContractProofs
import Shadows.Evm.Proofs.DispatchProofs
import Shadows.Ethereum.RuntimeBlocks
import Shadows.Ethereum.Proofs.CodelessProofs
import Shadows.Ethereum.Proofs.CustodyProofs
import Shadows.Rpc.Proofs.FilterLifeProofs
import Shadows.Rpc.FilterJson
import Shadows.Rpc.Proofs.FilterJsonProofs
import Shadows.Ethereum.Proofs.EndowmentProofs
import Shadows.Precompiles.PrecompileSet
import Shadows.Precompiles.Proofs.PrecompileSetProofs
import Shadows.Rpc.ExecutedLogs
import Shadows.Rpc.Proofs.ExecutedLogProofs
import Shadows.Foundations.KeyedFolds
import Shadows.Evm.Genesis
import Shadows.Evm.Proofs.GenesisProofs
import Shadows.Foundations.Tickets
import Shadows.Evm.Proofs.NonceProofs
import Shadows.Ethereum.Proofs.NonceOrderProofs
