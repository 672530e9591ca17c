import MidenAgglayer.Framework.Run
import MidenAgglayer.Framework.Bytes
import MidenAgglayer.Framework.Maps
import MidenAgglayer.Store.State
import MidenAgglayer.Synthesis.Events
import MidenAgglayer.Store.Claims
import MidenAgglayer.Store.Deposits
import MidenAgglayer.Safety.ClaimFencing
import MidenAgglayer.Safety.DepositIndex
import MidenAgglayer.Store.Ger
import MidenAgglayer.Safety.GerChain
import MidenAgglayer.Store.Nonces
import MidenAgglayer.Safety.NonceSlots
import MidenAgglayer.Store.Receipts
import MidenAgglayer.Safety.ReceiptLattice
import MidenAgglayer.Framework.Groups
import MidenAgglayer.Client.TransactionOrder
import MidenAgglayer.Safety.ExecutionChain
import MidenAgglayer.Service.SendRawTxn
import MidenAgglayer.Safety.AdmissionSlots
import MidenAgglayer.Synthesis.LogFilter
import MidenAgglayer.Store.Logs
import MidenAgglayer.Safety.LogQueries
import MidenAgglayer.Store.Faucets
import MidenAgglayer.Safety.FaucetRegistry
import MidenAgglayer.Framework.Limbs
import MidenAgglayer.Notes.Storage
import MidenAgglayer.Framework.Abi
import MidenAgglayer.Synthesis.BridgeCalldata
import MidenAgglayer.Framework.Windows
import MidenAgglayer.Projector.Reconcile
import MidenAgglayer.Safety.ReconcileSweep
import MidenAgglayer.Indexer.L1InfoTree
import MidenAgglayer.Safety.EvidenceScan
import MidenAgglayer.Faucet.TokenMetadata
import MidenAgglayer.Blocks.BlockState
import MidenAgglayer.Safety.HeaderCache
import MidenAgglayer.Notes.ClaimStorage
import MidenAgglayer.Safety.ClaimRoundTrip
import MidenAgglayer.Framework.Lru
import MidenAgglayer.Monitors.Trackers
import MidenAgglayer.Safety.MonitorCache
import MidenAgglayer.Monitors.ExpectedMint
import MidenAgglayer.Safety.StaleAlerts
import MidenAgglayer.Framework.Channel
import MidenAgglayer.Service.WriterWorker
import MidenAgglayer.Safety.WriterLifecycle
import MidenAgglayer.Framework.Runs
import MidenAgglayer.Store.Recovery
import MidenAgglayer.Service.OrphanRecovery
import MidenAgglayer.Safety.RecoverySweep
import MidenAgglayer.Framework.Sorting
import MidenAgglayer.Projector.Tick
import MidenAgglayer.Projector.Consumptions
import MidenAgglayer.Safety.LetPositions
