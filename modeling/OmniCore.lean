import OmniCore.ContractPositions
import OmniCore.ContractSides
import OmniCore.ContractCollateral
import OmniCore.ContractMargin
import OmniCore.ContractFills
import OmniCore.ContractLive
import OmniCore.ContractRest
import OmniCore.ContractPriority
import OmniCore.ContractIsolation
import OmniCore.Lib.Exec
import OmniCore.Rollback
import OmniCore.TallyIteration
import OmniCore.ConsensusContract
import OmniCore.Reparse
import OmniCore.ActivationReload
import OmniCore.FreezeReload
import OmniCore.DExReserve
import OmniCore.PayloadBounds
import OmniCore.PayloadRoundTrip
import OmniCore.MetaDExFills
import OmniCore.ClassC
import OmniCore.ContractBasis
import OmniCore.ContractCalls
import OmniCore.ContractLimits
import OmniCore.ContractLiquidation
import OmniCore.ContractReserve
import OmniCore.MetaDExPasses
import OmniCore.MetaDExCancel
import OmniCore.MetaDExSold
import OmniCore.StateFiles
import OmniCore.Deactivation
import OmniCore.FreezeDisable
import OmniCore.DExTx
import OmniCore.DExUpdate
import OmniCore.DExPayment
import OmniCore.DExSoldOut
import OmniCore.OwnerShares
import OmniCore.CrowdsaleRun
import OmniCore.MetaDExPrices
import OmniCore.MetaDExShutdown
import OmniCore.MetaDExReserve
import OmniCore.MetaDExSettle
import OmniCore.MetaDExMarket
import OmniCore.SendAll
import OmniCore.StoHistory
import OmniCore.TradeRollback
import OmniCore.FeeHistory
import OmniCore.FeeRollback
import OmniCore.FeePayout
import OmniCore.TxListRollback
import OmniCore.AcceptsReload
import OmniCore.MarketReload
import OmniCore.BalancesReload
import OmniCore.StateSelection
import OmniCore.ReplayOrder
import OmniCore.EncodingFilter
import OmniCore.Sender
import OmniCore.Amounts
import OmniCore.Pending
import OmniCore.TallyRuns
import OmniCore.SanitizeUtf8
import OmniCore.Lib.Counts
import OmniCore.SendToOwnersTx
import OmniCore.Issuance
import OmniCore.TokenMoves
import OmniCore.MarketMoves
import OmniCore.DExMoves
import OmniCore.Accounting
import OmniCore.CrowdsaleMoves
import OmniCore.ManagedMoves
import OmniCore.Node
import OmniCore.SendMoves
import OmniCore.NodeRun
