import Mezod.Lib.Go
import Mezod.Lib.Loop
import Mezod.Lib.Quorum
import Mezod.Lib.StateM
import Mezod.Lib.Counters
import Mezod.Lib.Dec
import Mezod.Bridge.Types.AssetsLocked
import Mezod.Comet.Types
import Mezod.Bridge.Abci.VoteExtension
import Mezod.Bridge.Abci.VoteCounter
import Mezod.Bridge.Abci.Extractor
import Mezod.Bridge.Abci.Proposal
import Mezod.Bridge.Keeper.Store
import Mezod.Bridge.Keeper.AssetsLocked
import Mezod.Bridge.Keeper.Triparty
import Mezod.Bridge.Keeper.Outflow
import Mezod.Bridge.Keeper.Genesis
import Mezod.Bridge.Keeper.Abci
import Mezod.Bridge.Keeper.Runs
import Mezod.Bridge.Keeper.AssetsUnlocked
import Mezod.Bridge.Keeper.Erc20
import Mezod.Poa.Keeper
import Mezod.Poa.Spec
import Mezod.Poa.Module
import Mezod.Poa.Invariant
import Mezod.Feemarket.BaseFee
import Mezod.Feemarket.Abci
import Mezod.Evm.TxLockdown
import Mezod.Erc20.Approve
import Mezod.Erc20.Permit
import Mezod.Evm.EstimateGas
import Mezod.Sidecar.AssetsLocked
import Mezod.Bridge.Abci.VoteExtensionHandler
import Mezod.App.Parts
import Mezod.App.VoteExtension
import Mezod.App.Proposal
import Mezod.Bridge.Abci.PreBlock
import Mezod.App.PreBlock
