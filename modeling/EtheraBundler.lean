import EtheraBundler.Lib.Prog
import EtheraBundler.Lib.Loop
import EtheraBundler.Lib.Budget
import EtheraBundler.Lib.Handler
import EtheraBundler.Lib.BigEndian
import EtheraBundler.Lib.Saturating
import EtheraBundler.Lib.Keccak
import EtheraBundler.Lib.Protocol
import EtheraBundler.Lib.Pool
import EtheraBundler.Lib.Progress
import EtheraBundler.Lib.Serial
import EtheraBundler.Lib.Layers
import EtheraBundler.Lib.Schema
import EtheraBundler.Lib.Hex
import EtheraBundler.Types
import EtheraBundler.Packing
import EtheraBundler.Effects
import EtheraBundler.Validator
import EtheraBundler.Provider
import EtheraBundler.Errors
import EtheraBundler.Bundler
import EtheraBundler.Mock
import EtheraBundler.Pipeline
import EtheraBundler.PackingProofs
import EtheraBundler.Prefund
import EtheraBundler.Fees
import EtheraBundler.Gate
import EtheraBundler.Exits
import EtheraBundler.Codes
import EtheraBundler.SubmitLock
import EtheraBundler.Cancel
import EtheraBundler.InFlight
import EtheraBundler.FeePolicy
import EtheraBundler.Windows
import EtheraBundler.Order
import EtheraBundler.Reverts
import EtheraBundler.OpIndex
import EtheraBundler.GasMargin
import EtheraBundler.Spec
import EtheraBundler.Receipt
import EtheraBundler.Budget
import EtheraBundler.Progress
import EtheraBundler.Backend
import EtheraBundler.OverRpc
import EtheraBundler.Accepted
import EtheraBundler.Serial
import EtheraBundler.Chain
import EtheraBundler.Atomic
import EtheraBundler.RpcPool
import EtheraBundler.Wire
import EtheraBundler.Rpc
import EtheraBundler.Service
import EtheraBundler.Client
