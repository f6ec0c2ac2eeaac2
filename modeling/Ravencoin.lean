import Ravencoin.Lib.ByteStream
import Ravencoin.Lib.KeyedSet
import Ravencoin.Lib.LRU
import Ravencoin.Serialize
import Ravencoin.Primitives
import Ravencoin.Script.Script
import Ravencoin.Base58
import Ravencoin.Script.Standard
import Ravencoin.Assets.Types
import Ravencoin.Assets.Names
import Ravencoin.Assets.Scripts
import Ravencoin.Script.ScriptNum
import Ravencoin.Script.Interpreter
import Ravencoin.Assets.Cache
import Ravencoin.Assets.CacheOps
import Ravencoin.Assets.Dump
import Ravencoin.Assets.Transactions
import Ravencoin.Assets.Encoding
import Ravencoin.Compressor
import Ravencoin.Coins
import Ravencoin.Consensus.TxVerify
import Ravencoin.Consensus.AssetSpend
import Ravencoin.Validation.Connect
import Ravencoin.Validation.Disconnect
import Ravencoin.Validation.Chain
import Ravencoin.Mempool.Pool
import Ravencoin.Mempool.Accept
import Ravencoin.Lib.Memo
import Ravencoin.VersionBits.Basic
import Ravencoin.VersionBits.Refinement
import Ravencoin.Coins.Stack
import Ravencoin.Coins.StackRefinement
import Ravencoin.Lib.ExceptRun
import Ravencoin.BlockIndex.Skip
import Ravencoin.Consensus.LockTime
import Ravencoin.Arith.Uint256
import Ravencoin.Consensus.Pow
import Ravencoin.Consensus.Merkle
import Ravencoin.Util.MoneyStr
import Ravencoin.Assets.CLRUCache
import Ravencoin.Lib.SetMap
import Ravencoin.Net.Orphans
import Ravencoin.Lib.GenFilter
import Ravencoin.Lib.Word64
import Ravencoin.Net.RollingBloom
import Ravencoin.Arith.BaseUint
import Ravencoin.Lib.PartialMap
import Ravencoin.Validation.Undo
import Ravencoin.Lib.Codec
import Ravencoin.Serialize.Codes
import Ravencoin.Primitives.Transaction
