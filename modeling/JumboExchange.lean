import JumboExchange.Core.Types
import JumboExchange.Core.Account
import JumboExchange.Core.Pool
import JumboExchange.Contract.State
import JumboExchange.Contract.Actions
import JumboExchange.Contract.Liquidity
import JumboExchange.Contract.Entry
import JumboExchange.Contract.System
import JumboExchange.Pools.Simple
import JumboExchange.Correctness.Route
import JumboExchange.Correctness.Authorization
import JumboExchange.Correctness.Conservation
import JumboExchange.Correctness.Callbacks
import JumboExchange.Correctness.Registry
import JumboExchange.Correctness.PoolIds
import JumboExchange.Correctness.Governance
import JumboExchange.Correctness.Pause
import JumboExchange.Correctness.Batches
import JumboExchange.Correctness.NearFlow
import JumboExchange.Correctness.AmlPath
import JumboExchange.Correctness.Isolation
import JumboExchange.Correctness.PoolFrame
import JumboExchange.Correctness.Independence
import JumboExchange.Correctness.Answers
import JumboExchange.Correctness.Interleaving
