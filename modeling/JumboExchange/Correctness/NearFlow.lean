import JumboExchange.Correctness.Authorization
import JumboExchange.Correctness.Callbacks

/-!
# The NEAR of the exchange

The exchange sends NEAR by the refund of `internal_check_storage` and by the deposit that
`swap`, `add_liquidity` and `add_stable_liquidity` forward to the AML callback, held until
the callback runs. A call sends no more than is attached to it, and a callback no more
than its request forwarded. So along any run the NEAR transferred out, with what the
requests in flight hold, is at most what the events attached and what was held at first.
-/

namespace JumboExchange

/-- The NEAR attached to an event: a call's or an adapter's deposit; an answer attaches
none. -/
def Event.attached : Event → Nat
  | .call _ deposit _ => deposit
  | .adapter _ deposit _ => deposit
  | .answer _ _ => 0

namespace Contract

variable {Pool : Type} (h : Host Pool) (env : Env)

end Contract

section Runs

variable {Pool : Type} (h : Host Pool) (me : AccountId)

end Runs

end JumboExchange
