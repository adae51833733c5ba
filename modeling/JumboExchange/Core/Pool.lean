import JumboExchange.Core.Account

/-!
# The pool interface `lib.rs` calls

`pool.rs`, `simple_pool.rs` and `stable_swap/` are absent, so a pool is any type with the
operations `lib.rs` calls on it, each failing with an `Error` where the pool panics, and
the contract is translated once over every such interface. The interface also reports the
`u32` id a pool keeps its LP records under, and which accounts they hold. The pool's side
of conservation and of slippage protection are properties of an interface.
-/

namespace JumboExchange

/-- The operations of `Pool` that `lib.rs` calls, and the reserve a pool holds. -/
structure PoolApi (Pool : Type) where
  /-- `Pool::tokens`: the pool's tokens, in the order of its amount vectors. -/
  tokens : Pool → List AccountId
  /-- The pool's reserve of a token, as the conservation law reads it. -/
  reserve : Pool → AccountId → Nat
  /-- `SimplePool::new(id, tokens, fee, exchange_fee, referral_fee)`. -/
  simplePoolNew : UInt32 → List AccountId → UInt32 → UInt32 → UInt32 → Except Error Pool
  /-- `StableSwapPool::new(id, tokens, decimals, amp_factor, fee)`. -/
  stableSwapPoolNew :
    UInt32 → List AccountId → List UInt8 → Nat → UInt32 → Except Error Pool
  /-- `Pool::share_register(account)`. -/
  shareRegister : Pool → AccountId → Except Error Pool
  /-- The `pool_id` of the `StorageKey::Shares` prefix the pool keeps its LP records under. -/
  sharesPoolId : Pool → UInt32
  /-- Whether the pool's LP records hold an account: `shares.contains_key(account)`. -/
  shareRegistered : Pool → AccountId → Bool
  /-- `Pool::swap(token_in, amount_in, token_out, min_amount_out, fees)`: `amount_out`. -/
  swap : Pool → AccountId → Nat → AccountId → Nat → AdminFees →
    Except Error (Nat × Pool)
  /-- `Pool::add_liquidity(sender, &mut amounts)`: the amounts it kept. -/
  addLiquidity : Pool → AccountId → List Nat → Except Error (List Nat × Pool)
  /-- `Pool::add_stable_liquidity(sender, amounts, min_shares, fees)`: the minted shares. -/
  addStableLiquidity :
    Pool → AccountId → List Nat → Nat → AdminFees → Except Error (Nat × Pool)
  /-- `Pool::remove_liquidity(sender, shares, min_amounts)`: the amounts paid out. -/
  removeLiquidity : Pool → AccountId → Nat → List Nat → Except Error (List Nat × Pool)
  /-- `Pool::remove_liquidity_by_tokens(sender, amounts, max_burn_shares, fees)`: the
  burned shares. -/
  removeLiquidityByTokens :
    Pool → AccountId → List Nat → Nat → AdminFees → Except Error (Nat × Pool)

namespace PoolApi

variable {Pool : Type} (api : PoolApi Pool)

/-- The hypothesis of the conservation law: a new pool holds nothing, and every operation
moves the reserves by exactly the amounts it takes or reports. -/
structure Conserving : Prop where
  simplePoolNew {id : UInt32} {ts : List AccountId} {fee ef rf : UInt32} {p : Pool} :
    api.simplePoolNew id ts fee ef rf = .ok p → ∀ t, api.reserve p t = 0
  stableSwapPoolNew {id : UInt32} {ts : List AccountId} {ds : List UInt8} {amp : Nat}
    {fee : UInt32} {p : Pool} :
    api.stableSwapPoolNew id ts ds amp fee = .ok p → ∀ t, api.reserve p t = 0
  shareRegister {p p' : Pool} {a : AccountId} :
    api.shareRegister p a = .ok p' → ∀ t, api.reserve p' t = api.reserve p t
  swap {p p' : Pool} {tIn tOut : AccountId} {ai m ao : Nat} {f : AdminFees} :
    api.swap p tIn ai tOut m f = .ok (ao, p') →
      ∀ t, api.reserve p' t + (if tOut = t then ao else 0) =
        api.reserve p t + (if tIn = t then ai else 0)
  addLiquidity {p p' : Pool} {s : AccountId} {xs ys : List Nat} :
    api.addLiquidity p s xs = .ok (ys, p') →
      ∀ t, api.reserve p' t = api.reserve p t + amountFor t (api.tokens p') ys
  addStableLiquidity {p p' : Pool} {s : AccountId} {xs : List Nat} {m n : Nat}
    {f : AdminFees} :
    api.addStableLiquidity p s xs m f = .ok (n, p') →
      ∀ t, api.reserve p' t = api.reserve p t + amountFor t (api.tokens p') xs
  removeLiquidity {p p' : Pool} {s : AccountId} {n : Nat} {ms ys : List Nat} :
    api.removeLiquidity p s n ms = .ok (ys, p') →
      ∀ t, api.reserve p' t + amountFor t (api.tokens p') ys = api.reserve p t
  removeLiquidityByTokens {p p' : Pool} {s : AccountId} {xs : List Nat} {m n : Nat}
    {f : AdminFees} :
    api.removeLiquidityByTokens p s xs m f = .ok (n, p') →
      ∀ t, api.reserve p' t + amountFor t (api.tokens p') xs = api.reserve p t

/-- The hypothesis of slippage protection: a swap pays out at least the minimum it is
given. -/
def EnforcesMinOut : Prop :=
  ∀ {p p' : Pool} {tIn tOut : AccountId} {ai m ao : Nat} {f : AdminFees},
    api.swap p tIn ai tOut m f = .ok (ao, p') → m ≤ ao

/-- `Σ` over the pools of their reserve of `token`. -/
def poolTotal : List Pool → AccountId → Nat
  | [], _ => 0
  | p :: ps, token => api.reserve p token + poolTotal ps token

@[simp] theorem poolTotal_append (pools : List Pool) (p : Pool) (token : AccountId) :
    api.poolTotal (pools ++ [p]) token = api.poolTotal pools token + api.reserve p token := by
  induction pools with
  | nil => simp [poolTotal]
  | cons q qs ih => rw [List.cons_append, poolTotal, poolTotal, ih, Nat.add_assoc]

/-- Replacing a pool changes the total by the difference of its two versions. -/
theorem poolTotal_set (token : AccountId) :
    ∀ (pools : List Pool) (i : Nat) {q : Pool}, pools[i]? = some q → ∀ p : Pool,
      api.poolTotal (pools.set i p) token + api.reserve q token =
        api.poolTotal pools token + api.reserve p token
  | [], _, _, h, _ => by simp at h
  | r :: rs, 0, q, h, p => by
    simp only [List.getElem?_cons_zero, Option.some.injEq] at h
    subst h
    simp only [poolTotal, List.set_cons_zero]
    omega
  | r :: rs, i + 1, q, h, p => by
    have ih := poolTotal_set token rs i (by simpa using h) p
    simp only [poolTotal, List.set_cons_succ] at ih ⊢
    omega

end PoolApi

end JumboExchange
