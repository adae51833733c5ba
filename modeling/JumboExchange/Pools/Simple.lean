import JumboExchange.Contract.System

/-!
# A constant-product pool, and a host for it

Modelled from the spec: `simple_pool.rs` is absent. A simple pool holds two tokens, their
reserves and its LP shares (§3, §4.2); swaps follow the out-given-in rule, liquidity is
added in balance and removed pro rata, with `u128` subtractions checked. It is an instance
of the pool interface and satisfies the hypothesis of the conservation law. Its host
meters storage as NEAR does, and the scenarios of the witnesses run on it.
-/

namespace JumboExchange

/-- Modelled from the spec: a two-token constant-product pool. -/
structure SimplePool where
  /-- The `pool_id` of the `StorageKey::Shares` its LP shares are stored under. -/
  id : UInt32
  token0 : AccountId
  token1 : AccountId
  /-- The reserve of `token0`. -/
  amount0 : Nat
  /-- The reserve of `token1`. -/
  amount1 : Nat
  /-- The total fee, in basis points of `FEE_DIVISOR`. -/
  totalFee : UInt32
  /-- The LP share balance of each registered account. -/
  shares : AccountMap Nat
  sharesTotalSupply : Nat

namespace SimplePool

/-- The fee denominator: a fee of `25` is `0.25%`. -/
def FEE_DIVISOR : Nat := 10000

/-- The shares minted to the first liquidity provider. -/
def INIT_SHARES_SUPPLY : Nat := 10 ^ 24

/-- `SimplePool::new`: exactly two tokens, empty reserves, no shares. -/
def new (id : UInt32) (tokens : List AccountId) (totalFee : UInt32) : Except Error SimplePool :=
  match tokens with
  | [token0, token1] =>
    .ok { id, token0, token1, amount0 := 0, amount1 := 0, totalFee, shares := ∅,
          sharesTotalSupply := 0 }
  | _ => .error .wrongTokenCount

/-- The pool's tokens, in the order of its amount vectors. -/
def tokens (p : SimplePool) : List AccountId := [p.token0, p.token1]

/-- The reserve of a token: the amount paired with it. -/
def reserve (p : SimplePool) (token : AccountId) : Nat :=
  amountFor token p.tokens [p.amount0, p.amount1]

/-- What no operation of a pool changes: its id, its two tokens and its fee. -/
def config (p : SimplePool) : UInt32 × AccountId × AccountId × UInt32 :=
  (p.id, p.token0, p.token1, p.totalFee)

/-- `share_register`: a share balance of zero for a new account. -/
def shareRegister (p : SimplePool) (account : AccountId) : Except Error SimplePool :=
  if (p.shares.lookup account).isSome then .error .lpAlreadyRegistered
  else .ok { p with shares := p.shares.insert account 0 }

/-- The out-given-in rule of §4.2, for input reserve `x` and output reserve `y`. -/
def getAmountOut (fee amountIn x y : Nat) : Nat :=
  amountIn * (FEE_DIVISOR - fee) * y / (x * FEE_DIVISOR + amountIn * (FEE_DIVISOR - fee))

/-- One swap direction: the output and the two new reserves. -/
def swapReserves (fee amountIn minAmountOut x y : Nat) : Except Error (Nat × Nat × Nat) := do
  require (0 < amountIn) .zeroAmount
  require (0 < x ∧ 0 < y) .zeroLiquidity
  let amountOut := getAmountOut fee amountIn x y
  require (minAmountOut ≤ amountOut) .insufficientOutput
  pure (amountOut, x + amountIn, y - amountOut)

/-- `swap`, in whichever direction the two tokens name. -/
def swap (p : SimplePool) (tokenIn : AccountId) (amountIn : Nat) (tokenOut : AccountId)
    (minAmountOut : Nat) : Except Error (Nat × SimplePool) :=
  if tokenIn = tokenOut then .error .sameToken
  else if tokenIn = p.token0 ∧ tokenOut = p.token1 then
    swapReserves p.totalFee.toNat amountIn minAmountOut p.amount0 p.amount1 >>= fun r =>
      .ok (r.1, { p with amount0 := r.2.1, amount1 := r.2.2 })
  else if tokenIn = p.token1 ∧ tokenOut = p.token0 then
    swapReserves p.totalFee.toNat amountIn minAmountOut p.amount1 p.amount0 >>= fun r =>
      .ok (r.1, { p with amount0 := r.2.2, amount1 := r.2.1 })
  else .error .unknownToken

/-- Credit `n` new shares to `account`. -/
def mintShares (p : SimplePool) (account : AccountId) (n : Nat) : SimplePool :=
  { p with shares := p.shares.insert account ((p.shares.lookup account).getD 0 + n),
           sharesTotalSupply := p.sharesTotalSupply + n }

/-- `add_liquidity`: the first provider's amounts as given, later ones in balance with
the reserves, rounded up; returns the amounts taken. -/
def addLiquidity (p : SimplePool) (sender : AccountId) (amounts : List Nat) :
    Except Error (List Nat × SimplePool) :=
  match amounts with
  | [a0, a1] =>
    if p.sharesTotalSupply = 0 then
      if 0 < a0 ∧ 0 < a1 then
        .ok ([a0, a1], mintShares { p with amount0 := p.amount0 + a0, amount1 := p.amount1 + a1 }
          sender INIT_SHARES_SUPPLY)
      else .error .zeroAmount
    else
      let supply := p.sharesTotalSupply
      let minted := min (a0 * supply / p.amount0) (a1 * supply / p.amount1)
      let c0 := (minted * p.amount0 + supply - 1) / supply
      let c1 := (minted * p.amount1 + supply - 1) / supply
      if 0 < minted then
        .ok ([c0, c1], mintShares { p with amount0 := p.amount0 + c0, amount1 := p.amount1 + c1 }
          sender minted)
      else .error .zeroAmount
  | _ => .error .wrongTokenCount

/-- `remove_liquidity`: burn `shares` of the sender for the pro rata reserves, rounded
down; returns the amounts paid. -/
def removeLiquidity (p : SimplePool) (sender : AccountId) (shares : Nat)
    (minAmounts : List Nat) : Except Error (List Nat × SimplePool) :=
  match minAmounts with
  | [m0, m1] =>
    let held := (p.shares.lookup sender).getD 0
    let supply := p.sharesTotalSupply
    let a0 := shares * p.amount0 / supply
    let a1 := shares * p.amount1 / supply
    if shares ≤ held then
      if m0 ≤ a0 ∧ m1 ≤ a1 then
        if a0 ≤ p.amount0 ∧ a1 ≤ p.amount1 ∧ shares ≤ supply then
          .ok ([a0, a1],
            { p with
              amount0 := p.amount0 - a0, amount1 := p.amount1 - a1,
              shares := p.shares.insert sender (held - shares),
              sharesTotalSupply := supply - shares })
        else .error .mathOverflow
      else .error .insufficientOutput
    else .error .insufficientLPBalance
  | _ => .error .wrongTokenCount

/-- The reserve of a token is the amount of each side it names. -/
theorem reserve_eq (p : SimplePool) (t : AccountId) :
    p.reserve t =
      (if p.token0 = t then p.amount0 else 0) + (if p.token1 = t then p.amount1 else 0) := by
  simp [reserve, tokens, amountFor]

/-- A swap never pays out more than the output reserve. -/
theorem getAmountOut_le (fee amountIn x y : Nat) : getAmountOut fee amountIn x y ≤ y := by
  unfold getAmountOut
  exact Nat.div_le_of_le_mul (Nat.mul_le_mul_right y (Nat.le_add_left _ _))

/-- The spec's scenario S1: `10^24` in at reserves `5·10^24 : 10·10^24` and a 0.25% fee. -/
example : getAmountOut 25 (10 ^ 24) (5 * 10 ^ 24) (10 * 10 ^ 24) =
    1663192997082117548978741 := by decide

/-- One swap direction pays at least the minimum and at most the output reserve, and moves
both reserves. -/
theorem swapReserves_eq_ok {fee amountIn minOut x y out x' y' : Nat}
    (hs : swapReserves fee amountIn minOut x y = .ok (out, x', y')) :
    minOut ≤ out ∧ out ≤ y ∧ x' = x + amountIn ∧ y' = y - out := by
  obtain ⟨_, -, hs⟩ := Except.bind_eq_ok.mp hs
  obtain ⟨_, -, hs⟩ := Except.bind_eq_ok.mp hs
  obtain ⟨_, hm, hs⟩ := Except.bind_eq_ok.mp hs
  cases hs
  exact ⟨require_eq_ok.mp hm, getAmountOut_le .., rfl, rfl⟩

end SimplePool

/-- The pool interface of a deployment with simple pools only: a stable pool cannot be
built, and the stable-swap operations are not implemented for a simple pool. -/
def simplePools : PoolApi SimplePool where
  tokens := SimplePool.tokens
  reserve := SimplePool.reserve
  simplePoolNew id tokens fee _ _ := SimplePool.new id tokens fee
  stableSwapPoolNew _ _ _ _ _ := .error (.panic "not implemented")
  shareRegister := SimplePool.shareRegister
  sharesPoolId := SimplePool.id
  shareRegistered p account := (p.shares.lookup account).isSome
  swap p tokenIn amountIn tokenOut minAmountOut _ := p.swap tokenIn amountIn tokenOut minAmountOut
  addLiquidity := SimplePool.addLiquidity
  addStableLiquidity _ _ _ _ _ := .error (.panic "not implemented")
  removeLiquidity := SimplePool.removeLiquidity
  removeLiquidityByTokens _ _ _ _ _ := .error (.panic "not implemented")

namespace SimplePool

/-- Both swap directions move the reserves by exactly the amount in and the amount out. -/
theorem reserve_swap {p p' : SimplePool} {tIn tOut : AccountId} {ai m ao : Nat}
    (hs : p.swap tIn ai tOut m = .ok (ao, p')) (t : AccountId) :
    p'.reserve t + (if tOut = t then ao else 0) = p.reserve t + (if tIn = t then ai else 0) := by
  unfold swap at hs
  split_ifs at hs with hne hfwd hbwd
  all_goals first
    | cases hs
    | obtain ⟨⟨out, x, y⟩, hr, hs⟩ := Except.bind_eq_ok.mp hs
      cases hs
      obtain ⟨-, hle, rfl, rfl⟩ := swapReserves_eq_ok hr
      simp only [reserve_eq]
      split_ifs <;> simp_all

/-- Adding liquidity adds exactly the amounts it reports as taken. -/
theorem reserve_addLiquidity {p p' : SimplePool} {s : AccountId} {xs ys : List Nat}
    (hs : p.addLiquidity s xs = .ok (ys, p')) (t : AccountId) :
    p'.reserve t = p.reserve t + amountFor t p'.tokens ys := by
  unfold addLiquidity at hs
  split at hs
  · dsimp only at hs
    split_ifs at hs <;> cases hs <;>
      simp only [reserve_eq, tokens, mintShares, amountFor] <;> split_ifs <;> omega
  · cases hs

/-- Removing liquidity removes exactly the amounts it reports as paid. -/
theorem reserve_removeLiquidity {p p' : SimplePool} {s : AccountId} {n : Nat}
    {ms ys : List Nat} (hs : p.removeLiquidity s n ms = .ok (ys, p')) (t : AccountId) :
    p'.reserve t + amountFor t p'.tokens ys = p.reserve t := by
  unfold removeLiquidity at hs
  split at hs
  · dsimp only at hs
    split_ifs at hs with h₁ h₂ h₃
    cases hs
    simp only [reserve_eq, tokens, amountFor]
    split_ifs <;> omega
  · cases hs

/-- Registering a share account keeps the pool's id, tokens and fee; so do the other
operations. -/
theorem config_shareRegister {p p' : SimplePool} {a : AccountId}
    (hs : p.shareRegister a = .ok p') : p'.config = p.config := by
  unfold shareRegister at hs
  split at hs
  · cases hs
  · cases hs; rfl

theorem config_swap {p p' : SimplePool} {tIn tOut : AccountId} {ai m ao : Nat}
    (hs : p.swap tIn ai tOut m = .ok (ao, p')) : p'.config = p.config := by
  unfold swap at hs
  split_ifs at hs
  all_goals first
    | cases hs
    | obtain ⟨_, -, hs⟩ := Except.bind_eq_ok.mp hs
      cases hs; rfl

theorem config_addLiquidity {p p' : SimplePool} {s : AccountId} {xs ys : List Nat}
    (hs : p.addLiquidity s xs = .ok (ys, p')) : p'.config = p.config := by
  unfold addLiquidity at hs
  split at hs
  · dsimp only at hs
    split_ifs at hs <;> cases hs <;> rfl
  · cases hs

theorem config_removeLiquidity {p p' : SimplePool} {s : AccountId} {n : Nat}
    {ms ys : List Nat} (hs : p.removeLiquidity s n ms = .ok (ys, p')) :
    p'.config = p.config := by
  unfold removeLiquidity at hs
  split at hs
  · dsimp only at hs
    split_ifs at hs
    all_goals cases hs
    rfl
  · cases hs

end SimplePool

/-- A simple pool's swap pays out at least its minimum, in both directions. -/
theorem simplePools_enforcesMinOut : simplePools.EnforcesMinOut := by
  intro p p' tIn tOut ai m ao f hs
  change p.swap tIn ai tOut m = .ok (ao, p') at hs
  unfold SimplePool.swap at hs
  split_ifs at hs
  all_goals first
    | cases hs
    | obtain ⟨⟨out, x, y⟩, hr, hs⟩ := Except.bind_eq_ok.mp hs
      cases hs
      exact (SimplePool.swapReserves_eq_ok hr).1

/-- The simple pools meet the hypothesis of the conservation law. -/
theorem simplePools_conserving : simplePools.Conserving where
  simplePoolNew hs t := by
    simp only [simplePools, SimplePool.new] at hs
    split at hs
    · cases hs; simp [simplePools, SimplePool.reserve_eq]
    · cases hs
  stableSwapPoolNew hs := nomatch hs
  shareRegister hs t := by
    simp only [simplePools, SimplePool.shareRegister] at hs
    split at hs
    · cases hs
    · cases hs; rfl
  swap hs t := SimplePool.reserve_swap hs t
  addLiquidity hs t := SimplePool.reserve_addLiquidity hs t
  addStableLiquidity hs := nomatch hs
  removeLiquidity hs t := SimplePool.reserve_removeLiquidity hs t
  removeLiquidityByTokens hs := nomatch hs

/-! ## Storage

NEAR's `env::storage_usage()` counts each record of the contract's trie as its key, its
value and 40 bytes, and a byte costs `10^19` yoctoNEAR. The exchange's records are the
`STATE` record, the elements of each collection under its `StorageKey` prefix, the
`UnorderedMap` of each account's tokens, and the LP records of each pool. Sizes are
Borsh's, with the layouts of `near_sdk`'s collections; account ids are ASCII. -/

/-- Bytes NEAR charges for one record of the trie. -/
def recordBytes (key value : Nat) : Nat := 40 + key + value

/-- Borsh bytes of an account id: a `u32` length, then the id. -/
def idBytes (accountId : AccountId) : Nat := 4 + accountId.length

/-- Borsh bytes of a `StorageKey`: a one-byte tag, then its field. -/
def StorageKey.bytes : StorageKey → Nat
  | .shares _ => 1 + 4
  | .accountTokens accountId => 1 + idBytes accountId
  | _ => 1

/-- The `STATE` record: the owner, two fees, the headers of the four collections, the running
state, the AML account and the risk score. -/
def stateBytes (c : Contract SimplePool) : Nat :=
  recordBytes 5 (idBytes c.ownerId + 2 * 4 + (8 + 4 + 1) + (4 + 1) + 2 * ((4 + 2) + (8 + 4 + 2)) +
    1 + idBytes c.amlAccountId + 1)

/-- The records of an `UnorderedSet` of account ids: an index and an element per member. -/
def setBytes (members : List AccountId) : Nat :=
  (members.map fun m => recordBytes (2 + idBytes m) 8 + recordBytes (2 + 8) (idBytes m)).sum

/-- A ledger account's record under `StorageKey::Accounts`, and the index, key and balance
records of each of its tokens under `StorageKey::AccountTokens`. -/
def Account.storageBytes (accountId : AccountId) (a : Account) : Nat :=
  let p := StorageKey.bytes (.accountTokens accountId) + 1
  recordBytes (StorageKey.bytes .accounts + idBytes accountId)
      (1 + 16 + (4 + p) + 2 * (8 + 4 + p) + 8) +
    (a.tokens.keys.map fun t =>
      recordBytes (p + idBytes t) 8 + recordBytes (p + 8) (idBytes t) + recordBytes (p + 8) 16).sum

/-- A simple pool's element of the `Pools` vector, with the Borsh fields of `simple_pool.rs`,
and one `u128` LP record per registered account under `StorageKey::Shares`. -/
def SimplePool.storageBytes (p : SimplePool) : Nat :=
  recordBytes (StorageKey.bytes .pools + 8)
      (1 + (4 + idBytes p.token0 + idBytes p.token1) + (4 + 2 * 16) + (4 + 2 * 32) + 3 * 4 +
        (4 + StorageKey.bytes (.shares p.id)) + 16) +
    (p.shares.keys.map fun a => recordBytes (StorageKey.bytes (.shares p.id) + idBytes a) 16).sum

/-- `env::storage_usage()` of an exchange of simple pools. -/
def simpleStorageUsage (c : Contract SimplePool) : Nat :=
  stateBytes c + setBytes c.whitelistedTokens + setBytes c.guardians +
    (c.pools.map SimplePool.storageBytes).sum +
    (c.accounts.entries.map fun e => Account.storageBytes e.1 e.2).sum

/-- A host with simple pools, metered as NEAR meters the exchange's trie. -/
def simpleHost : Host SimplePool where
  pool := simplePools
  storageUsage := simpleStorageUsage
  storageByteCost := 10 ^ 19

/-- A fresh exchange `exchange` owned by `owner`, with the fees and the accepted risk
score of the contract's unit tests. -/
def freshExchange : World SimplePool := ⟨Contract.new "owner" 1600 400 "aml" 5, []⟩

/-- The fresh exchange starts a run. -/
theorem freshExchange_reachable : Reachable simpleHost "exchange" freshExchange :=
  .init _ _ _ _ _

/-- The answer of the AML contract that clears anyone: category `None`, risk 0. -/
def clearAnswer : PromiseResult := .successful (some ("None", 0))

/-- Alice registers with `tokA` and `tokB`, deposits 1000 of each, creates their pool and asks
to add 500 of each, attaching `10^22` yoctoNEAR to each call to cover its storage. -/
def aliceRequestRun : List Event :=
  [.adapter "alice" (10 ^ 22) .storageDeposit,
   .adapter "alice" 1 (.registerTokens ["tokA", "tokB"]),
   .adapter "alice" 0 (.ledgerDeposit "tokA" 1000),
   .adapter "alice" 0 (.ledgerDeposit "tokB" 1000),
   .call "alice" (10 ^ 22) (.addSimplePool ["tokA", "tokB"] 25),
   .call "alice" (10 ^ 22) (.addLiquidity 0 [500, 500] none)]

/-- The AML contract clears Alice's request; then Bob registers with `tokA` and deposits
100 of it. -/
def fundedRun : List Event :=
  aliceRequestRun ++
  [.answer 0 clearAnswer,
   .adapter "bob" (10 ^ 22) .storageDeposit,
   .adapter "bob" 1 (.registerTokens ["tokA"]),
   .adapter "bob" 0 (.ledgerDeposit "tokA" 100)]

/-- Alice creates and funds a second pool through the AML gate after the funded run. -/
def twoPoolsRun : List Event :=
  fundedRun ++
  [.call "alice" (10 ^ 22) (.addSimplePool ["tokA", "tokB"] 5),
   .call "alice" (10 ^ 22) (.addLiquidity 1 [200, 200] none),
   .answer 0 clearAnswer]

end JumboExchange
