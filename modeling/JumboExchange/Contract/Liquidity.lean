import JumboExchange.Contract.Actions

/-!
# Liquidity operations

Adding liquidity runs from the AML callback on behalf of the requester: the pool takes
the amounts first, then the sender's account pays for them and the storage grown is
charged to the attached deposit. Removing liquidity is called directly: the pool pays
out and the predecessor's account, created if needed, is credited. Each operation has
one inversion lemma stating the pool it replaced, the account it saved, and the
receipts it sent.
-/

namespace JumboExchange

namespace Contract

variable {Pool : Type} (h : Host Pool) (env : Env)

/-- `assert_one_yocto`. -/
def assertOneYocto : Except Error Unit :=
  require (env.attachedDeposit = 1) (.panic "Requires attached deposit of exactly 1 yoctoNEAR")

/-- `internal_add_liquidity_unchecked`: the pool takes a balanced part of `amounts`, which
the sender pays from its deposits; the storage check refunds the rest of the deposit. -/
def internalAddLiquidityUnchecked (self : Contract Pool) (poolId : Nat) (amounts : List Nat)
    (senderId : AccountId) (minAmounts : Option (List Nat)) :
    Except Error (Contract Pool × List Promise) := do
  require (0 < env.attachedDeposit) (.panic "Requires attached deposit of at least 1 yoctoNEAR")
  let prevStorage := h.storageUsage self
  let pool ← expect self.pools[poolId]? "ERR_NO_POOL"
  let (amounts, pool) ← h.pool.addLiquidity pool senderId amounts
  require (∀ m ∈ minAmounts, ∀ p ∈ amounts.zip m, p.2 ≤ p.1) (.panic "ERR_MIN_AMOUNT")
  let tokens := h.pool.tokens pool
  let deposits ← (self.internalUnwrapOrDefaultAccount senderId).withdrawAll tokens amounts
  let self := self.internalSaveAccount senderId deposits
  let self := { self with pools := self.pools.set poolId pool }
  let promises ← self.internalCheckStorage h env prevStorage
  pure (self, promises)

/-- `internal_add_stable_liquidity_unchecked`: the pool takes all of `amounts` and mints
shares, which the sender pays from its deposits; returns the minted shares. -/
def internalAddStableLiquidityUnchecked (self : Contract Pool) (poolId : Nat)
    (amounts : List Nat) (minShares : Nat) (senderId : AccountId) :
    Except Error (Nat × Contract Pool × List Promise) := do
  require (0 < env.attachedDeposit) (.panic "Requires attached deposit of at least 1 yoctoNEAR")
  let prevStorage := h.storageUsage self
  let pool ← expect self.pools[poolId]? "ERR_NO_POOL"
  let (mintShares, pool) ← h.pool.addStableLiquidity pool senderId amounts minShares
    (AdminFees.new self.exchangeFee env)
  let tokens := h.pool.tokens pool
  let deposits ← (self.internalUnwrapOrDefaultAccount senderId).withdrawAll tokens amounts
  let self := self.internalSaveAccount senderId deposits
  let self := { self with pools := self.pools.set poolId pool }
  let promises ← self.internalCheckStorage h env prevStorage
  pure (mintShares, self, promises)

/-- Storage freed since `prevStorage` goes back to the account's NEAR balance. -/
def refundFreedStorage (self : Contract Pool) (prevStorage : Nat) (deposits : Account) :
    Account :=
  if h.storageUsage self < prevStorage then
    { deposits with
      nearAmount := deposits.nearAmount + (prevStorage - h.storageUsage self) * h.storageByteCost }
  else deposits

/-- `remove_liquidity`: burn the predecessor's shares and credit the amounts paid out. -/
def removeLiquidity (self : Contract Pool) (poolId shares : Nat) (minAmounts : List Nat) :
    Except Error (Contract Pool) := do
  assertOneYocto env
  self.assertContractRunning
  let prevStorage := h.storageUsage self
  let senderId := env.predecessorAccountId
  let pool ← expect self.pools[poolId]? "ERR_NO_POOL"
  let (amounts, pool) ← h.pool.removeLiquidity pool senderId shares minAmounts
  let self := { self with pools := self.pools.set poolId pool }
  let tokens := h.pool.tokens pool
  let deposits ← (self.internalUnwrapOrDefaultAccount senderId).depositAll tokens amounts
  pure (self.internalSaveAccount senderId (self.refundFreedStorage h prevStorage deposits))

/-- `remove_liquidity_by_tokens`: withdraw the requested amounts from a stable pool,
burning at most `maxBurnShares`; returns the burned shares. -/
def removeLiquidityByTokens (self : Contract Pool) (poolId : Nat) (amounts : List Nat)
    (maxBurnShares : Nat) : Except Error (Nat × Contract Pool) := do
  assertOneYocto env
  self.assertContractRunning
  let prevStorage := h.storageUsage self
  let senderId := env.predecessorAccountId
  let pool ← expect self.pools[poolId]? "ERR_NO_POOL"
  let (burnShares, pool) ← h.pool.removeLiquidityByTokens pool senderId amounts maxBurnShares
    (AdminFees.new self.exchangeFee env)
  let self := { self with pools := self.pools.set poolId pool }
  let tokens := h.pool.tokens pool
  let deposits ← (self.internalUnwrapOrDefaultAccount senderId).depositAll tokens amounts
  pure (burnShares,
    self.internalSaveAccount senderId (self.refundFreedStorage h prevStorage deposits))

/-- Refunding freed storage touches the NEAR balance only. -/
theorem refundFreedStorage_balance (self : Contract Pool) (prev : Nat) (a : Account)
    (token : AccountId) : (self.refundFreedStorage h prev a).balance token = a.balance token := by
  unfold refundFreedStorage; split <;> rfl

/-- The account loaded or created for `u` holds the ledger's balances of `u`. -/
theorem internalUnwrapOrDefaultAccount_balance (self : Contract Pool) (u token : AccountId) :
    (self.internalUnwrapOrDefaultAccount u).balance token =
      ledgerBalance self.accounts u token := by
  unfold internalUnwrapOrDefaultAccount ledgerBalance
  cases self.accounts.lookup u <;> rfl

/-- All a successful `internal_add_liquidity_unchecked` can have done: with a deposit
attached, the pool took amounts no smaller than the minimums, which the sender paid. -/
theorem internalAddLiquidityUnchecked_eq_ok {self self' : Contract Pool} {poolId : Nat}
    {amounts : List Nat} {senderId : AccountId} {minAmounts : Option (List Nat)}
    {ps : List Promise}
    (hs : self.internalAddLiquidityUnchecked h env poolId amounts senderId minAmounts
      = .ok (self', ps)) :
    0 < env.attachedDeposit ∧ ∃ pool pool' taken deposits, self.pools[poolId]? = some pool ∧
      h.pool.addLiquidity pool senderId amounts = .ok (taken, pool') ∧
      (∀ m ∈ minAmounts, ∀ p ∈ taken.zip m, p.2 ≤ p.1) ∧
      (self.internalUnwrapOrDefaultAccount senderId).withdrawAll (h.pool.tokens pool') taken
        = .ok deposits ∧
      self' = { self.internalSaveAccount senderId deposits with
        pools := self.pools.set poolId pool' } ∧
      self'.internalCheckStorage h env (h.storageUsage self) = .ok ps := by
  obtain ⟨_, hd, hs⟩ := Except.bind_eq_ok.mp hs
  obtain ⟨pool, hp, hs⟩ := Except.bind_eq_ok.mp hs
  obtain ⟨⟨taken, pool'⟩, ha, hs⟩ := Except.bind_eq_ok.mp hs
  obtain ⟨_, hm, hs⟩ := Except.bind_eq_ok.mp hs
  obtain ⟨deposits, hw, hs⟩ := Except.bind_eq_ok.mp hs
  obtain ⟨ps', hc, hs⟩ := Except.bind_eq_ok.mp hs
  cases hs
  exact ⟨require_eq_ok.mp hd, pool, pool', taken, deposits, expect_eq_ok.mp hp, ha,
    require_eq_ok.mp hm, hw, rfl, hc⟩

/-- All a successful `internal_add_stable_liquidity_unchecked` can have done: with a
deposit attached, the pool took all of `amounts`, which the sender paid. -/
theorem internalAddStableLiquidityUnchecked_eq_ok {self self' : Contract Pool} {poolId : Nat}
    {amounts : List Nat} {minShares shares : Nat} {senderId : AccountId} {ps : List Promise}
    (hs : self.internalAddStableLiquidityUnchecked h env poolId amounts minShares senderId
      = .ok (shares, self', ps)) :
    0 < env.attachedDeposit ∧ ∃ pool pool' deposits, self.pools[poolId]? = some pool ∧
      h.pool.addStableLiquidity pool senderId amounts minShares
        (AdminFees.new self.exchangeFee env) = .ok (shares, pool') ∧
      (self.internalUnwrapOrDefaultAccount senderId).withdrawAll (h.pool.tokens pool') amounts
        = .ok deposits ∧
      self' = { self.internalSaveAccount senderId deposits with
        pools := self.pools.set poolId pool' } ∧
      self'.internalCheckStorage h env (h.storageUsage self) = .ok ps := by
  obtain ⟨_, hd, hs⟩ := Except.bind_eq_ok.mp hs
  obtain ⟨pool, hp, hs⟩ := Except.bind_eq_ok.mp hs
  obtain ⟨⟨n, pool'⟩, ha, hs⟩ := Except.bind_eq_ok.mp hs
  obtain ⟨deposits, hw, hs⟩ := Except.bind_eq_ok.mp hs
  obtain ⟨ps', hc, hs⟩ := Except.bind_eq_ok.mp hs
  cases hs
  exact ⟨require_eq_ok.mp hd, pool, pool', deposits, expect_eq_ok.mp hp, ha, hw, rfl, hc⟩

/-- All a successful `remove_liquidity` can have done: it runs only with one yoctoNEAR
attached, while running, and credits the predecessor. -/
theorem removeLiquidity_eq_ok {self self' : Contract Pool} {poolId shares : Nat}
    {minAmounts : List Nat} (hs : self.removeLiquidity h env poolId shares minAmounts = .ok self') :
    env.attachedDeposit = 1 ∧ self.state = .running ∧
    ∃ pool pool' paid deposits, self.pools[poolId]? = some pool ∧
      h.pool.removeLiquidity pool env.predecessorAccountId shares minAmounts
        = .ok (paid, pool') ∧
      (self.internalUnwrapOrDefaultAccount env.predecessorAccountId).depositAll
        (h.pool.tokens pool') paid = .ok deposits ∧
      ∃ refunded,
        refunded = refundFreedStorage h { self with pools := self.pools.set poolId pool' }
          (h.storageUsage self) deposits ∧
        self' = internalSaveAccount { self with pools := self.pools.set poolId pool' }
          env.predecessorAccountId refunded := by
  obtain ⟨_, h1, hs⟩ := Except.bind_eq_ok.mp hs
  obtain ⟨_, hr, hs⟩ := Except.bind_eq_ok.mp hs
  obtain ⟨pool, hp, hs⟩ := Except.bind_eq_ok.mp hs
  obtain ⟨⟨paid, pool'⟩, ha, hs⟩ := Except.bind_eq_ok.mp hs
  obtain ⟨deposits, hd, hs⟩ := Except.bind_eq_ok.mp hs
  cases hs
  exact ⟨require_eq_ok.mp h1, assertContractRunning_eq_ok.mp hr, pool, pool', paid, deposits,
    expect_eq_ok.mp hp, ha, hd, _, rfl, rfl⟩

/-- All a successful `remove_liquidity_by_tokens` can have done. -/
theorem removeLiquidityByTokens_eq_ok {self self' : Contract Pool} {poolId maxBurn burn : Nat}
    {amounts : List Nat}
    (hs : self.removeLiquidityByTokens h env poolId amounts maxBurn = .ok (burn, self')) :
    env.attachedDeposit = 1 ∧ self.state = .running ∧
    ∃ pool pool' deposits, self.pools[poolId]? = some pool ∧
      h.pool.removeLiquidityByTokens pool env.predecessorAccountId amounts maxBurn
        (AdminFees.new self.exchangeFee env) = .ok (burn, pool') ∧
      (self.internalUnwrapOrDefaultAccount env.predecessorAccountId).depositAll
        (h.pool.tokens pool') amounts = .ok deposits ∧
      ∃ refunded,
        refunded = refundFreedStorage h { self with pools := self.pools.set poolId pool' }
          (h.storageUsage self) deposits ∧
        self' = internalSaveAccount { self with pools := self.pools.set poolId pool' }
          env.predecessorAccountId refunded := by
  obtain ⟨_, h1, hs⟩ := Except.bind_eq_ok.mp hs
  obtain ⟨_, hr, hs⟩ := Except.bind_eq_ok.mp hs
  obtain ⟨pool, hp, hs⟩ := Except.bind_eq_ok.mp hs
  obtain ⟨⟨n, pool'⟩, ha, hs⟩ := Except.bind_eq_ok.mp hs
  obtain ⟨deposits, hd, hs⟩ := Except.bind_eq_ok.mp hs
  cases hs
  exact ⟨require_eq_ok.mp h1, assertContractRunning_eq_ok.mp hr, pool, pool', deposits,
    expect_eq_ok.mp hp, ha, hd, _, rfl, rfl⟩

end Contract

end JumboExchange
