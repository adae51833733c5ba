import JumboExchange.Pools.Simple

/-!
# Conservation of every token

Over pools that move their reserves by exactly the amounts they take and report
(`PoolApi.Conserving`), no call of `lib.rs` creates or destroys a token: the ledger's total
of a token plus the pools' reserves of it is the same after every step as before. The
action loop keeps the sender's balance plus the reserves, and the liquidity operations
move amounts between one account and one pool.
-/

namespace JumboExchange

/-- The amount of `token` an adapter call deposits into the ledger. -/
def AdapterMethod.deposited (token : AccountId) : AdapterMethod → Nat
  | .ledgerDeposit t amount => if t = token then amount else 0
  | _ => 0

/-- The amount of `token` an adapter call withdraws from the ledger. -/
def AdapterMethod.withdrawn (token : AccountId) : AdapterMethod → Nat
  | .ledgerWithdraw t amount => if t = token then amount else 0
  | _ => 0

/-- The amount of `token` an event deposits into the ledger. -/
def Event.deposited (token : AccountId) : Event → Nat
  | .adapter _ _ m => m.deposited token
  | _ => 0

/-- The amount of `token` an event withdraws from the ledger. -/
def Event.withdrawn (token : AccountId) : Event → Nat
  | .adapter _ _ m => m.withdrawn token
  | _ => 0

namespace Contract

variable {Pool : Type} (h : Host Pool) (env : Env)

/-- All of `token` the exchange holds: the ledger's balances and the pools' reserves. -/
def tokenTotal (self : Contract Pool) (token : AccountId) : Nat :=
  ledgerTotal self.accounts token + h.pool.poolTotal self.pools token

/-- Saving an account for `u` changes the total by the difference of `u`'s two balances. -/
theorem tokenTotal_internalSaveAccount (self : Contract Pool) (u : AccountId) (a : Account)
    (t : AccountId) :
    (self.internalSaveAccount u a).tokenTotal h t + ledgerBalance self.accounts u t =
      self.tokenTotal h t + a.balance t := by
  have := ledgerTotal_insert self.accounts u a t
  simp only [tokenTotal, internalSaveAccount_accounts, internalSaveAccount_pools]
  omega

/-- The adapters change the total of a token by what they deposit and withdraw. -/
theorem callAdapter_tokenTotal {self c : Contract Pool} {m : AdapterMethod}
    (hs : self.callAdapter env m = .ok c) (t : AccountId) :
    c.tokenTotal h t + m.withdrawn t = self.tokenTotal h t + m.deposited t := by
  have hm := callAdapter_eq_ok env hs
  cases m with
  | storageDeposit =>
    obtain ⟨-, rfl⟩ := hm
    have h₁ := tokenTotal_internalSaveAccount h self env.predecessorAccountId
      { self.internalUnwrapOrDefaultAccount env.predecessorAccountId with
        nearAmount := (self.internalUnwrapOrDefaultAccount env.predecessorAccountId).nearAmount
          + env.attachedDeposit } t
    have h₂ := internalUnwrapOrDefaultAccount_balance self env.predecessorAccountId t
    simp only [AdapterMethod.withdrawn, AdapterMethod.deposited, Account.balance_nearAmount]
      at h₁ ⊢
    omega
  | registerTokens tokens =>
    obtain ⟨-, a, ha, rfl⟩ := hm
    have h₁ := tokenTotal_internalSaveAccount h self env.predecessorAccountId (a.register tokens) t
    have h₂ := ledgerBalance_of_lookup ha t
    simp only [AdapterMethod.withdrawn, AdapterMethod.deposited, Account.balance_register] at h₁ ⊢
    omega
  | ledgerDeposit =>
    obtain ⟨-, a, a', ha, -, hd, rfl⟩ := hm
    have h₁ := tokenTotal_internalSaveAccount h self env.predecessorAccountId a' t
    have h₂ := Account.balance_deposit hd t
    have h₃ := ledgerBalance_of_lookup ha t
    simp only [AdapterMethod.withdrawn, AdapterMethod.deposited]
    omega
  | ledgerWithdraw =>
    obtain ⟨-, a, a', ha, hw, rfl⟩ := hm
    have h₁ := tokenTotal_internalSaveAccount h self env.predecessorAccountId a' t
    have h₂ := Account.balance_withdraw hw t
    have h₃ := ledgerBalance_of_lookup ha t
    simp only [AdapterMethod.withdrawn, AdapterMethod.deposited]
    omega
  | changeState =>
    obtain ⟨-, rfl⟩ := hm
    rfl

/-- Paying `xs` from the account of `sender` into the pool at `poolId`, which takes exactly
them, keeps the total of every token. -/
theorem tokenTotal_payIn {self : Contract Pool} {poolId : Nat} {pool pool' : Pool}
    {sender : AccountId} {xs : List Nat} {deposits : Account}
    (hp : self.pools[poolId]? = some pool)
    (hr : ∀ t, h.pool.reserve pool' t =
      h.pool.reserve pool t + amountFor t (h.pool.tokens pool') xs)
    (hw : (self.internalUnwrapOrDefaultAccount sender).withdrawAll (h.pool.tokens pool') xs
      = .ok deposits) (t : AccountId) :
    ({ self.internalSaveAccount sender deposits with pools := self.pools.set poolId pool' } :
      Contract Pool).tokenTotal h t = self.tokenTotal h t := by
  have h₁ := h.pool.poolTotal_set t self.pools _ hp pool'
  have h₂ := hr t
  have h₃ := Account.balance_withdrawAll hw t
  have h₄ := ledgerTotal_insert self.accounts sender deposits t
  rw [internalUnwrapOrDefaultAccount_balance] at h₃
  simp only [tokenTotal, internalSaveAccount_accounts]
  omega

/-- Paying `xs` out of the pool at `poolId`, which gives exactly them, into the account of
`receiver` keeps the total of every token, whatever NEAR the account is refunded. -/
theorem tokenTotal_payOut {self : Contract Pool} {poolId : Nat} {pool pool' : Pool}
    {receiver : AccountId} {xs : List Nat} {deposits refunded : Account}
    (hp : self.pools[poolId]? = some pool)
    (hr : ∀ t, h.pool.reserve pool' t + amountFor t (h.pool.tokens pool') xs =
      h.pool.reserve pool t)
    (hd : (self.internalUnwrapOrDefaultAccount receiver).depositAll (h.pool.tokens pool') xs
      = .ok deposits)
    (hf : ∀ t, refunded.balance t = deposits.balance t) (t : AccountId) :
    (internalSaveAccount { self with pools := self.pools.set poolId pool' } receiver
      refunded).tokenTotal h t = self.tokenTotal h t := by
  have h₁ := h.pool.poolTotal_set t self.pools _ hp pool'
  have h₂ := hr t
  have h₃ := Account.balance_depositAll hd t
  have h₄ := ledgerTotal_insert self.accounts receiver refunded t
  have h₅ := hf t
  rw [internalUnwrapOrDefaultAccount_balance] at h₃
  simp only [tokenTotal, internalSaveAccount_accounts, internalSaveAccount_pools]
  omega

section Conserving

variable (hc : h.pool.Conserving)
include hc

/-- A pool swap adds the input to the reserves and takes the output from them. -/
theorem internalPoolSwap_poolTotal {self self' : Contract Pool} {poolId : Nat}
    {tokenIn tokenOut : AccountId} {amountIn minAmountOut amountOut : Nat}
    {referralId : Option AccountId}
    (hs : self.internalPoolSwap h env poolId tokenIn amountIn tokenOut minAmountOut referralId
      = .ok (amountOut, self')) (t : AccountId) :
    h.pool.poolTotal self'.pools t + (if tokenOut = t then amountOut else 0) =
      h.pool.poolTotal self.pools t + (if tokenIn = t then amountIn else 0) := by
  obtain ⟨pool, pool', hp, hw, rfl⟩ := internalPoolSwap_eq_ok h env hs
  have h₁ := h.pool.poolTotal_set t self.pools poolId hp pool'
  have h₂ := hc.swap hw t
  dsimp only
  omega

/-- The action loop keeps the sender's balance plus the reserves, of every token. -/
theorem internalExecuteActions_conserves (referralId : Option AccountId) (t : AccountId) :
    ∀ (actions : List Action) (self : Contract Pool) (account : Account) (prev : ActionResult)
      {result : ActionResult} {self' : Contract Pool} {account' : Account},
      self.internalExecuteActions h env account referralId actions prev
        = .ok (result, self', account') →
      account'.balance t + h.pool.poolTotal self'.pools t =
        account.balance t + h.pool.poolTotal self.pools t
  | [], _, _, _, _, _, _, hs => by cases hs; rfl
  | .swap a :: actions, self, account, prev, result, self', account', hs => by
    rw [internalExecuteActions_cons] at hs
    obtain ⟨⟨r, c, acc⟩, ha, hs⟩ := Except.bind_eq_ok.mp hs
    obtain ⟨_, _, _, -, hw, hp, hd, -⟩ := internalExecuteAction_eq_ok h env ha
    have h₁ := Account.balance_withdraw_deposit hw hd t
    have h₃ := internalPoolSwap_poolTotal h env hc hp t
    have h₄ := internalExecuteActions_conserves referralId t actions c acc r hs
    omega

/-- `execute_actions` keeps the total of every token. -/
theorem executeActions_tokenTotal {self self' : Contract Pool} {actions : List Action}
    {referralId : Option AccountId} {senderId : AccountId} {result : ActionResult}
    (hs : self.executeActions h env actions referralId senderId = .ok (result, self'))
    (t : AccountId) : self'.tokenTotal h t = self.tokenTotal h t := by
  obtain ⟨-, account, c, account', ha, -, he, rfl⟩ := executeActions_eq_ok h env hs
  have hacc : c.accounts = self.accounts :=
    (congrArg accounts
      (internalExecuteActions_pools_only h env referralId actions self account .none he)).trans rfl
  have h₁ := internalExecuteActions_conserves h env hc referralId t actions self account .none he
  have h₂ := ledgerTotal_insert self.accounts senderId account' t
  have h₃ := ledgerBalance_of_lookup ha t
  simp only [tokenTotal, internalSaveAccount_accounts, internalSaveAccount_pools, hacc]
  omega

/-- An operation run by the AML callback keeps the total of every token. -/
theorem RanOperation.tokenTotal {self self' : Contract Pool} {operation : AmlOperation}
    {senderId : AccountId} {ps : List Promise}
    (ho : self.RanOperation h env self' operation senderId ps) (t : AccountId) :
    self'.tokenTotal h t = self.tokenTotal h t := by
  cases operation with
  | swap =>
    obtain ⟨-, _, hu⟩ := ho
    obtain ⟨_, he, -⟩ := internalSwapUnchecked_eq_ok h env hu
    exact executeActions_tokenTotal h env hc he t
  | addLiquidity =>
    obtain ⟨-, _, _, _, _, hp, ha, -, hw, rfl, -⟩ := internalAddLiquidityUnchecked_eq_ok h env ho
    exact tokenTotal_payIn h hp (hc.addLiquidity ha) hw t
  | addStableLiquidity =>
    obtain ⟨_, ho⟩ := ho
    obtain ⟨-, _, _, _, hp, ha, hw, rfl, -⟩ := internalAddStableLiquidityUnchecked_eq_ok h env ho
    exact tokenTotal_payIn h hp (hc.addStableLiquidity ha) hw t

/-- Appending a new, share-registered pool keeps the total of every token. -/
theorem tokenTotal_append_new {self : Contract Pool} {pool p : Pool}
    (hn : ∀ t, h.pool.reserve pool t = 0)
    (hp : h.pool.shareRegister pool env.currentAccountId = .ok p) (t : AccountId) :
    ({ self with pools := self.pools ++ [p] } : Contract Pool).tokenTotal h t =
      self.tokenTotal h t := by
  simp only [tokenTotal, PoolApi.poolTotal_append, hc.shareRegister hp t, hn t, Nat.add_zero]

/-- Every successful call of a public method keeps the total of every token. -/
theorem call_tokenTotal {self self' : Contract Pool} {m : Method} {ps : List Promise}
    (hs : self.call h env m = .ok (self', ps)) (t : AccountId) :
    self'.tokenTotal h t = self.tokenTotal h t := by
  have hm := call_eq_ok h env hs
  cases m with
  | addSimplePool =>
    obtain ⟨_, ha⟩ := hm
    obtain ⟨-, -, _, _, hn, hp, rfl, -⟩ := addSimplePool_eq_ok h env ha
    exact tokenTotal_append_new h env hc (hc.simplePoolNew hn)
      ((shareRegisterStored_eq_ok h).mp hp).2 t
  | addStableSwapPool =>
    obtain ⟨_, ha⟩ := hm
    obtain ⟨-, -, _, _, hn, hp, rfl, -⟩ := addStableSwapPool_eq_ok h env ha
    exact tokenTotal_append_new h env hc (hc.stableSwapPoolNew hn)
      ((shareRegisterStored_eq_ok h).mp hp).2 t
  | executeActions =>
    obtain ⟨-, _, he⟩ := hm
    exact executeActions_tokenTotal h env hc he t
  | updateAmlAccountId | updateAcceptedRiskScore =>
    obtain ⟨-, -, -, rfl, -⟩ := hm
    rfl
  | callbackAmlOperation =>
    obtain ⟨_, _, -, -, ho⟩ := callbackAmlOperation_eq_ok h env hm.2
    exact ho.tokenTotal h env hc t
  | swap | addLiquidity | addStableLiquidity =>
    obtain ⟨-, rfl, -⟩ := hm
    rfl
  | removeLiquidity =>
    obtain ⟨-, -, _, _, _, _, hp, ha, hd, _, rfl, rfl⟩ := removeLiquidity_eq_ok h env hm.2
    exact tokenTotal_payOut h hp (hc.removeLiquidity ha) hd (refundFreedStorage_balance h _ _ _) t
  | removeLiquidityByTokens =>
    obtain ⟨_, he⟩ := hm.2
    obtain ⟨-, -, _, _, _, hp, ha, hd, _, rfl, rfl⟩ := removeLiquidityByTokens_eq_ok h env he
    exact tokenTotal_payOut h hp (hc.removeLiquidityByTokens ha) hd
      (refundFreedStorage_balance h _ _ _) t

end Conserving

end Contract

section Runs

variable {Pool : Type} (h : Host Pool) (me : AccountId) (hc : h.pool.Conserving)
include hc

/-- Every step through `lib.rs` keeps the total of every token. -/
theorem LibStep.tokenTotal {w w' : World Pool} (hs : LibStep h me w w') (t : AccountId) :
    w'.contract.tokenTotal h t = w.contract.tokenTotal h t := by
  cases hs with
  | call _ _ _ _ hc' => exact Contract.call_tokenTotal h _ hc hc' t
  | callback _ _ _ _ hc' => exact Contract.call_tokenTotal h _ hc hc' t
  | callbackFails => rfl

/-- Ledger conservation across whole runs: over conserving pools, any interleaving of calls
of `lib.rs` and AML callbacks keeps the ledger's balances plus the pools' reserves. -/
theorem libRun_tokenTotal {w w' : World Pool} (hr : Relation.ReflTransGen (LibStep h me) w w')
    (t : AccountId) : w'.contract.tokenTotal h t = w.contract.tokenTotal h t := by
  induction hr with
  | refl => rfl
  | tail _ hs ih => exact (hs.tokenTotal h me hc t).trans ih

end Runs

/-- After the funded run, Bob's `execute_actions` swaps 100 of his `tokA` in pool 0: a step
of a run that moves them from his ledger into the pool, and keeps the total of `tokA`. -/
theorem libRun_tokenTotal_bobSwap :
    ∃ w w', Reachable simpleHost "exchange" w ∧
      Relation.ReflTransGen (LibStep simpleHost "exchange") w w' ∧
      ledgerBalance w'.contract.accounts "bob" "tokA" + 100 =
        ledgerBalance w.contract.accounts "bob" "tokA" ∧
      w'.contract.pools[0]?.map (simplePools.reserve · "tokA") =
        (w.contract.pools[0]?.map (simplePools.reserve · "tokA")).map (· + 100) ∧
      w'.contract.tokenTotal simpleHost "tokA" = w.contract.tokenTotal simpleHost "tokA" := by
  obtain ⟨w, w', hw, hn, hb, hp⟩ := freshExchange_reachable.exists_next_of_run simpleHost
    "exchange" fundedRun (.call "bob" 1 (.executeActions [.swap ⟨0, "tokA", some 100, "tokB", 0⟩]
      none "bob"))
    (fun w w' => ledgerBalance w'.contract.accounts "bob" "tokA" + 100 =
        ledgerBalance w.contract.accounts "bob" "tokA" ∧
      w'.contract.pools[0]?.map (simplePools.reserve · "tokA") =
        (w.contract.pools[0]?.map (simplePools.reserve · "tokA")).map (· + 100)) (by decide)
  obtain ⟨hne, ps, hc⟩ := World.next_call_eq_some simpleHost "exchange" hn
  have hr := Relation.ReflTransGen.single (LibStep.call "bob" 1 _ hne hc)
  exact ⟨w, _, hw, hr, hb, hp,
    libRun_tokenTotal simpleHost "exchange" simplePools_conserving hr "tokA"⟩

section Events

variable {Pool : Type} (h : Host Pool) (me : AccountId) (hc : h.pool.Conserving)
include hc

/-- Every event keeps the total of every token, up to what it deposits and withdraws. -/
theorem World.next_tokenTotal {w w' : World Pool} {e : Event} (hn : w.next h me e = some w')
    (t : AccountId) :
    w'.contract.tokenTotal h t + e.withdrawn t = w.contract.tokenTotal h t + e.deposited t := by
  cases e with
  | call =>
    obtain ⟨-, _, hc'⟩ := World.next_call_eq_some h me hn
    exact congrArg (· + 0) (Contract.call_tokenTotal h _ hc hc' t)
  | adapter => exact Contract.callAdapter_tokenTotal h _ (World.next_adapter_eq_some h me hn).2 t
  | answer =>
    obtain ⟨_, -, heq | ⟨_, hc'⟩⟩ := World.next_answer_eq_some h me hn
    · rw [heq]; rfl
    · exact congrArg (· + 0) (Contract.call_tokenTotal h _ hc hc' t)

/-- The spec's conservation law: over conserving pools, along every run of events, the total
of a token changes by exactly the amounts deposited minus the amounts withdrawn. -/
theorem World.run_tokenTotal : ∀ {w w' : World Pool} {es : List Event},
    w.run h me es = some w' → ∀ t, w'.contract.tokenTotal h t + (es.map (·.withdrawn t)).sum =
      w.contract.tokenTotal h t + (es.map (·.deposited t)).sum
  | _, _, [], hr, _ => by cases hr; rfl
  | _, _, _ :: _, hr, t => by
    obtain ⟨_, hn, hr⟩ := Option.bind_eq_some.mp hr
    have h₁ := World.next_tokenTotal h me hc hn t
    have h₂ := World.run_tokenTotal hr t
    simp only [List.map_cons, List.sum_cons]
    omega

end Events

/-- Over the funded run, the `tokA` the exchange holds is what was deposited. -/
theorem fundedRun_tokenTotal :
    ∃ w', freshExchange.run simpleHost "exchange" fundedRun = some w' ∧
      w'.contract.tokenTotal simpleHost "tokA" + (fundedRun.map (·.withdrawn "tokA")).sum =
        freshExchange.contract.tokenTotal simpleHost "tokA" +
          (fundedRun.map (·.deposited "tokA")).sum := by
  obtain ⟨w', hw'⟩ := Option.isSome_iff_exists.mp
    (by decide : (freshExchange.run simpleHost "exchange" fundedRun).isSome = true)
  exact ⟨w', hw', World.run_tokenTotal simpleHost "exchange" simplePools_conserving hw' "tokA"⟩

end JumboExchange
