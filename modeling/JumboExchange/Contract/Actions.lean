import JumboExchange.Contract.State

/-!
# The action loop

`execute_actions` loads the sender's account once, runs `internal_execute_actions` over
it, and saves it back. Each action withdraws its input, swaps it in its pool and deposits
the output, threading the output to the next action as `prev_result`. Each function has
one inversion lemma, and later proofs cite it. The loop reads no ledger account but the one
it is handed, and a swap no pool but its own.
-/

namespace JumboExchange

/-- The amount `prev_result` carries, if any. -/
def ActionResult.amount? : ActionResult → Option Nat
  | .none => Option.none
  | .amount v => some v

/-- `to_amount` succeeds exactly on an amount, and returns it. -/
theorem ActionResult.toAmount_eq_ok {r : ActionResult} {x : Nat} :
    r.toAmount = .ok x ↔ r.amount? = some x := by
  cases r <;> simp [toAmount, amount?]

namespace Contract

variable {Pool : Type} (h : Host Pool) (env : Env)

/-- `internal_pool_swap`: swap in the stored pool and store it back. -/
def internalPoolSwap (self : Contract Pool) (poolId : Nat) (tokenIn : AccountId)
    (amountIn : Nat) (tokenOut : AccountId) (minAmountOut : Nat)
    (referralId : Option AccountId) : Except Error (Nat × Contract Pool) := do
  let pool ← expect self.pools[poolId]? "ERR_NO_POOL"
  let (amountOut, pool) ← h.pool.swap pool tokenIn amountIn tokenOut minAmountOut
    { exchangeFee := self.exchangeFee, exchangeId := env.currentAccountId,
      referralFee := self.referralFee, referralId }
  pure (amountOut, { self with pools := self.pools.set poolId pool })

/-- `internal_execute_action`: withdraw the input (the action's own amount, else the previous
result), swap it, deposit the output, and return the output as the new result. -/
def internalExecuteAction (self : Contract Pool) (account : Account)
    (referralId : Option AccountId) : Action → ActionResult →
      Except Error (ActionResult × Contract Pool × Account)
  | .swap swapAction, prevResult => do
    let amountIn ← (swapAction.amountIn.map pure).getD prevResult.toAmount
    let account ← account.withdraw swapAction.tokenIn amountIn
    let (amountOut, self) ← self.internalPoolSwap h env swapAction.poolId swapAction.tokenIn
      amountIn swapAction.tokenOut swapAction.minAmountOut referralId
    let account ← account.deposit swapAction.tokenOut amountOut
    pure (.amount amountOut, self, account)

/-- `internal_execute_actions`: the actions in order, each on the state the previous left. -/
def internalExecuteActions (self : Contract Pool) (account : Account)
    (referralId : Option AccountId) : List Action → ActionResult →
      Except Error (ActionResult × Contract Pool × Account)
  | [], result => pure (result, self, account)
  | action :: actions, prevResult => do
    let (result, self, account) ←
      self.internalExecuteAction h env account referralId action prevResult
    self.internalExecuteActions account referralId actions result

/-- The check `execute_actions` makes when no deposit is attached: every token an action
moves is registered in the sender's account or whitelisted. -/
def tokensAllowed (self : Contract Pool) (account : Account) (actions : List Action) : Prop :=
  ∀ action ∈ actions, ∀ token ∈ action.tokens,
    (account.getBalance token).isSome ∨ token ∈ self.whitelistedTokens

/-- The whitelist check is decidable, as the code runs it. -/
instance (self : Contract Pool) (account : Account) (actions : List Action) :
    Decidable (self.tokensAllowed account actions) :=
  inferInstanceAs (Decidable (∀ _ ∈ _, _))

/-- `execute_actions`: run the actions on `sender_id`'s account, whoever the caller is. -/
def executeActions (self : Contract Pool) (actions : List Action)
    (referralId : Option AccountId) (senderId : AccountId) :
    Except Error (ActionResult × Contract Pool) := do
  self.assertContractRunning
  let account ← self.internalUnwrapAccount senderId
  require (env.attachedDeposit = 0 → self.tokensAllowed account actions) .ERR27_DEPOSIT_NEEDED
  let (result, self, account) ←
    self.internalExecuteActions h env account referralId actions .none
  pure (result, self.internalSaveAccount senderId account)

/-- `internal_swap_unchecked`: `execute_actions` on swap actions, and its last amount. -/
def internalSwapUnchecked (self : Contract Pool) (actions : List SwapAction)
    (referralId : Option AccountId) (senderId : AccountId) :
    Except Error (Nat × Contract Pool) := do
  let (result, self) ← self.executeActions h env (actions.map .swap) referralId senderId
  let amount ← result.toAmount
  pure (amount, self)

/-- A pool swap reads the stored pool and stores the swapped one in its place. -/
theorem internalPoolSwap_eq_ok {self self' : Contract Pool} {poolId : Nat}
    {tokenIn tokenOut : AccountId} {amountIn minAmountOut amountOut : Nat}
    {referralId : Option AccountId}
    (hs : self.internalPoolSwap h env poolId tokenIn amountIn tokenOut minAmountOut referralId
      = .ok (amountOut, self')) :
    ∃ pool pool', self.pools[poolId]? = some pool ∧
      h.pool.swap pool tokenIn amountIn tokenOut minAmountOut
        { exchangeFee := self.exchangeFee, exchangeId := env.currentAccountId,
          referralFee := self.referralFee, referralId } = .ok (amountOut, pool') ∧
      self' = { self with pools := self.pools.set poolId pool' } := by
  obtain ⟨pool, hp, hs⟩ := Except.bind_eq_ok.mp hs
  obtain ⟨⟨out, pool'⟩, hw, hs⟩ := Except.bind_eq_ok.mp hs
  cases hs
  exact ⟨pool, pool', expect_eq_ok.mp hp, hw, rfl⟩

/-- All a successful action can have done: withdraw its input, swap it, deposit the
output, and return the output. -/
theorem internalExecuteAction_eq_ok {self self' : Contract Pool} {account account' : Account}
    {referralId : Option AccountId} {a : SwapAction} {prev result : ActionResult}
    (hs : self.internalExecuteAction h env account referralId (.swap a) prev
      = .ok (result, self', account')) :
    ∃ amountIn amountOut acc, (a.amountIn <|> prev.amount?) = some amountIn ∧
      account.withdraw a.tokenIn amountIn = .ok acc ∧
      self.internalPoolSwap h env a.poolId a.tokenIn amountIn a.tokenOut a.minAmountOut
        referralId = .ok (amountOut, self') ∧
      acc.deposit a.tokenOut amountOut = .ok account' ∧ result = .amount amountOut := by
  rw [internalExecuteAction] at hs
  obtain ⟨amountIn, hin, hs⟩ := Except.bind_eq_ok.mp hs
  obtain ⟨acc, hw, hs⟩ := Except.bind_eq_ok.mp hs
  obtain ⟨⟨amountOut, c⟩, hp, hs⟩ := Except.bind_eq_ok.mp hs
  obtain ⟨acc', hd, hs⟩ := Except.bind_eq_ok.mp hs
  cases hs
  refine ⟨amountIn, amountOut, acc, ?_, hw, hp, hd, rfl⟩
  cases ha : a.amountIn with
  | some v => simp_all [Except.pure_eq_ok]
  | none => simpa [ha, ActionResult.toAmount_eq_ok] using hin

@[simp] theorem internalExecuteActions_nil (self : Contract Pool) (account : Account)
    (referralId : Option AccountId) (result : ActionResult) :
    self.internalExecuteActions h env account referralId [] result =
      .ok (result, self, account) := rfl

/-- One step of the loop: run the first action, then the rest on what it left. -/
theorem internalExecuteActions_cons (self : Contract Pool) (account : Account)
    (referralId : Option AccountId) (action : Action) (actions : List Action)
    (prev : ActionResult) :
    self.internalExecuteActions h env account referralId (action :: actions) prev =
      (self.internalExecuteAction h env account referralId action prev >>= fun r =>
        r.2.1.internalExecuteActions h env r.2.2 referralId actions r.1) := rfl

/-- Running `l₁ ++ l₂` runs `l₁`, then `l₂` on what it left. -/
theorem internalExecuteActions_append (referralId : Option AccountId) (l₂ : List Action) :
    ∀ (l₁ : List Action) (self : Contract Pool) (account : Account) (prev : ActionResult),
      self.internalExecuteActions h env account referralId (l₁ ++ l₂) prev =
        (self.internalExecuteActions h env account referralId l₁ prev >>= fun r =>
          r.2.1.internalExecuteActions h env r.2.2 referralId l₂ r.1)
  | [], self, account, prev => rfl
  | action :: l₁, self, account, prev => by
    simp only [List.cons_append, internalExecuteActions_cons]
    cases self.internalExecuteAction h env account referralId action prev with
    | error e => rfl
    | ok r => exact internalExecuteActions_append referralId l₂ l₁ r.2.1 r.2.2 r.1

/-- All a successful `execute_actions` can have done: run the actions on the registered
account of `senderId`, after the whitelist check when no deposit is attached, and save it. -/
theorem executeActions_eq_ok {self self' : Contract Pool} {actions : List Action}
    {referralId : Option AccountId} {senderId : AccountId} {result : ActionResult}
    (hs : self.executeActions h env actions referralId senderId = .ok (result, self')) :
    self.state = .running ∧ ∃ account c account',
      self.accounts.lookup senderId = some account ∧
      (env.attachedDeposit = 0 → self.tokensAllowed account actions) ∧
      self.internalExecuteActions h env account referralId actions .none
        = .ok (result, c, account') ∧
      self' = c.internalSaveAccount senderId account' := by
  obtain ⟨u, hr, hs⟩ := Except.bind_eq_ok.mp hs
  obtain ⟨account, ha, hs⟩ := Except.bind_eq_ok.mp hs
  obtain ⟨u', hw, hs⟩ := Except.bind_eq_ok.mp hs
  obtain ⟨⟨r, c, account'⟩, he, hs⟩ := Except.bind_eq_ok.mp hs
  cases hs
  exact ⟨assertContractRunning_eq_ok.mp hr, account, c, account',
    internalUnwrapAccount_eq_ok.mp ha, require_eq_ok.mp hw, he, rfl⟩

/-- A successful `internal_swap_unchecked` ran `execute_actions` and found an amount. -/
theorem internalSwapUnchecked_eq_ok {self self' : Contract Pool} {actions : List SwapAction}
    {referralId : Option AccountId} {senderId : AccountId} {amount : Nat}
    (hs : self.internalSwapUnchecked h env actions referralId senderId = .ok (amount, self')) :
    ∃ result, self.executeActions h env (actions.map .swap) referralId senderId
      = .ok (result, self') ∧ result.amount? = some amount := by
  obtain ⟨⟨result, c⟩, he, hs⟩ := Except.bind_eq_ok.mp hs
  obtain ⟨_, ha, hs⟩ := Except.bind_eq_ok.mp hs
  cases hs
  exact ⟨result, he, ActionResult.toAmount_eq_ok.mp ha⟩

/-- An action succeeds when its input is found and withdrawn, its pool swaps it, and the
output is deposited. -/
theorem internalExecuteAction_eq_ok_of {self : Contract Pool} {account acc account' : Account}
    {referralId : Option AccountId} {a : SwapAction} {prev : ActionResult}
    {amountIn amountOut : Nat} {pool pool' : Pool}
    (hin : (a.amountIn <|> prev.amount?) = some amountIn)
    (hw : account.withdraw a.tokenIn amountIn = .ok acc)
    (hp : self.pools[a.poolId]? = some pool)
    (hs : h.pool.swap pool a.tokenIn amountIn a.tokenOut a.minAmountOut
      { exchangeFee := self.exchangeFee, exchangeId := env.currentAccountId,
        referralFee := self.referralFee, referralId } = .ok (amountOut, pool'))
    (hd : acc.deposit a.tokenOut amountOut = .ok account') :
    self.internalExecuteAction h env account referralId (.swap a) prev =
      .ok (.amount amountOut, { self with pools := self.pools.set a.poolId pool' }, account') := by
  have hv : (a.amountIn.map pure).getD prev.toAmount = (.ok amountIn : Except Error Nat) := by
    cases ha : a.amountIn with
    | some v =>
      simp only [ha, Option.some_orElse, Option.some.injEq] at hin
      simp [hin]
    | none =>
      simp only [ha, Option.none_orElse] at hin
      simpa using ActionResult.toAmount_eq_ok.mpr hin
  simp only [internalExecuteAction, internalPoolSwap, hv, hw, hp, expect, hs, hd, Except.ok_bind,
    pure_bind]
  rfl

/-- The action loop changes the pools and nothing else of the contract. -/
theorem internalExecuteActions_pools_only (referralId : Option AccountId) :
    ∀ (actions : List Action) (self : Contract Pool) (account : Account) (prev : ActionResult)
      {result : ActionResult} {self' : Contract Pool} {account' : Account},
      self.internalExecuteActions h env account referralId actions prev
        = .ok (result, self', account') → self' = { self with pools := self'.pools }
  | [], self, account, prev, _, _, _, hs => by cases hs; rfl
  | .swap a :: actions, self, account, prev, result, self', account', hs => by
    rw [internalExecuteActions_cons] at hs
    obtain ⟨⟨r, c, acc⟩, ha, hs⟩ := Except.bind_eq_ok.mp hs
    obtain ⟨_, _, _, -, -, hp, -, -⟩ := internalExecuteAction_eq_ok h env ha
    obtain ⟨_, _, -, -, rfl⟩ := internalPoolSwap_eq_ok h env hp
    exact (internalExecuteActions_pools_only referralId actions _ acc r hs).trans rfl

/-- A pool swap reads no ledger account: on a state with one more account saved it does
the same, and the saved account stays. -/
theorem internalPoolSwap_internalSaveAccount (self : Contract Pool) (u : AccountId)
    (a : Account) (poolId : Nat) (tokenIn : AccountId) (amountIn : Nat) (tokenOut : AccountId)
    (minAmountOut : Nat) (referralId : Option AccountId) :
    (self.internalSaveAccount u a).internalPoolSwap h env poolId tokenIn amountIn tokenOut
        minAmountOut referralId =
      (self.internalPoolSwap h env poolId tokenIn amountIn tokenOut minAmountOut
        referralId).map fun r => (r.1, r.2.internalSaveAccount u a) := by
  simp only [internalPoolSwap, internalSaveAccount]
  cases self.pools[poolId]? with
  | none => rfl
  | some pool =>
    simp only [expect, Except.ok_bind]
    cases h.pool.swap pool tokenIn amountIn tokenOut minAmountOut _ <;> rfl

/-- A map of states that commutes with the pool swap of an action commutes with the
action; the account the action is handed is its own. -/
theorem internalExecuteAction_map (f : Contract Pool → Contract Pool) (s : SwapAction)
    (referralId : Option AccountId)
    (hf : ∀ (self : Contract Pool) (amountIn : Nat),
      (f self).internalPoolSwap h env s.poolId s.tokenIn amountIn s.tokenOut s.minAmountOut
          referralId =
        (self.internalPoolSwap h env s.poolId s.tokenIn amountIn s.tokenOut s.minAmountOut
          referralId).map fun r => (r.1, f r.2))
    (self : Contract Pool) (account : Account) (prev : ActionResult) :
    (f self).internalExecuteAction h env account referralId (.swap s) prev =
      (self.internalExecuteAction h env account referralId (.swap s) prev).map
        fun r => (r.1, f r.2.1, r.2.2) := by
  simp only [internalExecuteAction, hf]
  cases (s.amountIn.map pure).getD prev.toAmount with
  | error => rfl
  | ok amountIn =>
    simp only [Except.ok_bind]
    cases account.withdraw s.tokenIn amountIn with
    | error => rfl
    | ok acc =>
      simp only [Except.ok_bind]
      cases self.internalPoolSwap h env s.poolId s.tokenIn amountIn s.tokenOut
        s.minAmountOut referralId with
      | error => rfl
      | ok r =>
        simp only [Except.map, Except.ok_bind]
        cases acc.deposit s.tokenOut r.1 <;> rfl

/-- A map of states that commutes with every pool swap of the loop commutes with the loop. -/
theorem internalExecuteActions_map (f : Contract Pool → Contract Pool)
    (referralId : Option AccountId) :
    ∀ (actions : List Action), (∀ s, Action.swap s ∈ actions →
      ∀ (self : Contract Pool) (amountIn : Nat),
        (f self).internalPoolSwap h env s.poolId s.tokenIn amountIn s.tokenOut s.minAmountOut
            referralId =
          (self.internalPoolSwap h env s.poolId s.tokenIn amountIn s.tokenOut s.minAmountOut
            referralId).map fun r => (r.1, f r.2)) →
      ∀ (self : Contract Pool) (account : Account) (prev : ActionResult),
        (f self).internalExecuteActions h env account referralId actions prev =
          (self.internalExecuteActions h env account referralId actions prev).map
            fun r => (r.1, f r.2.1, r.2.2)
  | [], _, _, _, _ => rfl
  | .swap s :: actions, hf, self, account, prev => by
    rw [internalExecuteActions_cons, internalExecuteActions_cons,
      internalExecuteAction_map h env f s referralId (hf s (List.mem_cons_self _ _))]
    cases self.internalExecuteAction h env account referralId (.swap s) prev with
    | error => rfl
    | ok r =>
      exact internalExecuteActions_map f referralId actions
        (fun s' hs' => hf s' (List.mem_cons_of_mem _ hs')) r.2.1 r.2.2 r.1

/-- The loop reads no ledger account of the contract: on a state with one more account
saved it runs the same, and the saved account stays. -/
theorem internalExecuteActions_internalSaveAccount (u : AccountId) (a : Account)
    (referralId : Option AccountId) (actions : List Action) (self : Contract Pool)
    (account : Account) (prev : ActionResult) :
    (self.internalSaveAccount u a).internalExecuteActions h env account referralId actions prev =
      (self.internalExecuteActions h env account referralId actions prev).map
        fun r => (r.1, r.2.1.internalSaveAccount u a, r.2.2) :=
  internalExecuteActions_map h env (·.internalSaveAccount u a) referralId actions
    (fun _ _ self _ => internalPoolSwap_internalSaveAccount h env self u a _ _ _ _ _ _)
    self account prev

/-- A pool swap neither reads nor writes another pool: storing a pool elsewhere before the
swap is storing it after. -/
theorem internalPoolSwap_set (self : Contract Pool) {j poolId : Nat} (hj : j ≠ poolId)
    (p : Pool) (tokenIn : AccountId) (amountIn : Nat) (tokenOut : AccountId)
    (minAmountOut : Nat) (referralId : Option AccountId) :
    ({ self with pools := self.pools.set j p } : Contract Pool).internalPoolSwap h env poolId
        tokenIn amountIn tokenOut minAmountOut referralId =
      (self.internalPoolSwap h env poolId tokenIn amountIn tokenOut minAmountOut
        referralId).map fun r => (r.1, { r.2 with pools := r.2.pools.set j p }) := by
  simp only [internalPoolSwap, List.getElem?_set_ne hj]
  cases self.pools[poolId]? with
  | none => rfl
  | some pool =>
    simp only [expect, Except.ok_bind]
    cases h.pool.swap pool tokenIn amountIn tokenOut minAmountOut _ with
    | error => rfl
    | ok r => simp only [Except.ok_bind, Except.map, pure, Except.pure, List.set_comm _ _ _ hj]

/-- A loop whose first action carries its own amount does not read `prev_result`. -/
theorem internalExecuteActions_cons_of_amountIn {a : SwapAction} (ha : a.amountIn.isSome)
    (self : Contract Pool) (account : Account) (referralId : Option AccountId)
    (rest : List Action) (prev prev' : ActionResult) :
    self.internalExecuteActions h env account referralId (.swap a :: rest) prev =
      self.internalExecuteActions h env account referralId (.swap a :: rest) prev' := by
  obtain ⟨v, hv⟩ := Option.isSome_iff_exists.mp ha
  simp only [internalExecuteActions_cons, internalExecuteAction, hv, Option.map_some',
    Option.getD_some]

/-- `execute_actions` succeeds when running, on a registered sender whose tokens pass the
whitelist check, when its loop does. -/
theorem executeActions_eq_ok_of_loop {self c : Contract Pool} {actions : List Action}
    {referralId : Option AccountId} {senderId : AccountId} {account account' : Account}
    {result : ActionResult} (hr : self.state = .running)
    (ha : self.accounts.lookup senderId = some account)
    (hw : env.attachedDeposit = 0 → self.tokensAllowed account actions)
    (he : self.internalExecuteActions h env account referralId actions .none
      = .ok (result, c, account')) :
    self.executeActions h env actions referralId senderId
      = .ok (result, c.internalSaveAccount senderId account') :=
  Except.bind_eq_ok.mpr ⟨(), assertContractRunning_eq_ok.mpr hr,
    Except.bind_eq_ok.mpr ⟨account, internalUnwrapAccount_eq_ok.mpr ha,
      Except.bind_eq_ok.mpr ⟨(), require_eq_ok.mpr hw, Except.bind_eq_ok.mpr ⟨_, he, rfl⟩⟩⟩⟩

end Contract

end JumboExchange
