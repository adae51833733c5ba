import JumboExchange.Contract.Liquidity

/-!
# Entry points

The public methods of `lib.rs`, and the dispatch `near_bindgen` generates around them: a
method not marked `#[payable]` refuses an attached deposit, and `#[private]` accepts the
contract itself as the only caller. `swap`, `add_liquidity` and `add_stable_liquidity`
only schedule the AML check of the caller; the callback runs the operation later, on
behalf of the caller recorded in the request.
-/

namespace JumboExchange

/-- The public methods of `lib.rs`, with their arguments. -/
inductive Method where
  | addSimplePool (tokens : List AccountId) (fee : UInt32)
  | addStableSwapPool (tokens : List AccountId) (decimals : List UInt8) (fee : UInt32)
      (ampFactor : UInt64)
  | executeActions (actions : List Action) (referralId : Option AccountId)
      (senderId : AccountId)
  | updateAmlAccountId (amlAccountId : AccountId)
  | updateAcceptedRiskScore (acceptedRiskScore : UInt8)
  | callbackAmlOperation (operation : AmlOperation) (senderId : AccountId)
  | swap (actions : List SwapAction) (referralId : Option AccountId)
  | addLiquidity (poolId : Nat) (amounts : List Nat) (minAmounts : Option (List Nat))
  | addStableLiquidity (poolId : Nat) (amounts : List Nat) (minShares : Nat)
  | removeLiquidity (poolId shares : Nat) (minAmounts : List Nat)
  | removeLiquidityByTokens (poolId : Nat) (amounts : List Nat) (maxBurnShares : Nat)
  deriving DecidableEq, Repr

namespace Contract

variable {Pool : Type} (h : Host Pool) (env : Env)

/-- `add_simple_pool`: a pool whose id is the current number of pools, as a `u32`. -/
def addSimplePool (self : Contract Pool) (tokens : List AccountId) (fee : UInt32) :
    Except Error (Nat × Contract Pool × List Promise) := do
  self.assertContractRunning
  checkTokenDuplicates tokens
  let pool ← h.pool.simplePoolNew self.pools.length.toUInt32 tokens fee 0 0
  self.internalAddPool h env pool

/-- `add_stable_swap_pool`: limited to the owner and the guardians; it makes no
running-state check. -/
def addStableSwapPool (self : Contract Pool) (tokens : List AccountId)
    (decimals : List UInt8) (fee : UInt32) (ampFactor : UInt64) :
    Except Error (Nat × Contract Pool × List Promise) := do
  require (self.isOwnerOrGuardians env = true) .ERR100_NOT_ALLOWED
  checkTokenDuplicates tokens
  let pool ← h.pool.stableSwapPoolNew self.pools.length.toUInt32 tokens decimals
    ampFactor.toNat fee
  self.internalAddPool h env pool

/-- `update_aml_account_id`. -/
def updateAmlAccountId (self : Contract Pool) (amlAccountId : AccountId) :
    Except Error (Contract Pool) := do
  self.assertContractRunning
  require (self.isOwnerOrGuardians env = true) .ERR100_NOT_ALLOWED
  pure { self with amlAccountId }

/-- `update_accepted_risk_score`. -/
def updateAcceptedRiskScore (self : Contract Pool) (acceptedRiskScore : UInt8) :
    Except Error (Contract Pool) := do
  self.assertContractRunning
  require (self.isOwnerOrGuardians env = true) .ERR100_NOT_ALLOWED
  pure { self with acceptedRiskScore }

/-- The AML verdict on a `(category, risk)` answer. -/
def isAmlAllowed (self : Contract Pool) (category : String) (risk : UInt8) : Bool :=
  if category = "None" then true else decide (risk ≤ self.acceptedRiskScore)

/-- `aml_operation`: run the requested operation on behalf of `senderId`, if allowed. -/
def amlOperation (self : Contract Pool) (operation : AmlOperation) (senderId : AccountId)
    (isAmlAllowed : Bool) : Except Error (Contract Pool × List Promise) := do
  require (isAmlAllowed = true) (.panic "ERR_AML_NOT_ALLOWED")
  match operation with
  | .swap actions referralId => do
    let (_, self) ← self.internalSwapUnchecked h env actions referralId senderId
    pure (self, [])
  | .addLiquidity poolId amounts minAmounts =>
    self.internalAddLiquidityUnchecked h env poolId amounts senderId minAmounts
  | .addStableLiquidity poolId amounts minShares => do
    let (_, self, promises) ←
      self.internalAddStableLiquidityUnchecked h env poolId amounts minShares senderId
    pure (self, promises)

/-- `callback_aml_operation`: read the AML contract's answer and run the operation. -/
def callbackAmlOperation (self : Contract Pool) (operation : AmlOperation)
    (senderId : AccountId) : Except Error (Contract Pool × List Promise) :=
  match env.promiseResults.head? with
  | none => .error (.panic "InvalidPromiseResultIndex")
  | some .notReady => .error (.panic "internal error: entered unreachable code")
  | some .failed => .error (.panic "ERR_AML_CALL_FAILED")
  | some (.successful none) => .error (.panic "called Result::unwrap() on an Err value")
  | some (.successful (some (category, risk))) =>
    self.amlOperation h env operation senderId (self.isAmlAllowed category risk)

/-- `ext_aml::get_address(predecessor).then(ext_self::callback_aml_operation(operation,
predecessor))`, forwarding the attached deposit: what the three AML-gated methods send. -/
def requestAml (self : Contract Pool) (operation : AmlOperation) : Promise :=
  .amlCheck
    { accountId := env.predecessorAccountId, amlAccountId := self.amlAccountId, operation,
      senderId := env.predecessorAccountId, attachedDeposit := env.attachedDeposit }

/-- `swap`: ask the AML contract about the caller; at least one action. -/
def swap (self : Contract Pool) (actions : List SwapAction) (referralId : Option AccountId) :
    Except Error (Contract Pool × List Promise) := do
  self.assertContractRunning
  require (actions.length ≠ 0) (.panic "ERR_AT_LEAST_ONE_SWAP")
  pure (self, [self.requestAml env (.swap actions referralId)])

/-- `add_liquidity`: ask the AML contract about the caller. -/
def addLiquidity (self : Contract Pool) (poolId : Nat) (amounts : List Nat)
    (minAmounts : Option (List Nat)) : Except Error (Contract Pool × List Promise) := do
  self.assertContractRunning
  pure (self, [self.requestAml env (.addLiquidity poolId amounts minAmounts)])

/-- `add_stable_liquidity`: ask the AML contract about the caller. -/
def addStableLiquidity (self : Contract Pool) (poolId : Nat) (amounts : List Nat)
    (minShares : Nat) : Except Error (Contract Pool × List Promise) := do
  self.assertContractRunning
  pure (self, [self.requestAml env (.addStableLiquidity poolId amounts minShares)])

/-- A call of a public method, with the checks `near_bindgen` adds; the new state and the
receipts it sent, its return value dropped. -/
def call (self : Contract Pool) : Method → Except Error (Contract Pool × List Promise)
  | .addSimplePool tokens fee => do
    let (_, self, promises) ← self.addSimplePool h env tokens fee
    pure (self, promises)
  | .addStableSwapPool tokens decimals fee ampFactor => do
    let (_, self, promises) ← self.addStableSwapPool h env tokens decimals fee ampFactor
    pure (self, promises)
  | .executeActions actions referralId senderId => do
    let (_, self) ← self.executeActions h env actions referralId senderId
    pure (self, [])
  | .updateAmlAccountId amlAccountId => do
    require (env.attachedDeposit = 0) (.panic "Method update_aml_account_id doesn't accept deposit")
    let self ← self.updateAmlAccountId env amlAccountId
    pure (self, [])
  | .updateAcceptedRiskScore acceptedRiskScore => do
    require (env.attachedDeposit = 0)
      (.panic "Method update_accepted_risk_score doesn't accept deposit")
    let self ← self.updateAcceptedRiskScore env acceptedRiskScore
    pure (self, [])
  | .callbackAmlOperation operation senderId => do
    require (env.predecessorAccountId = env.currentAccountId)
      (.panic "Method callback_aml_operation is private")
    self.callbackAmlOperation h env operation senderId
  | .swap actions referralId => self.swap env actions referralId
  | .addLiquidity poolId amounts minAmounts => self.addLiquidity env poolId amounts minAmounts
  | .addStableLiquidity poolId amounts minShares =>
    self.addStableLiquidity env poolId amounts minShares
  | .removeLiquidity poolId shares minAmounts => do
    let self ← self.removeLiquidity h env poolId shares minAmounts
    pure (self, [])
  | .removeLiquidityByTokens poolId amounts maxBurnShares => do
    let (_, self) ← self.removeLiquidityByTokens h env poolId amounts maxBurnShares
    pure (self, [])

/-- What running `operation` on behalf of `senderId` did: the unchecked swap or liquidity
function it calls succeeded, taking `self` to `self'` and sending `ps`. -/
def RanOperation (self self' : Contract Pool) (operation : AmlOperation) (senderId : AccountId)
    (ps : List Promise) : Prop :=
  match operation with
  | .swap actions referralId => ps = [] ∧
      ∃ amount, self.internalSwapUnchecked h env actions referralId senderId = .ok (amount, self')
  | .addLiquidity poolId amounts minAmounts =>
      self.internalAddLiquidityUnchecked h env poolId amounts senderId minAmounts = .ok (self', ps)
  | .addStableLiquidity poolId amounts minShares => ∃ shares,
      self.internalAddStableLiquidityUnchecked h env poolId amounts minShares senderId
        = .ok (shares, self', ps)

/-- All a successful `aml_operation` can have done: on an allowing answer, run the
requested operation on behalf of `senderId`. -/
theorem amlOperation_eq_ok {self self' : Contract Pool} {operation : AmlOperation}
    {senderId : AccountId} {allowed : Bool} {ps : List Promise}
    (hs : self.amlOperation h env operation senderId allowed = .ok (self', ps)) :
    allowed = true ∧ self.RanOperation h env self' operation senderId ps := by
  obtain ⟨_, ha, hs⟩ := Except.bind_eq_ok.mp hs
  refine ⟨require_eq_ok.mp ha, ?_⟩
  cases operation with
  | swap =>
    obtain ⟨⟨amount, c⟩, hu, hs⟩ := Except.bind_eq_ok.mp hs
    cases hs
    exact ⟨rfl, amount, hu⟩
  | addLiquidity => exact hs
  | addStableLiquidity =>
    obtain ⟨⟨shares, c, ps'⟩, hu, hs⟩ := Except.bind_eq_ok.mp hs
    cases hs
    exact ⟨shares, hu⟩

/-- A successful callback had an allowing `(category, risk)` answer, and ran the requested
operation on behalf of `senderId`. -/
theorem callbackAmlOperation_eq_ok {self self' : Contract Pool} {operation : AmlOperation}
    {senderId : AccountId} {ps : List Promise}
    (hs : self.callbackAmlOperation h env operation senderId = .ok (self', ps)) :
    ∃ category risk, env.promiseResults.head? = some (.successful (some (category, risk))) ∧
      self.isAmlAllowed category risk = true ∧
      self.RanOperation h env self' operation senderId ps := by
  unfold callbackAmlOperation at hs
  split at hs
  case h_5 category risk hr =>
    obtain ⟨ha, ho⟩ := amlOperation_eq_ok h env hs
    exact ⟨category, risk, hr, ha, ho⟩
  all_goals cases hs

/-- A new simple pool: built with the current number of pools as its `u32` id, registered
for the exchange, appended. -/
theorem addSimplePool_eq_ok {self self' : Contract Pool} {tokens : List AccountId}
    {fee : UInt32} {id : Nat} {ps : List Promise}
    (hs : self.addSimplePool h env tokens fee = .ok (id, self', ps)) :
    self.state = .running ∧ id = self.pools.length ∧ ∃ pool p,
      h.pool.simplePoolNew self.pools.length.toUInt32 tokens fee 0 0 = .ok pool ∧
      self.shareRegisterStored h pool env.currentAccountId = .ok p ∧
      self' = { self with pools := self.pools ++ [p] } ∧
      self'.internalCheckStorage h env (h.storageUsage self) = .ok ps := by
  obtain ⟨_, hr, hs⟩ := Except.bind_eq_ok.mp hs
  obtain ⟨_, -, hs⟩ := Except.bind_eq_ok.mp hs
  obtain ⟨pool, hn, hs⟩ := Except.bind_eq_ok.mp hs
  obtain ⟨rfl, p, hp, rfl, hc⟩ := internalAddPool_eq_ok h env hs
  exact ⟨assertContractRunning_eq_ok.mp hr, rfl, pool, p, hn, hp, rfl, hc⟩

/-- A new stable pool: only for the owner or a guardian, in any running state. -/
theorem addStableSwapPool_eq_ok {self self' : Contract Pool} {tokens : List AccountId}
    {decimals : List UInt8} {fee : UInt32} {amp : UInt64} {id : Nat} {ps : List Promise}
    (hs : self.addStableSwapPool h env tokens decimals fee amp = .ok (id, self', ps)) :
    self.isOwnerOrGuardians env = true ∧ id = self.pools.length ∧ ∃ pool p,
      h.pool.stableSwapPoolNew self.pools.length.toUInt32 tokens decimals amp.toNat fee
        = .ok pool ∧
      self.shareRegisterStored h pool env.currentAccountId = .ok p ∧
      self' = { self with pools := self.pools ++ [p] } ∧
      self'.internalCheckStorage h env (h.storageUsage self) = .ok ps := by
  obtain ⟨_, ho, hs⟩ := Except.bind_eq_ok.mp hs
  obtain ⟨_, -, hs⟩ := Except.bind_eq_ok.mp hs
  obtain ⟨pool, hn, hs⟩ := Except.bind_eq_ok.mp hs
  obtain ⟨rfl, p, hp, rfl, hc⟩ := internalAddPool_eq_ok h env hs
  exact ⟨require_eq_ok.mp ho, rfl, pool, p, hn, hp, rfl, hc⟩

/-- The owner's updates run only while running and for the owner or a guardian, and
change their own field alone. -/
theorem updateAmlAccountId_eq_ok {self self' : Contract Pool} {aml : AccountId}
    (hs : self.updateAmlAccountId env aml = .ok self') :
    self.state = .running ∧ self.isOwnerOrGuardians env = true ∧
      self' = { self with amlAccountId := aml } := by
  obtain ⟨_, hr, hs⟩ := Except.bind_eq_ok.mp hs
  obtain ⟨_, ho, hs⟩ := Except.bind_eq_ok.mp hs
  cases hs
  exact ⟨assertContractRunning_eq_ok.mp hr, require_eq_ok.mp ho, rfl⟩

theorem updateAcceptedRiskScore_eq_ok {self self' : Contract Pool} {score : UInt8}
    (hs : self.updateAcceptedRiskScore env score = .ok self') :
    self.state = .running ∧ self.isOwnerOrGuardians env = true ∧
      self' = { self with acceptedRiskScore := score } := by
  obtain ⟨_, hr, hs⟩ := Except.bind_eq_ok.mp hs
  obtain ⟨_, ho, hs⟩ := Except.bind_eq_ok.mp hs
  cases hs
  exact ⟨assertContractRunning_eq_ok.mp hr, require_eq_ok.mp ho, rfl⟩

/-- The three AML-gated requests change nothing and send the caller's AML request; a swap
needs at least one action. -/
theorem swap_eq_ok {self self' : Contract Pool} {actions : List SwapAction}
    {referralId : Option AccountId} {ps : List Promise}
    (hs : self.swap env actions referralId = .ok (self', ps)) :
    self.state = .running ∧ self' = self ∧
      ps = [self.requestAml env (.swap actions referralId)] ∧ actions.length ≠ 0 := by
  obtain ⟨_, hr, hs⟩ := Except.bind_eq_ok.mp hs
  obtain ⟨_, hn, hs⟩ := Except.bind_eq_ok.mp hs
  cases hs
  exact ⟨assertContractRunning_eq_ok.mp hr, rfl, rfl, require_eq_ok.mp hn⟩

/-- `add_liquidity` only sends the caller's AML request. -/
theorem addLiquidity_eq_ok {self self' : Contract Pool} {poolId : Nat} {amounts : List Nat}
    {minAmounts : Option (List Nat)} {ps : List Promise}
    (hs : self.addLiquidity env poolId amounts minAmounts = .ok (self', ps)) :
    self.state = .running ∧ self' = self ∧
      ps = [self.requestAml env (.addLiquidity poolId amounts minAmounts)] := by
  obtain ⟨_, hr, hs⟩ := Except.bind_eq_ok.mp hs
  cases hs
  exact ⟨assertContractRunning_eq_ok.mp hr, rfl, rfl⟩

/-- `add_stable_liquidity` only sends the caller's AML request. -/
theorem addStableLiquidity_eq_ok {self self' : Contract Pool} {poolId : Nat}
    {amounts : List Nat} {minShares : Nat} {ps : List Promise}
    (hs : self.addStableLiquidity env poolId amounts minShares = .ok (self', ps)) :
    self.state = .running ∧ self' = self ∧
      ps = [self.requestAml env (.addStableLiquidity poolId amounts minShares)] := by
  obtain ⟨_, hr, hs⟩ := Except.bind_eq_ok.mp hs
  cases hs
  exact ⟨assertContractRunning_eq_ok.mp hr, rfl, rfl⟩

/-- What a successful call of each public method did, with the dispatch's checks: the updates
and the AML-gated methods in full, the others through their own inversion lemmas. -/
theorem call_eq_ok {self self' : Contract Pool} {m : Method} {ps : List Promise}
    (hs : self.call h env m = .ok (self', ps)) : match m with
    | .addSimplePool tokens fee => ∃ id, self.addSimplePool h env tokens fee = .ok (id, self', ps)
    | .addStableSwapPool tokens decimals fee amp =>
        ∃ id, self.addStableSwapPool h env tokens decimals fee amp = .ok (id, self', ps)
    | .executeActions actions referralId senderId => ps = [] ∧
        ∃ result, self.executeActions h env actions referralId senderId = .ok (result, self')
    | .updateAmlAccountId aml => self.state = .running ∧ self.isOwnerOrGuardians env = true ∧
        env.attachedDeposit = 0 ∧ self' = { self with amlAccountId := aml } ∧ ps = []
    | .updateAcceptedRiskScore score => self.state = .running ∧
        self.isOwnerOrGuardians env = true ∧ env.attachedDeposit = 0 ∧
        self' = { self with acceptedRiskScore := score } ∧ ps = []
    | .callbackAmlOperation operation senderId =>
        env.predecessorAccountId = env.currentAccountId ∧
          self.callbackAmlOperation h env operation senderId = .ok (self', ps)
    | .swap actions referralId => self.state = .running ∧ self' = self ∧
        ps = [self.requestAml env (.swap actions referralId)] ∧ actions.length ≠ 0
    | .addLiquidity poolId amounts minAmounts => self.state = .running ∧ self' = self ∧
        ps = [self.requestAml env (.addLiquidity poolId amounts minAmounts)]
    | .addStableLiquidity poolId amounts minShares => self.state = .running ∧ self' = self ∧
        ps = [self.requestAml env (.addStableLiquidity poolId amounts minShares)]
    | .removeLiquidity poolId shares minAmounts =>
        ps = [] ∧ self.removeLiquidity h env poolId shares minAmounts = .ok self'
    | .removeLiquidityByTokens poolId amounts maxBurn => ps = [] ∧ ∃ burn,
        self.removeLiquidityByTokens h env poolId amounts maxBurn = .ok (burn, self') := by
  cases m with
  | addSimplePool | addStableSwapPool =>
    obtain ⟨⟨id, c, ps'⟩, ha, hs⟩ := Except.bind_eq_ok.mp hs
    cases hs
    exact ⟨id, ha⟩
  | executeActions | removeLiquidityByTokens =>
    obtain ⟨⟨r, c⟩, ha, hs⟩ := Except.bind_eq_ok.mp hs
    cases hs
    exact ⟨rfl, r, ha⟩
  | updateAmlAccountId =>
    obtain ⟨_, hd, hs⟩ := Except.bind_eq_ok.mp hs
    obtain ⟨c, ha, hs⟩ := Except.bind_eq_ok.mp hs
    cases hs
    obtain ⟨hr, ho, rfl⟩ := updateAmlAccountId_eq_ok env ha
    exact ⟨hr, ho, require_eq_ok.mp hd, rfl, rfl⟩
  | updateAcceptedRiskScore =>
    obtain ⟨_, hd, hs⟩ := Except.bind_eq_ok.mp hs
    obtain ⟨c, ha, hs⟩ := Except.bind_eq_ok.mp hs
    cases hs
    obtain ⟨hr, ho, rfl⟩ := updateAcceptedRiskScore_eq_ok env ha
    exact ⟨hr, ho, require_eq_ok.mp hd, rfl, rfl⟩
  | callbackAmlOperation =>
    obtain ⟨_, hp, hs⟩ := Except.bind_eq_ok.mp hs
    exact ⟨require_eq_ok.mp hp, hs⟩
  | swap => exact swap_eq_ok env hs
  | addLiquidity => exact addLiquidity_eq_ok env hs
  | addStableLiquidity => exact addStableLiquidity_eq_ok env hs
  | removeLiquidity =>
    obtain ⟨c, ha, hs⟩ := Except.bind_eq_ok.mp hs
    cases hs
    exact ⟨rfl, ha⟩

/-- What a successful call sends: nothing, the refund of a storage check, or the caller's
AML request, which for a swap carries at least one action. -/
theorem call_receipts {self self' : Contract Pool} {m : Method} {ps : List Promise}
    (hs : self.call h env m = .ok (self', ps)) :
    ps = [] ∨ (∃ (c : Contract Pool) (prev : Nat), c.internalCheckStorage h env prev = .ok ps) ∨
      ∃ operation, ps = [self.requestAml env operation] ∧
        ∀ actions referralId, operation = .swap actions referralId → actions ≠ [] := by
  have hm := call_eq_ok h env hs
  cases m with
  | addSimplePool =>
    obtain ⟨_, ha⟩ := hm
    obtain ⟨-, -, _, _, -, -, -, hc⟩ := addSimplePool_eq_ok h env ha
    exact .inr (.inl ⟨_, _, hc⟩)
  | addStableSwapPool =>
    obtain ⟨_, ha⟩ := hm
    obtain ⟨-, -, _, _, -, -, -, hc⟩ := addStableSwapPool_eq_ok h env ha
    exact .inr (.inl ⟨_, _, hc⟩)
  | executeActions | removeLiquidity | removeLiquidityByTokens => exact .inl hm.1
  | updateAmlAccountId | updateAcceptedRiskScore => exact .inl hm.2.2.2.2
  | callbackAmlOperation operation =>
    obtain ⟨_, _, -, -, ho⟩ := callbackAmlOperation_eq_ok h env hm.2
    cases operation with
    | swap => exact .inl ho.1
    | addLiquidity =>
      obtain ⟨-, _, _, _, _, -, -, -, -, -, hc⟩ := internalAddLiquidityUnchecked_eq_ok h env ho
      exact .inr (.inl ⟨_, _, hc⟩)
    | addStableLiquidity =>
      obtain ⟨_, ho⟩ := ho
      obtain ⟨-, _, _, _, -, -, -, -, hc⟩ := internalAddStableLiquidityUnchecked_eq_ok h env ho
      exact .inr (.inl ⟨_, _, hc⟩)
  | swap =>
    refine .inr (.inr ⟨_, hm.2.2.1, fun _ _ hop => ?_⟩)
    cases hop
    exact List.ne_nil_of_length_pos (Nat.pos_of_ne_zero hm.2.2.2)
  | addLiquidity | addStableLiquidity => exact .inr (.inr ⟨_, hm.2.2, fun _ _ hop => by cases hop⟩)

end Contract

end JumboExchange
