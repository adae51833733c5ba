import JumboExchange.Pools.Simple

/-!
# The context of the AML callback

`callback_aml_operation` runs the requested operation with the exchange itself as
predecessor, in whatever state the contract is in when the AML contract answers. While
paused, the callback of a request to add liquidity still runs: only the swap path checks
the running state. And the storage check refunds the unused deposit to the predecessor,
in the callback the exchange and not the requester. Still, no call sends away more NEAR
than is attached to it, nor to anyone but its predecessor.
-/

namespace JumboExchange

/-- Whether an AML operation adds liquidity to a pool. -/
def AmlOperation.addsLiquidity : AmlOperation → Bool
  | .swap .. => false
  | _ => true

namespace Contract

variable {Pool : Type} (h : Host Pool) (env : Env)

/-- `after` has every ledger account of `before`, and every pool of `before` at its index. -/
def Untouched (before after : Contract Pool) : Prop :=
  after.accounts = before.accounts ∧ before.pools <+: after.pools

/-- While paused, a successful call is the AML callback of a request to add liquidity, or
leaves every ledger account and every existing pool as it was. -/
theorem call_while_paused {self self' : Contract Pool} {m : Method} {ps : List Promise}
    (hp : self.state = .paused) (hs : self.call h env m = .ok (self', ps)) :
    self.Untouched self' ∨ ∃ operation senderId,
      m = .callbackAmlOperation operation senderId ∧ operation.addsLiquidity = true := by
  have hnr : self.state ≠ .running := by rw [hp]; decide
  have hm := call_eq_ok h env hs
  cases m with
  | addSimplePool =>
    obtain ⟨_, ha⟩ := hm
    exact absurd (addSimplePool_eq_ok h env ha).1 hnr
  | addStableSwapPool =>
    obtain ⟨_, ha⟩ := hm
    obtain ⟨-, -, _, _, -, -, rfl, -⟩ := addStableSwapPool_eq_ok h env ha
    exact .inl ⟨rfl, List.prefix_append _ _⟩
  | executeActions =>
    obtain ⟨-, _, he⟩ := hm
    exact absurd (executeActions_eq_ok h env he).1 hnr
  | callbackAmlOperation operation =>
    obtain ⟨_, _, -, -, ho⟩ := callbackAmlOperation_eq_ok h env hm.2
    cases operation with
    | swap =>
      obtain ⟨-, _, hu⟩ := ho
      obtain ⟨_, he, -⟩ := internalSwapUnchecked_eq_ok h env hu
      exact absurd (executeActions_eq_ok h env he).1 hnr
    | addLiquidity | addStableLiquidity => exact .inr ⟨_, _, rfl, rfl⟩
  | updateAmlAccountId | updateAcceptedRiskScore | swap | addLiquidity | addStableLiquidity =>
    exact absurd hm.1 hnr
  | removeLiquidity => exact absurd (removeLiquidity_eq_ok h env hm.2).2.1 hnr
  | removeLiquidityByTokens =>
    obtain ⟨_, he⟩ := hm.2
    exact absurd (removeLiquidityByTokens_eq_ok h env he).2.1 hnr

/-- While paused, the clearing answer to Alice's pending request is a successful call, and
it is the callback of a request to add liquidity. -/
theorem call_while_paused_alice :
    ∃ w r c ps, Reachable simpleHost "exchange" w ∧ w.inFlight[0]? = some r ∧
      w.contract.state = .paused ∧
      w.contract.call simpleHost (Env.ofCallback "exchange" r clearAnswer)
        (.callbackAmlOperation r.operation r.senderId) = .ok (c, ps) ∧
      (w.contract.Untouched c ∨ ∃ operation senderId,
        Method.callbackAmlOperation r.operation r.senderId =
          .callbackAmlOperation operation senderId ∧ operation.addsLiquidity = true) := by
  obtain ⟨w, r, c, ps, hw, hr, hc, hp⟩ := freshExchange_reachable.exists_callback_of_run
    simpleHost "exchange" (aliceRequestRun ++ [.adapter "owner" 0 (.changeState .paused)]) 0
    clearAnswer (fun w _ _ => w.contract.state = .paused) (by decide)
  exact ⟨w, r, c, ps, hw, hr, hp, hc, call_while_paused simpleHost _ hp hc⟩

/-- A successful AML callback sends nothing, or exactly one transfer: the part of the
request's deposit the storage grown did not take, to the exchange itself. -/
theorem callback_receipts {self c : Contract Pool} {me : AccountId} {r : AmlRequest}
    {result : PromiseResult} {ps : List Promise}
    (hs : self.call h (Env.ofCallback me r result)
      (.callbackAmlOperation r.operation r.senderId) = .ok (c, ps)) :
    ps = [] ∨ r.operation.addsLiquidity = true ∧
      (h.storageUsage c - h.storageUsage self) * h.storageByteCost < r.attachedDeposit ∧
      ps = [.transfer me
        (r.attachedDeposit - (h.storageUsage c - h.storageUsage self) * h.storageByteCost)] := by
  obtain ⟨_, _, -, -, ho⟩ := callbackAmlOperation_eq_ok h _ (call_eq_ok h _ hs).2
  obtain ⟨_, _, operation, _, _⟩ := r
  cases operation with
  | swap => exact .inl ho.1
  | addLiquidity =>
    obtain ⟨-, _, _, _, _, -, -, -, -, -, hc⟩ := internalAddLiquidityUnchecked_eq_ok h _ ho
    exact (internalCheckStorage_refund h _ hc).imp_right (⟨rfl, ·⟩)
  | addStableLiquidity =>
    obtain ⟨_, ho⟩ := ho
    obtain ⟨-, _, _, _, -, -, -, -, hc⟩ := internalAddStableLiquidityUnchecked_eq_ok h _ ho
    exact (internalCheckStorage_refund h _ hc).imp_right (⟨rfl, ·⟩)

end Contract

/-- The receipts of the callback that adds Alice's liquidity. -/
theorem callback_receipts_alice :
    ∃ w r c ps, Reachable simpleHost "exchange" w ∧ w.inFlight[0]? = some r ∧
      w.contract.call simpleHost (Env.ofCallback "exchange" r clearAnswer)
        (.callbackAmlOperation r.operation r.senderId) = .ok (c, ps) ∧
      (ps = [] ∨ r.operation.addsLiquidity = true ∧
        (simpleHost.storageUsage c - simpleHost.storageUsage w.contract) *
          simpleHost.storageByteCost < r.attachedDeposit ∧
        ps = [.transfer "exchange" (r.attachedDeposit -
          (simpleHost.storageUsage c - simpleHost.storageUsage w.contract) *
            simpleHost.storageByteCost)]) := by
  obtain ⟨w, r, c, ps, hw, hr, hc, -⟩ := freshExchange_reachable.exists_callback_of_run
    simpleHost "exchange" aliceRequestRun 0 clearAnswer (fun _ _ _ => True) (by decide)
  exact ⟨w, r, c, ps, hw, hr, hc, Contract.callback_receipts simpleHost hc⟩

/-- The NEAR a list of receipts sends away: the amounts of its transfers, and the deposits
its AML requests forward to their callbacks. -/
def nearSent : List Promise → Nat
  | [] => 0
  | .transfer _ amount :: ps => amount + nearSent ps
  | .amlCheck r :: ps => r.attachedDeposit + nearSent ps

namespace Contract

variable {Pool : Type} (h : Host Pool) (env : Env)

/-- A storage check sends away at most the deposit, and only to the predecessor. -/
theorem internalCheckStorage_nearSent {self : Contract Pool} {prev : Nat} {ps : List Promise}
    (hs : self.internalCheckStorage h env prev = .ok ps) :
    nearSent ps ≤ env.attachedDeposit ∧ ∀ receiver amount,
      Promise.transfer receiver amount ∈ ps → receiver = env.predecessorAccountId := by
  rcases internalCheckStorage_refund h env hs with rfl | ⟨-, rfl⟩ <;> simp [nearSent]

/-- No call sends away more NEAR than is attached to it, and every transfer goes to its
predecessor: storage checks refund what storage did not take, requests forward the deposit. -/
theorem call_nearSent {self self' : Contract Pool} {m : Method} {ps : List Promise}
    (hs : self.call h env m = .ok (self', ps)) :
    nearSent ps ≤ env.attachedDeposit ∧ ∀ receiver amount,
      Promise.transfer receiver amount ∈ ps → receiver = env.predecessorAccountId := by
  have hm := call_eq_ok h env hs
  cases m with
  | addSimplePool =>
    obtain ⟨_, ha⟩ := hm
    obtain ⟨-, -, _, _, -, -, -, hc⟩ := addSimplePool_eq_ok h env ha
    exact internalCheckStorage_nearSent h env hc
  | addStableSwapPool =>
    obtain ⟨_, ha⟩ := hm
    obtain ⟨-, -, _, _, -, -, -, hc⟩ := addStableSwapPool_eq_ok h env ha
    exact internalCheckStorage_nearSent h env hc
  | executeActions | removeLiquidity | removeLiquidityByTokens => simp [hm.1, nearSent]
  | updateAmlAccountId | updateAcceptedRiskScore => simp [hm.2.2.2.2, nearSent]
  | callbackAmlOperation operation =>
    obtain ⟨_, _, -, -, ho⟩ := callbackAmlOperation_eq_ok h env hm.2
    cases operation with
    | swap => simp [ho.1, nearSent]
    | addLiquidity =>
      obtain ⟨-, _, _, _, _, -, -, -, -, -, hc⟩ := internalAddLiquidityUnchecked_eq_ok h env ho
      exact internalCheckStorage_nearSent h env hc
    | addStableLiquidity =>
      obtain ⟨_, ho⟩ := ho
      obtain ⟨-, _, _, _, -, -, -, -, hc⟩ := internalAddStableLiquidityUnchecked_eq_ok h env ho
      exact internalCheckStorage_nearSent h env hc
  | swap => simp [hm.2.2.1, nearSent, requestAml]
  | addLiquidity | addStableLiquidity => simp [hm.2.2, nearSent, requestAml]

end Contract

/-- Alice's `add_simple_pool` with `10^22` yoctoNEAR attached sends back at most those, and
only to her. -/
theorem call_nearSent_alice :
    ∃ w c ps, Reachable simpleHost "exchange" w ∧
      w.contract.call simpleHost (Env.ofCall "exchange" "alice" (10 ^ 22))
        (.addSimplePool ["tokA", "tokB"] 25) = .ok (c, ps) ∧
      nearSent ps ≤ 10 ^ 22 ∧
        ∀ receiver amount, Promise.transfer receiver amount ∈ ps → receiver = "alice" := by
  obtain ⟨w, w', hw, hn, -⟩ := freshExchange_reachable.exists_next_of_run simpleHost "exchange"
    (aliceRequestRun.take 4) (.call "alice" (10 ^ 22) (.addSimplePool ["tokA", "tokB"] 25))
    (fun _ _ => True) (by decide)
  obtain ⟨-, ps, hc⟩ := World.next_call_eq_some simpleHost "exchange" hn
  exact ⟨w, w'.contract, ps, hw, hc, Contract.call_nearSent simpleHost _ hc⟩

/-- Alice's request to add 500 of each token, with `10^22` yoctoNEAR for its storage, is
answered after a pause, and still moves 500 of her `tokA` into pool 0, which held none. -/
theorem addLiquidity_callback_runs_while_paused :
    ∃ w r c ps, Reachable simpleHost "exchange" w ∧ w.inFlight[0]? = some r ∧
      r.attachedDeposit = 10 ^ 22 ∧
      w.contract.call simpleHost (Env.ofCallback "exchange" r clearAnswer)
        (.callbackAmlOperation r.operation r.senderId) = .ok (c, ps) ∧
      w.contract.state = .paused ∧
      w.contract.pools[0]?.map (simplePools.reserve · "tokA") = some 0 ∧
      c.pools[0]?.map (simplePools.reserve · "tokA") = some 500 ∧
      ledgerBalance c.accounts "alice" "tokA" + 500 =
        ledgerBalance w.contract.accounts "alice" "tokA" := by
  obtain ⟨w, r, c, ps, hw, hr, hc, hd, hq⟩ :=
    freshExchange_reachable.exists_callback_of_run simpleHost "exchange"
      (aliceRequestRun ++ [.adapter "owner" 0 (.changeState .paused)]) 0 clearAnswer
      (fun w r x => r.attachedDeposit = 10 ^ 22 ∧ w.contract.state = .paused ∧
        w.contract.pools[0]?.map (simplePools.reserve · "tokA") = some 0 ∧
        x.1.pools[0]?.map (simplePools.reserve · "tokA") = some 500 ∧
        ledgerBalance x.1.accounts "alice" "tokA" + 500 =
          ledgerBalance w.contract.accounts "alice" "tokA") (by decide)
  exact ⟨w, r, c, ps, hw, hr, hd, hc, hq⟩

/-- Alice adds liquidity with `10^22` yoctoNEAR attached; the callback charges `7 · 10^20` for
her LP record and refunds the other `9.3 · 10^21` to the exchange, and nothing to Alice. -/
theorem addLiquidity_refund_goes_to_exchange :
    ∃ w r c, Reachable simpleHost "exchange" w ∧ w.inFlight[0]? = some r ∧
      r.senderId = "alice" ∧ r.attachedDeposit = 10 ^ 22 ∧
      (simpleHost.storageUsage c - simpleHost.storageUsage w.contract) *
        simpleHost.storageByteCost = 7 * 10 ^ 20 ∧
      w.contract.call simpleHost (Env.ofCallback "exchange" r clearAnswer)
        (.callbackAmlOperation r.operation r.senderId) =
          .ok (c, [.transfer "exchange" (93 * 10 ^ 20)]) := by
  obtain ⟨w, r, c, ps, hw, hr, hc, hs, hd, hu, rfl⟩ :=
    freshExchange_reachable.exists_callback_of_run simpleHost "exchange" aliceRequestRun 0
      clearAnswer (fun w r x => r.senderId = "alice" ∧ r.attachedDeposit = 10 ^ 22 ∧
        (simpleHost.storageUsage x.1 - simpleHost.storageUsage w.contract) *
          simpleHost.storageByteCost = 7 * 10 ^ 20 ∧
        x.2 = [.transfer "exchange" (93 * 10 ^ 20)]) (by decide)
  exact ⟨w, r, c, hw, hr, hs, hd, hu, hc⟩

end JumboExchange
