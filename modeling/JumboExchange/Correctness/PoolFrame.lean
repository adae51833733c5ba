import JumboExchange.Correctness.Authorization

/-!
# Pool isolation

`lib.rs` replaces a pool only at the index a call names: the `pool_id` of a swap action, of
a removal, or of the request an add-liquidity callback runs; pool creation only appends.
So a call never changes a pool it does not name, and its requests name only pools it
names. Along a run, a pool that no call and no request in flight names stays as it is.
-/

namespace JumboExchange

/-- The pool a swap action swaps in. -/
def Action.poolId : Action → Nat
  | .swap a => a.poolId

/-- The pools an AML operation names. -/
def AmlOperation.poolsNamed : AmlOperation → List Nat
  | .swap actions _ => actions.map (·.poolId)
  | .addLiquidity poolId _ _ => [poolId]
  | .addStableLiquidity poolId _ _ => [poolId]

/-- The pools a method names: those its actions swap in, those of the AML operation it runs
or requests, or its `pool_id`. -/
def Method.poolsNamed : Method → List Nat
  | .executeActions actions _ _ => actions.map Action.poolId
  | .callbackAmlOperation operation _ => operation.poolsNamed
  | .swap actions _ => actions.map (·.poolId)
  | .addLiquidity poolId _ _ => [poolId]
  | .addStableLiquidity poolId _ _ => [poolId]
  | .removeLiquidity poolId _ _ => [poolId]
  | .removeLiquidityByTokens poolId _ _ => [poolId]
  | _ => []

/-- The pools a call event names; an adapter call or an answer names none. -/
def Event.poolsNamed : Event → List Nat
  | .call _ _ m => m.poolsNamed
  | _ => []

namespace Contract

variable {Pool : Type} (h : Host Pool) (env : Env)

/-- The loop changes only the pools its actions swap in. -/
theorem internalExecuteActions_pool_frame (referralId : Option AccountId) {i : Nat} :
    ∀ (actions : List Action) (self : Contract Pool) (account : Account) (prev : ActionResult)
      {result : ActionResult} {self' : Contract Pool} {account' : Account},
      self.internalExecuteActions h env account referralId actions prev
        = .ok (result, self', account') → i ∉ actions.map Action.poolId →
        self'.pools[i]? = self.pools[i]?
  | [], _, _, _, _, _, _, hs, _ => by cases hs; rfl
  | .swap a :: actions, self, account, prev, result, self', account', hs, hi => by
    rw [internalExecuteActions_cons] at hs
    obtain ⟨⟨r, c, acc⟩, ha, hs⟩ := Except.bind_eq_ok.mp hs
    obtain ⟨_, _, _, -, -, hp, -, -⟩ := internalExecuteAction_eq_ok h env ha
    obtain ⟨_, _, -, -, rfl⟩ := internalPoolSwap_eq_ok h env hp
    simp only [List.map_cons, List.mem_cons, not_or] at hi
    exact (internalExecuteActions_pool_frame referralId actions _ acc r hs hi.2).trans
      (List.getElem?_set_ne (Ne.symm hi.1))

/-- `execute_actions` changes only the pools its actions swap in. -/
theorem executeActions_pool_frame {self self' : Contract Pool} {actions : List Action}
    {referralId : Option AccountId} {senderId : AccountId} {result : ActionResult}
    (hs : self.executeActions h env actions referralId senderId = .ok (result, self'))
    {i : Nat} (hi : i ∉ actions.map Action.poolId) : self'.pools[i]? = self.pools[i]? := by
  obtain ⟨-, account, c, account', -, -, he, rfl⟩ := executeActions_eq_ok h env hs
  have hc := internalExecuteActions_pool_frame h env referralId actions self account .none he hi
  exact hc

/-- No call changes a pool it does not name, and no AML request it sends names such a
pool. -/
theorem call_pool_frame {self self' : Contract Pool} {m : Method} {ps : List Promise}
    (hs : self.call h env m = .ok (self', ps)) {i : Nat} {p : Pool}
    (hp : self.pools[i]? = some p) (hi : i ∉ m.poolsNamed) :
    self'.pools[i]? = some p ∧ ∀ r ∈ amlRequests ps, i ∉ r.operation.poolsNamed := by
  have hlt : i < self.pools.length := (List.getElem?_eq_some_iff.mp hp).1
  have hm := call_eq_ok h env hs
  cases m with
  | addSimplePool =>
    obtain ⟨_, ha⟩ := hm
    obtain ⟨-, -, _, _, -, -, rfl, hc⟩ := addSimplePool_eq_ok h env ha
    refine ⟨by rw [List.getElem?_append_left hlt, hp], ?_⟩
    rw [internalCheckStorage_amlRequests h env hc]
    intro r hr; cases hr
  | addStableSwapPool =>
    obtain ⟨_, ha⟩ := hm
    obtain ⟨-, -, _, _, -, -, rfl, hc⟩ := addStableSwapPool_eq_ok h env ha
    refine ⟨by rw [List.getElem?_append_left hlt, hp], ?_⟩
    rw [internalCheckStorage_amlRequests h env hc]
    intro r hr; cases hr
  | executeActions =>
    obtain ⟨rfl, _, he⟩ := hm
    exact ⟨(executeActions_pool_frame h env he hi).trans hp, fun r hr => by cases hr⟩
  | updateAmlAccountId | updateAcceptedRiskScore =>
    obtain ⟨-, -, -, rfl, rfl⟩ := hm
    exact ⟨hp, fun r hr => by cases hr⟩
  | callbackAmlOperation operation =>
    obtain ⟨_, _, -, -, ho⟩ := callbackAmlOperation_eq_ok h env hm.2
    refine ⟨?_, by rw [ho.amlRequests_eq_nil h env]; intro r hr; cases hr⟩
    cases operation with
    | swap =>
      obtain ⟨-, _, hu⟩ := ho
      obtain ⟨_, he, -⟩ := internalSwapUnchecked_eq_ok h env hu
      exact (executeActions_pool_frame h env he (by simpa [Method.poolsNamed,
        AmlOperation.poolsNamed, Action.poolId] using hi)).trans hp
    | addLiquidity =>
      obtain ⟨-, _, _, _, _, -, -, -, -, rfl, -⟩ := internalAddLiquidityUnchecked_eq_ok h env ho
      simp only [Method.poolsNamed, AmlOperation.poolsNamed, List.mem_singleton] at hi
      simpa [List.getElem?_set_ne (Ne.symm hi)] using hp
    | addStableLiquidity =>
      obtain ⟨_, ho⟩ := ho
      obtain ⟨-, _, _, _, -, -, -, rfl, -⟩ := internalAddStableLiquidityUnchecked_eq_ok h env ho
      simp only [Method.poolsNamed, AmlOperation.poolsNamed, List.mem_singleton] at hi
      simpa [List.getElem?_set_ne (Ne.symm hi)] using hp
  | swap | addLiquidity | addStableLiquidity =>
    obtain ⟨-, rfl, rfl, -⟩ := hm
    exact ⟨hp, by
      simpa [amlRequests, requestAml, Method.poolsNamed, AmlOperation.poolsNamed] using hi⟩
  | removeLiquidity =>
    obtain ⟨rfl, hr⟩ := hm
    obtain ⟨-, -, _, _, _, _, -, -, -, _, -, rfl⟩ := removeLiquidity_eq_ok h env hr
    simp only [Method.poolsNamed, List.mem_singleton] at hi
    exact ⟨by simpa [List.getElem?_set_ne (Ne.symm hi)] using hp, fun r hr => by cases hr⟩
  | removeLiquidityByTokens =>
    obtain ⟨rfl, _, hr⟩ := hm
    obtain ⟨-, -, _, _, _, -, -, -, _, -, rfl⟩ := removeLiquidityByTokens_eq_ok h env hr
    simp only [Method.poolsNamed, List.mem_singleton] at hi
    exact ⟨by simpa [List.getElem?_set_ne (Ne.symm hi)] using hp, fun r hr => by cases hr⟩

end Contract

section Runs

variable {Pool : Type} (h : Host Pool) (me : AccountId)

/-- One event that names no pool `i`, answering no request that names it, keeps pool `i`
and sends no request that names it. -/
theorem World.next_pool_untouched {w w' : World Pool} {e : Event} (hn : w.next h me e = some w')
    {i : Nat} {p : Pool} (hp : w.contract.pools[i]? = some p) (he : i ∉ e.poolsNamed)
    (hq : ∀ r ∈ w.inFlight, i ∉ r.operation.poolsNamed) :
    w'.contract.pools[i]? = some p ∧ ∀ r ∈ w'.inFlight, i ∉ r.operation.poolsNamed := by
  have hs := World.next_eq_some h me hn
  cases e with
  | call caller deposit m =>
    obtain ⟨-, ps, hc, hf⟩ := hs
    obtain ⟨hp', hps⟩ := Contract.call_pool_frame h _ hc hp he
    refine ⟨hp', fun r hr => ?_⟩
    rcases List.mem_append.mp (hf ▸ hr) with hr | hr
    · exact hq r hr
    · exact hps r hr
  | adapter caller deposit m =>
    obtain ⟨-, hc, hf⟩ := hs
    exact ⟨by rw [Contract.callAdapter_pools _ hc, hp], hf ▸ hq⟩
  | answer j result =>
    have hrest : ∀ r' ∈ w.inFlight.eraseIdx j, i ∉ r'.operation.poolsNamed :=
      fun r' hr' => hq r' (List.mem_of_mem_eraseIdx hr')
    obtain ⟨r, hj, ⟨ps, hc, hf⟩ | ⟨-, rfl⟩⟩ := hs
    · obtain ⟨hp', hps⟩ := Contract.call_pool_frame h _ hc hp (hq r (List.getElem?_mem hj))
      refine ⟨hp', fun r' hr' => ?_⟩
      rcases List.mem_append.mp (hf ▸ hr') with hr' | hr'
      · exact hrest r' hr'
      · exact hps r' hr'
    · exact ⟨hp, hrest⟩

/-- Pool isolation along runs: a pool that no call of the run and no request in flight names
ends the run as it began, and no request left in flight names it. -/
theorem World.run_pool_untouched {w w' : World Pool} {es : List Event} {i : Nat} {p : Pool}
    (hr : w.run h me es = some w') (hp : w.contract.pools[i]? = some p)
    (he : ∀ e ∈ es, i ∉ e.poolsNamed) (hq : ∀ r ∈ w.inFlight, i ∉ r.operation.poolsNamed) :
    w'.contract.pools[i]? = some p ∧ ∀ r ∈ w'.inFlight, i ∉ r.operation.poolsNamed := by
  induction es generalizing w with
  | nil => cases hr; exact ⟨hp, hq⟩
  | cons e es ih =>
    obtain ⟨w₁, hn, hr₁⟩ := Option.bind_eq_some.mp hr
    obtain ⟨hp₁, hq₁⟩ := World.next_pool_untouched h me hn hp (he e (List.mem_cons_self _ _)) hq
    exact ih hr₁ hp₁ (fun e he' => he e (List.mem_cons_of_mem _ he')) hq₁

end Runs

/-- With a second pool created after the funded run, Alice's swap in pool 0 through the AML
gate, answered, leaves pool 1 as it was. -/
theorem aliceSwap_keeps_pool :
    ∃ w w' p, freshExchange.run simpleHost "exchange"
        (fundedRun ++ [.call "alice" (10 ^ 22) (.addSimplePool ["tokA", "tokB"] 5)]) = some w ∧
      w.run simpleHost "exchange" [.call "alice" 1 (.swap [⟨0, "tokA", some 10, "tokB", 0⟩] none),
        .answer 0 clearAnswer] = some w' ∧
      w.contract.pools[1]? = some p ∧ w'.contract.pools[1]? = some p := by
  obtain ⟨w', hw'⟩ := Option.isSome_iff_exists.mp (by decide :
    ((freshExchange.run simpleHost "exchange"
      (fundedRun ++ [.call "alice" (10 ^ 22) (.addSimplePool ["tokA", "tokB"] 5)])).bind
        (World.run simpleHost "exchange" · [.call "alice" 1
          (.swap [⟨0, "tokA", some 10, "tokB", 0⟩] none), .answer 0 clearAnswer])).isSome = true)
  obtain ⟨w, hw, hr⟩ := Option.bind_eq_some.mp hw'
  have hf : (freshExchange.run simpleHost "exchange"
      (fundedRun ++ [.call "alice" (10 ^ 22) (.addSimplePool ["tokA", "tokB"] 5)])).map
        (fun w => (w.contract.pools[1]?.isSome, w.inFlight)) = some (true, []) := by
    decide
  rw [hw] at hf
  simp only [Option.map_some', Option.some.injEq, Prod.mk.injEq] at hf
  obtain ⟨p, hp⟩ := Option.isSome_iff_exists.mp hf.1
  exact ⟨w, w', p, hw, hr, hp, (World.run_pool_untouched simpleHost "exchange" hr hp (by decide)
    (by rw [hf.2]; intro r hr; cases hr)).1⟩

end JumboExchange
