import JumboExchange.Pools.Simple

/-!
# Route semantics of the action loop

`swapRoute` reads a route as the spec does, over the pools alone: each hop takes its own
amount, else the previous output, and swaps in its pool as the previous hops left it. The
action loop refines it, moving the sender's balances by the outputs minus the inputs. On a
chained route only the first input and the last output remain, and over pools that
enforce `min_amount_out` every hop of a successful route meets its floor.
-/

namespace JumboExchange

namespace Contract

variable {Pool : Type} (h : Host Pool) (env : Env)

/-- The route as the spec reads it, over the pools alone, recording each hop's
`(amount in, amount out)`. -/
def swapRoute (self : Contract Pool) (referralId : Option AccountId) :
    List SwapAction → Option Nat → Except Error (List (Nat × Nat) × Contract Pool)
  | [], _ => .ok ([], self)
  | a :: as, prev =>
    match a.amountIn <|> prev, self.pools[a.poolId]? with
    | none, _ => .error .noAmount
    | _, none => .error (.panic "ERR_NO_POOL")
    | some amountIn, some pool =>
      h.pool.swap pool a.tokenIn amountIn a.tokenOut a.minAmountOut
          { exchangeFee := self.exchangeFee, exchangeId := env.currentAccountId,
            referralFee := self.referralFee, referralId } >>= fun r =>
        ({ self with pools := self.pools.set a.poolId r.2 }).swapRoute referralId as (some r.1)
          >>= fun s => .ok ((amountIn, r.1) :: s.1, s.2)

/-- Every hop after the first spends the whole output of the hop before it. -/
def Chained (actions : List SwapAction) : Prop :=
  ∀ k (hk : k + 1 < actions.length),
    actions[k + 1].amountIn = none ∧ actions[k + 1].tokenIn = actions[k].tokenOut

/-- The rest of a chained route is chained. -/
theorem Chained.tail {a b : SwapAction} {rest : List SwapAction}
    (hc : Chained (a :: b :: rest)) : Chained (b :: rest) :=
  fun k hk => hc (k + 1) (by simp only [List.length_cons] at hk ⊢; omega)

/-- The loop performs the route's swaps and returns the last output; the sender's balances
move by the outputs minus the inputs, and its NEAR not at all. -/
theorem internalExecuteActions_route (referralId : Option AccountId) :
    ∀ (actions : List SwapAction) (self : Contract Pool) (account : Account)
      (prev : ActionResult) {self' : Contract Pool} {account' : Account}
      {result : ActionResult},
      self.internalExecuteActions h env account referralId (actions.map .swap) prev
        = .ok (result, self', account') →
      ∃ hops, self.swapRoute h env referralId actions prev.amount? = .ok (hops, self') ∧
        result = (hops.getLast?.map fun hop => ActionResult.amount hop.2).getD prev ∧
        (∀ t, account'.balance t + amountFor t (actions.map (·.tokenIn)) (hops.map (·.1)) =
          account.balance t + amountFor t (actions.map (·.tokenOut)) (hops.map (·.2))) ∧
        account'.nearAmount = account.nearAmount
  | [], self, account, prev, _, _, _, hs => by
    cases hs
    exact ⟨[], rfl, rfl, fun t => rfl, rfl⟩
  | a :: as, self, account, prev, self', account', result, hs => by
    rw [List.map_cons, internalExecuteActions_cons] at hs
    obtain ⟨⟨r, c, acc₁⟩, ha, hs⟩ := Except.bind_eq_ok.mp hs
    obtain ⟨amountIn, amountOut, acc₀, hin, hw, hp, hd, rfl⟩ :=
      internalExecuteAction_eq_ok h env ha
    obtain ⟨pool, pool', hpool, hswap, rfl⟩ := internalPoolSwap_eq_ok h env hp
    obtain ⟨hops, hr, hres, hbal, hnear⟩ := internalExecuteActions_route referralId as _ acc₁ _ hs
    refine ⟨(amountIn, amountOut) :: hops, ?_, ?_, fun t => ?_, ?_⟩
    · simp only [swapRoute, hin, hpool, hswap, Except.ok_bind]
      exact congrArg (Except.bind · _) hr
    · rw [hres, List.getLast?_cons]
      cases hops.getLast? <;> rfl
    · have h₁ := Account.balance_withdraw_deposit hw hd t
      have h₂ := hbal t
      simp only [List.map_cons, amountFor] at h₂ ⊢
      omega
    · rw [hnear, Account.nearAmount_deposit hd, Account.nearAmount_withdraw hw]

/-- On a chained route whose first hop carries `x`, a successful run returns some `y` and moves
the balances by `-x` on the first input and `+y` on the last output only. -/
theorem internalExecuteActions_chained (referralId : Option AccountId) :
    ∀ (rest : List SwapAction) (a : SwapAction) (self : Contract Pool) (account : Account)
      (prev : ActionResult) (x : Nat) {self' : Contract Pool} {account' : Account}
      {result : ActionResult},
      (a.amountIn <|> prev.amount?) = some x → Chained (a :: rest) →
      self.internalExecuteActions h env account referralId ((a :: rest).map .swap) prev
        = .ok (result, self', account') →
      ∃ y, result = .amount y ∧ ∀ t,
        account'.balance t + (if a.tokenIn = t then x else 0) =
          account.balance t +
            (if ((a :: rest).getLast (List.cons_ne_nil a rest)).tokenOut = t then y else 0)
  | rest, a, self, account, prev, x, self', account', result, hx, hc, hs => by
    rw [List.map_cons, internalExecuteActions_cons] at hs
    obtain ⟨⟨r, c, acc₁⟩, ha, hs⟩ := Except.bind_eq_ok.mp hs
    obtain ⟨amountIn, amountOut, acc₀, hin, hw, hp, hd, rfl⟩ :=
      internalExecuteAction_eq_ok h env ha
    obtain rfl : amountIn = x := Option.some.inj (hin.symm.trans hx)
    have hstep := Account.balance_withdraw_deposit hw hd
    cases rest with
    | nil =>
      cases hs
      exact ⟨amountOut, rfl, hstep⟩
    | cons b rest =>
      obtain ⟨hbn, hbt⟩ := hc 0 (by simp)
      simp only [List.getElem_cons_succ, List.getElem_cons_zero] at hbn hbt
      obtain ⟨y, hy, hbal⟩ := internalExecuteActions_chained referralId rest b c acc₁
        (.amount amountOut) amountOut (by simp [hbn, ActionResult.amount?]) hc.tail hs
      refine ⟨y, hy, fun t => ?_⟩
      have h₁ := hbal t
      have h₂ := hstep t
      rw [List.getLast_cons (List.cons_ne_nil b rest)]
      rw [hbt] at h₁
      omega

/-- On a chained route, once the loop has run the first `k ≥ 1` hops, the withdrawal of
hop `k` cannot fail: the previous deposit left its whole input in the account. -/
theorem internalExecuteActions_chained_withdraw (referralId : Option AccountId)
    {actions : List SwapAction} (hc : Chained actions) (self : Contract Pool)
    (account : Account) (prev : ActionResult) {k : Nat} (hk₀ : 0 < k)
    (hk : k < actions.length) {r : ActionResult} {c : Contract Pool} {acc : Account}
    (hs : self.internalExecuteActions h env account referralId
      ((actions.take k).map .swap) prev = .ok (r, c, acc)) :
    ∃ x acc', r = .amount x ∧ acc.withdraw actions[k].tokenIn x = .ok acc' := by
  obtain ⟨j, rfl⟩ : ∃ j, k = j + 1 := ⟨k - 1, by omega⟩
  rw [List.take_succ, List.getElem?_eq_getElem (by omega), Option.toList_some, List.map_append,
    internalExecuteActions_append] at hs
  obtain ⟨⟨r₀, c₀, acc₀⟩, -, hs⟩ := Except.bind_eq_ok.mp hs
  rw [List.map_singleton, internalExecuteActions_cons] at hs
  obtain ⟨⟨r₁, c₁, acc₁⟩, ha, hs⟩ := Except.bind_eq_ok.mp hs
  cases hs
  obtain ⟨amountIn, amountOut, acc₂, -, -, -, hd, rfl⟩ := internalExecuteAction_eq_ok h env ha
  obtain ⟨acc', hw⟩ := Account.withdraw_ok_of_deposit hd
  exact ⟨amountOut, acc', rfl, (hc j hk).2 ▸ hw⟩

/-- Route semantics of `internal_execute_actions`: the loop refines `swapRoute`; on a chained
route only the ends remain, and no withdrawal after the first can fail. -/
theorem internalExecuteActions_route_semantics (referralId : Option AccountId) :
    (∀ (actions : List SwapAction) (self : Contract Pool) (account : Account)
      (prev : ActionResult) {self' : Contract Pool} {account' : Account}
      {result : ActionResult},
      self.internalExecuteActions h env account referralId (actions.map .swap) prev
        = .ok (result, self', account') →
      ∃ hops, self.swapRoute h env referralId actions prev.amount? = .ok (hops, self') ∧
        result = (hops.getLast?.map fun hop => ActionResult.amount hop.2).getD prev ∧
        (∀ t, account'.balance t + amountFor t (actions.map (·.tokenIn)) (hops.map (·.1)) =
          account.balance t + amountFor t (actions.map (·.tokenOut)) (hops.map (·.2))) ∧
        account'.nearAmount = account.nearAmount) ∧
    (∀ (rest : List SwapAction) (a : SwapAction) (self : Contract Pool) (account : Account)
      (prev : ActionResult) (x : Nat) {self' : Contract Pool} {account' : Account}
      {result : ActionResult},
      (a.amountIn <|> prev.amount?) = some x → Chained (a :: rest) →
      self.internalExecuteActions h env account referralId ((a :: rest).map .swap) prev
        = .ok (result, self', account') →
      ∃ y, result = .amount y ∧ ∀ t,
        account'.balance t + (if a.tokenIn = t then x else 0) =
          account.balance t +
            (if ((a :: rest).getLast (List.cons_ne_nil a rest)).tokenOut = t then y else 0)) ∧
    (∀ (actions : List SwapAction), Chained actions →
      ∀ (self : Contract Pool) (account : Account) (prev : ActionResult) (k : Nat),
      0 < k → (hk : k < actions.length) →
      ∀ {r : ActionResult} {c : Contract Pool} {acc : Account},
      self.internalExecuteActions h env account referralId ((actions.take k).map .swap) prev
        = .ok (r, c, acc) →
      ∃ x acc', r = .amount x ∧ acc.withdraw actions[k].tokenIn x = .ok acc') :=
  ⟨internalExecuteActions_route h env referralId,
    internalExecuteActions_chained h env referralId,
    fun _ hc self account prev _ hk₀ hk _ _ _ hs =>
      internalExecuteActions_chained_withdraw h env referralId hc self account prev hk₀ hk hs⟩

/-- Over pools that pay at least the minimum they are given, every hop of a route pays at
least its action's `min_amount_out`. -/
theorem swapRoute_minOut (hm : h.pool.EnforcesMinOut) (referralId : Option AccountId) :
    ∀ (actions : List SwapAction) (self : Contract Pool) (prev : Option Nat)
      {hops : List (Nat × Nat)} {self' : Contract Pool},
      self.swapRoute h env referralId actions prev = .ok (hops, self') →
      List.Forall₂ (fun a hop => a.minAmountOut ≤ hop.2) actions hops
  | [], _, _, _, _, hs => by cases hs; exact .nil
  | a :: as, self, prev, hops, self', hs => by
    simp only [swapRoute] at hs
    split at hs
    · cases hs
    · cases hs
    · obtain ⟨r, hr, hs⟩ := Except.bind_eq_ok.mp hs
      obtain ⟨s, hs', hs⟩ := Except.bind_eq_ok.mp hs
      cases hs
      exact .cons (hm hr) (swapRoute_minOut hm referralId as _ _ hs')

/-- Slippage protection: over pools that pay their minimum, a successful loop performs the
route's swaps, and every hop paid at least its action's `min_amount_out`. -/
theorem internalExecuteActions_minOut (hm : h.pool.EnforcesMinOut)
    (referralId : Option AccountId) {actions : List SwapAction} {self self' : Contract Pool}
    {account account' : Account} {prev result : ActionResult}
    (hs : self.internalExecuteActions h env account referralId (actions.map .swap) prev
      = .ok (result, self', account')) :
    ∃ hops, self.swapRoute h env referralId actions prev.amount? = .ok (hops, self') ∧
      result = (hops.getLast?.map fun hop => ActionResult.amount hop.2).getD prev ∧
        List.Forall₂ (fun a hop => a.minAmountOut ≤ hop.2) actions hops := by
  obtain ⟨hops, hr, hres, -⟩ :=
    internalExecuteActions_route h env referralId actions self account prev hs
  exact ⟨hops, hr, hres, swapRoute_minOut h env hm referralId actions self _ hr⟩

end Contract

/-- A round trip `tokA → tokB → tokA` in one pool, the second hop spending the first's
output. -/
def roundTrip : List SwapAction :=
  [⟨0, "tokA", some 10, "tokB", 0⟩, ⟨0, "tokB", none, "tokA", 0⟩]

/-- A pool of 1000 `tokA` and 1000 `tokB`, and an account holding 100 `tokA`. -/
def roundTripState : Contract SimplePool × Account :=
  ({ freshExchange.contract with
      pools := [⟨0, "tokA", "tokB", 1000, 1000, 25, ∅, 1000⟩] },
    ⟨0, (∅ : AccountMap Nat).insert "tokA" 100⟩)

/-- Alice's round trip of 10 `tokA`: the intermediate `tokB` nets to zero, and only the
first input and the last output remain. -/
theorem roundTrip_nets_first_and_last :
    ∃ result self' account', roundTripState.1.internalExecuteActions simpleHost
        (Env.ofCall "exchange" "alice" 1) roundTripState.2 none (roundTrip.map .swap) .none
        = .ok (result, self', account') ∧
      ∃ y, result = .amount y ∧ ∀ t, account'.balance t + (if "tokA" = t then 10 else 0) =
        roundTripState.2.balance t + (if "tokA" = t then y else 0) := by
  have hc : Contract.Chained roundTrip := fun k hk => by
    obtain rfl : k = 0 := by simp only [roundTrip, List.length_cons, List.length_nil] at hk; omega
    exact ⟨rfl, rfl⟩
  obtain ⟨⟨result, self', account'⟩, hs⟩ := Except.exists_eq_ok_of_toBool (by decide :
    (roundTripState.1.internalExecuteActions simpleHost (Env.ofCall "exchange" "alice" 1)
      roundTripState.2 none (roundTrip.map .swap) .none).toBool = true)
  exact ⟨result, self', account', hs,
    (Contract.internalExecuteActions_route_semantics simpleHost _ none).2.1
      [⟨0, "tokB", none, "tokA", 0⟩] ⟨0, "tokA", some 10, "tokB", 0⟩ roundTripState.1
      roundTripState.2 .none 10 rfl hc hs⟩

/-- The round trip with a floor of 5 on its last hop: it succeeds, and each hop of its
route met its floor. -/
theorem roundTrip_minOut :
    ∃ result self' account', roundTripState.1.internalExecuteActions simpleHost
        (Env.ofCall "exchange" "alice" 1) roundTripState.2 none
        ([⟨0, "tokA", some 10, "tokB", 0⟩, ⟨0, "tokB", none, "tokA", 5⟩].map .swap) .none
        = .ok (result, self', account') ∧
      ∃ hops, roundTripState.1.swapRoute simpleHost (Env.ofCall "exchange" "alice" 1) none
          [⟨0, "tokA", some 10, "tokB", 0⟩, ⟨0, "tokB", none, "tokA", 5⟩] none = .ok (hops, self') ∧
        result = (hops.getLast?.map fun hop => ActionResult.amount hop.2).getD .none ∧
          List.Forall₂ (fun (a : SwapAction) hop => a.minAmountOut ≤ hop.2)
            [⟨0, "tokA", some 10, "tokB", 0⟩, ⟨0, "tokB", none, "tokA", 5⟩] hops := by
  obtain ⟨⟨result, self', account'⟩, hs⟩ := Except.exists_eq_ok_of_toBool (by decide :
    (roundTripState.1.internalExecuteActions simpleHost (Env.ofCall "exchange" "alice" 1)
      roundTripState.2 none
      ([⟨0, "tokA", some 10, "tokB", 0⟩, ⟨0, "tokB", none, "tokA", 5⟩].map .swap)
      .none).toBool = true)
  exact ⟨result, self', account', hs,
    Contract.internalExecuteActions_minOut simpleHost _ simplePools_enforcesMinOut none hs⟩

end JumboExchange
