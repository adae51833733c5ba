import JumboExchange.Correctness.Authorization

/-!
# The AML path of a swap

`swap` only asks the AML contract about the caller and hands the actions to the callback,
which `internal_swap_unchecked` turns into `execute_actions` for the requester. That call
reads of its environment only the exchange's account and the attached deposit, and a
pending request always carries an action. So an allowing answer runs exactly the
requester's own `execute_actions`, failure included: the gate delays and filters a swap.
-/

namespace JumboExchange

/-- Every pending swap request carries at least one action. -/
def World.SwapsNonempty {Pool : Type} (w : World Pool) : Prop :=
  ∀ r ∈ w.inFlight, ∀ actions referralId, r.operation = .swap actions referralId → actions ≠ []

namespace Contract

variable {Pool : Type} (h : Host Pool)

/-- The loop reads of its environment only the exchange's own account. -/
theorem internalExecuteActions_env {env env' : Env}
    (he : env.currentAccountId = env'.currentAccountId) (referralId : Option AccountId) :
    ∀ (actions : List Action) (self : Contract Pool) (account : Account) (prev : ActionResult),
      self.internalExecuteActions h env account referralId actions prev =
        self.internalExecuteActions h env' account referralId actions prev
  | [], _, _, _ => rfl
  | .swap a :: actions, self, account, prev => by
    simp only [internalExecuteActions_cons, internalExecuteAction, internalPoolSwap, he,
      internalExecuteActions_env he referralId actions]

/-- `execute_actions` reads of its environment only the exchange's own account and the
attached deposit, not the predecessor. -/
theorem executeActions_env (env env' : Env) (he : env.currentAccountId = env'.currentAccountId)
    (hd : env.attachedDeposit = env'.attachedDeposit) (self : Contract Pool)
    (actions : List Action) (referralId : Option AccountId) (senderId : AccountId) :
    self.executeActions h env actions referralId senderId =
      self.executeActions h env' actions referralId senderId := by
  simp only [executeActions, hd, internalExecuteActions_env h he]

variable (env : Env)

/-- A loop over at least one action returns an amount. -/
theorem internalExecuteActions_amount (referralId : Option AccountId) :
    ∀ (actions : List Action) (self : Contract Pool) (account : Account) (prev : ActionResult)
      {result : ActionResult} {self' : Contract Pool} {account' : Account}, actions ≠ [] →
      self.internalExecuteActions h env account referralId actions prev
        = .ok (result, self', account') → ∃ v, result = .amount v
  | [], _, _, _, _, _, _, hne, _ => absurd rfl hne
  | .swap a :: actions, self, account, prev, result, self', account', _, hs => by
    rw [internalExecuteActions_cons] at hs
    obtain ⟨⟨r, c, acc⟩, ha, hs⟩ := Except.bind_eq_ok.mp hs
    obtain ⟨_, v, _, -, -, -, -, rfl⟩ := internalExecuteAction_eq_ok h env ha
    cases actions with
    | nil => cases hs; exact ⟨v, rfl⟩
    | cons b rest =>
      exact internalExecuteActions_amount referralId _ c acc _ (List.cons_ne_nil _ _) hs

/-- On an allowing answer, the callback of a swap request has exactly the outcome of the
sender's own `execute_actions` with the deposit the request forwarded. -/
theorem call_callback_swap (me : AccountId) (self : Contract Pool) (r : AmlRequest)
    {actions : List SwapAction} {referralId : Option AccountId}
    (hop : r.operation = .swap actions referralId) (hne : actions ≠ []) {category : String}
    {risk : UInt8} (ha : self.isAmlAllowed category risk = true) :
    self.call h (Env.ofCallback me r (.successful (some (category, risk))))
        (.callbackAmlOperation r.operation r.senderId) =
      self.call h (Env.ofCall me r.senderId r.attachedDeposit)
        (.executeActions (actions.map .swap) referralId r.senderId) := by
  rw [hop]
  simp only [call, callbackAmlOperation, amlOperation, internalSwapUnchecked, require,
    Env.ofCallback, ha, if_true, List.head?_cons, Except.ok_bind]
  rw [executeActions_env h ⟨me, me, r.attachedDeposit, [.successful (some (category, risk))]⟩
    (Env.ofCall me r.senderId r.attachedDeposit) rfl rfl]
  cases hx : self.executeActions h (Env.ofCall me r.senderId r.attachedDeposit)
      (actions.map .swap) referralId r.senderId with
  | error => rfl
  | ok x =>
    obtain ⟨-, _, _, _, -, -, he, -⟩ := executeActions_eq_ok h _ hx
    obtain ⟨v, hv⟩ := internalExecuteActions_amount h _ referralId _ _ _ _ (by simpa using hne) he
    simp [hv, ActionResult.toAmount]

end Contract

section Runs

variable {Pool : Type} (h : Host Pool) (me : AccountId)

/-- Along every run, every pending swap request carries at least one action. -/
theorem Reachable.swapsNonempty {w : World Pool} (hw : Reachable h me w) : w.SwapsNonempty := by
  induction hw with
  | init => intro r hr; cases hr
  | step _ hs ih =>
    cases hs with
    | lib hl =>
      cases hl with
      | call _ _ _ _ hc =>
        intro r hr
        rcases List.mem_append.mp hr with hr | hr
        · exact ih r hr
        · rcases Contract.call_receipts h _ hc with rfl | ⟨c, prev, hcs⟩ | ⟨op, rfl, hop⟩
          · cases hr
          · rw [Contract.internalCheckStorage_amlRequests h _ hcs] at hr
            cases hr
          · simp only [amlRequests, Contract.requestAml, List.mem_singleton] at hr
            subst hr
            exact hop
      | callback _ _ _ _ hc =>
        intro r hr
        rcases List.mem_append.mp hr with hr | hr
        · exact ih r (List.mem_of_mem_eraseIdx hr)
        · obtain ⟨_, _, -, -, ho⟩ :=
            Contract.callbackAmlOperation_eq_ok h _ (Contract.call_eq_ok h _ hc).2
          rw [ho.amlRequests_eq_nil h _] at hr
          cases hr
      | callbackFails => exact fun r hr => ih r (List.mem_of_mem_eraseIdx hr)
    | adapter => exact ih

/-- The AML path refines the direct one: in every reachable world, an allowing answer to a
pending swap runs exactly the judged account's own `execute_actions`, failure included. -/
theorem Reachable.answer_swap {w : World Pool} (hw : Reachable h me w) {i : Nat}
    {r : AmlRequest} (hi : w.inFlight[i]? = some r) {actions : List SwapAction}
    {referralId : Option AccountId} (hop : r.operation = .swap actions referralId)
    {category : String} {risk : UInt8} (ha : w.contract.isAmlAllowed category risk = true) :
    r.senderId = r.accountId ∧
      w.contract.call h (Env.ofCallback me r (.successful (some (category, risk))))
          (.callbackAmlOperation r.operation r.senderId) =
        w.contract.call h (Env.ofCall me r.senderId r.attachedDeposit)
          (.executeActions (actions.map .swap) referralId r.senderId) :=
  ⟨hw.requestsOwned h me r (List.getElem?_mem hi), Contract.call_callback_swap h me w.contract r hop
    (hw.swapsNonempty h me r (List.getElem?_mem hi) actions referralId hop) ha⟩

end Runs

/-- After the funded run Alice asks to swap 10 `tokA` for `tokB`; the clearing answer to her
request runs what her own `execute_actions` would. -/
theorem aliceSwap_answer :
    ∃ w r, Reachable simpleHost "exchange" w ∧ w.inFlight[0]? = some r ∧
      r.operation = .swap [⟨0, "tokA", some 10, "tokB", 0⟩] none ∧
      r.senderId = r.accountId ∧
      w.contract.call simpleHost (Env.ofCallback "exchange" r (.successful (some ("None", 0))))
          (.callbackAmlOperation r.operation r.senderId) =
        w.contract.call simpleHost (Env.ofCall "exchange" r.senderId r.attachedDeposit)
          (.executeActions ([⟨0, "tokA", some 10, "tokB", 0⟩].map .swap) none r.senderId) := by
  obtain ⟨r, hr⟩ := Option.isSome_iff_exists.mp (by decide :
    ((freshExchange.run simpleHost "exchange"
      (fundedRun ++ [.call "alice" 1 (.swap [⟨0, "tokA", some 10, "tokB", 0⟩] none)])).bind
        (·.inFlight[0]?)).isSome = true)
  have hop : ((freshExchange.run simpleHost "exchange"
      (fundedRun ++ [.call "alice" 1 (.swap [⟨0, "tokA", some 10, "tokB", 0⟩] none)])).bind
        (·.inFlight[0]?)).map (·.operation) =
      some (.swap [⟨0, "tokA", some 10, "tokB", 0⟩] none) := by decide
  rw [hr] at hop
  obtain ⟨w, hw, hi⟩ := Option.bind_eq_some.mp hr
  have hreach := freshExchange_reachable.run simpleHost "exchange" hw
  exact ⟨w, r, hreach, hi, Option.some.inj hop,
    Reachable.answer_swap simpleHost "exchange" hreach hi (Option.some.inj hop)
      (by simp [Contract.isAmlAllowed])⟩

end JumboExchange
