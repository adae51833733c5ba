import JumboExchange.Correctness.PoolFrame

/-!
# Independent trades commute

`execute_actions` reads the running state, the whitelist, the fees, its sender's account
and the pools its actions name, and writes only that account and those pools. So two calls
for different senders over disjoint pools do not interfere, and land in either order with
the same results and the same exchange, but for the order of the ledger's entries, which
the `LookupMap` of `lib.rs` does not have.
-/

namespace JumboExchange

namespace Contract

variable {Pool : Type} (h : Host Pool) (env : Env)

/-- The action loop reads of the contract only the fees and the pools its actions name: on
two states that agree on these it has the same outcome, error included. -/
theorem internalExecuteActions_reads (referralId : Option AccountId) :
    ∀ (actions : List Action) (c d : Contract Pool), d.exchangeFee = c.exchangeFee →
      d.referralFee = c.referralFee →
      (∀ j ∈ actions.map Action.poolId, d.pools[j]? = c.pools[j]?) →
      ∀ (account : Account) (prev : ActionResult),
        (d.internalExecuteActions h env account referralId actions prev).map
            (fun r => (r.1, r.2.2)) =
          (c.internalExecuteActions h env account referralId actions prev).map
            (fun r => (r.1, r.2.2))
  | [], _, _, _, _, _, _, _ => rfl
  | .swap b :: actions, c, d, hfe, hrf, hp, account, prev => by
    have hb : d.pools[b.poolId]? = c.pools[b.poolId]? := hp _ (List.mem_cons_self _ _)
    simp only [internalExecuteActions_cons, internalExecuteAction, internalPoolSwap, hb, hfe, hrf]
    cases (b.amountIn.map pure).getD prev.toAmount with
    | error => rfl
    | ok amountIn =>
      simp only [Except.ok_bind]
      cases account.withdraw b.tokenIn amountIn with
      | error => rfl
      | ok acc =>
        simp only [Except.ok_bind]
        cases hc : c.pools[b.poolId]? with
        | none => rfl
        | some pool =>
          simp only [expect, Except.ok_bind]
          cases h.pool.swap pool b.tokenIn amountIn b.tokenOut b.minAmountOut _ with
          | error => rfl
          | ok r =>
            simp only [Except.ok_bind, pure, Except.pure]
            cases acc.deposit b.tokenOut r.1 with
            | error => rfl
            | ok acc' =>
              simp only [Except.ok_bind]
              refine internalExecuteActions_reads referralId actions
                { c with pools := c.pools.set b.poolId r.2 }
                { d with exchangeFee := c.exchangeFee, referralFee := c.referralFee,
                         pools := d.pools.set b.poolId r.2 } rfl rfl (fun j hj => ?_) acc'
                (.amount r.1)
              by_cases hjb : b.poolId = j
              · subst hjb
                rw [List.getElem?_set_self (List.getElem?_eq_some_iff.mp (hb.trans hc)).1,
                  List.getElem?_set_self (List.getElem?_eq_some_iff.mp hc).1]
              · rw [List.getElem?_set_ne hjb, List.getElem?_set_ne hjb]
                exact hp j (List.mem_cons_of_mem _ hj)

/-- `execute_actions` reads only the running state, the whitelist, the fees, the sender's
account and the pools its actions name: on states that agree there, the same outcome. -/
theorem executeActions_reads {c d : Contract Pool} {actions : List Action}
    {referralId : Option AccountId} {senderId : AccountId} (hst : d.state = c.state)
    (hwl : d.whitelistedTokens = c.whitelistedTokens) (hfe : d.exchangeFee = c.exchangeFee)
    (hrf : d.referralFee = c.referralFee)
    (ha : d.accounts.lookup senderId = c.accounts.lookup senderId)
    (hp : ∀ j ∈ actions.map Action.poolId, d.pools[j]? = c.pools[j]?) :
    (d.executeActions h env actions referralId senderId).map Prod.fst =
      (c.executeActions h env actions referralId senderId).map Prod.fst := by
  simp only [executeActions, assertContractRunning, internalUnwrapAccount, tokensAllowed, hst,
    hwl, ha]
  cases c.state with
  | running =>
    simp only [Except.ok_bind]
    cases c.accounts.lookup senderId with
    | none => rfl
    | some account =>
      simp only [Except.ok_bind, require]
      split
      · have hl :=
          internalExecuteActions_reads h env referralId actions c d hfe hrf hp account .none
        cases hx : d.internalExecuteActions h env account referralId actions .none <;>
          cases hy : c.internalExecuteActions h env account referralId actions .none <;>
          simp_all [Except.map]
      · rfl
  | _ => rfl

/-- Two action loops over disjoint pools commute: if one runs and then the other, the other
runs first and then the one, with the same results and accounts, to the same state. -/
theorem internalExecuteActions_comm (env₁ env₂ : Env) (ref₁ ref₂ : Option AccountId)
    (l₁ : List Action) :
    ∀ (l₂ : List Action), (∀ j ∈ l₁.map Action.poolId, j ∉ l₂.map Action.poolId) →
    ∀ {c c₁ c₁₂ : Contract Pool} {acc₁ acc₂ a₁ a₂ : Account} {p₁ p₂ r₁ r₂ : ActionResult},
      c.internalExecuteActions h env₁ acc₁ ref₁ l₁ p₁ = .ok (r₁, c₁, a₁) →
      c₁.internalExecuteActions h env₂ acc₂ ref₂ l₂ p₂ = .ok (r₂, c₁₂, a₂) →
      ∃ c₂, c.internalExecuteActions h env₂ acc₂ ref₂ l₂ p₂ = .ok (r₂, c₂, a₂) ∧
        c₂.internalExecuteActions h env₁ acc₁ ref₁ l₁ p₁ = .ok (r₁, c₁₂, a₁)
  | [], _, c, c₁, c₁₂, acc₁, acc₂, a₁, a₂, p₁, p₂, r₁, r₂, h₁, h₂ => by
    cases h₂
    exact ⟨c, rfl, h₁⟩
  | .swap b :: l₂, hd, c, c₁, c₁₂, acc₁, acc₂, a₁, a₂, p₁, p₂, r₁, r₂, h₁, h₂ => by
    rw [internalExecuteActions_cons] at h₂
    obtain ⟨⟨rb, c₁b, accb⟩, hb, h₂⟩ := Except.bind_eq_ok.mp h₂
    obtain ⟨amountIn, out, acc, hin, hw, hp, hdep, rfl⟩ := internalExecuteAction_eq_ok h env₂ hb
    obtain ⟨pool, q, hpool, hsw, rfl⟩ := internalPoolSwap_eq_ok h env₂ hp
    have hb₁ : ∀ j ∈ l₁.map Action.poolId, j ≠ b.poolId := fun j hj he =>
      hd j hj (he ▸ List.mem_cons_self _ _)
    have hc₁ := internalExecuteActions_pools_only h env₁ ref₁ l₁ c acc₁ p₁ h₁
    have hframe := internalExecuteActions_pool_frame h env₁ ref₁ l₁ c acc₁ p₁ h₁
      (fun hm => hb₁ _ hm rfl)
    have hbc := internalExecuteAction_eq_ok_of h env₂ hin hw (hframe.symm.trans hpool)
      (by rw [hc₁] at hsw; exact hsw) hdep
    have h₁b : ({ c with pools := c.pools.set b.poolId q } : Contract Pool).internalExecuteActions
        h env₁ acc₁ ref₁ l₁ p₁ = .ok (r₁, { c₁ with pools := c₁.pools.set b.poolId q }, a₁) := by
      rw [internalExecuteActions_map h env₁ (fun d => { d with pools := d.pools.set b.poolId q })
        ref₁ l₁ (fun s hs d amountIn => internalPoolSwap_set h env₁ d
          (hb₁ _ (List.mem_map_of_mem _ hs)).symm q _ _ _ _ _), h₁]
      rfl
    obtain ⟨c₂, h₂', h₁'⟩ := internalExecuteActions_comm env₁ env₂ ref₁ ref₂ l₁ l₂
      (fun j hj hm => hd j hj (List.mem_cons_of_mem _ hm)) h₁b h₂
    refine ⟨c₂, ?_, h₁'⟩
    rw [internalExecuteActions_cons, hbc, Except.ok_bind]
    exact h₂'

/-- Two states of the exchange that agree but, at most, on the order in which the ledger
lists its accounts; `lib.rs` keeps the ledger in a `LookupMap`, which has no order. -/
def LedgerEquiv (c d : Contract Pool) : Prop :=
  d = { c with accounts := d.accounts } ∧ ∀ u, d.accounts.lookup u = c.accounts.lookup u

/-- `LedgerEquiv` is reflexive. -/
theorem LedgerEquiv.refl (c : Contract Pool) : c.LedgerEquiv c := ⟨rfl, fun _ => rfl⟩

/-- Saving the accounts of two senders in either order gives the same ledger. -/
theorem internalSaveAccount_comm (c : Contract Pool) {s₁ s₂ : AccountId} (hs : s₁ ≠ s₂)
    (a₁ a₂ : Account) :
    ((c.internalSaveAccount s₂ a₂).internalSaveAccount s₁ a₁).LedgerEquiv
      ((c.internalSaveAccount s₁ a₁).internalSaveAccount s₂ a₂) := by
  refine ⟨rfl, fun u => ?_⟩
  simp only [internalSaveAccount]
  by_cases h₁ : u = s₁
  · subst h₁
    rw [AList.lookup_insert, AList.lookup_insert_ne hs, AList.lookup_insert]
  · by_cases h₂ : u = s₂
    · subst h₂
      rw [AList.lookup_insert, AList.lookup_insert_ne h₁, AList.lookup_insert]
    · simp only [AList.lookup_insert_ne h₁, AList.lookup_insert_ne h₂]

/-- Independent trades commute: two `execute_actions` for different senders over disjoint
pools give the same results in either order, and the same exchange up to ledger order. -/
theorem executeActions_comm (env₁ env₂ : Env) {c c₁ c₁₂ : Contract Pool}
    {l₁ l₂ : List Action} {ref₁ ref₂ : Option AccountId} {s₁ s₂ : AccountId}
    {r₁ r₂ : ActionResult} (hs : s₁ ≠ s₂)
    (hd : ∀ j ∈ l₁.map Action.poolId, j ∉ l₂.map Action.poolId)
    (h₁ : c.executeActions h env₁ l₁ ref₁ s₁ = .ok (r₁, c₁))
    (h₂ : c₁.executeActions h env₂ l₂ ref₂ s₂ = .ok (r₂, c₁₂)) :
    ∃ c₂ c₂₁, c.executeActions h env₂ l₂ ref₂ s₂ = .ok (r₂, c₂) ∧
      c₂.executeActions h env₁ l₁ ref₁ s₁ = .ok (r₁, c₂₁) ∧ c₂₁.LedgerEquiv c₁₂ := by
  obtain ⟨hr, acc₁, c₁, a₁, hl₁, hw₁, he₁, rfl⟩ := executeActions_eq_ok h env₁ h₁
  obtain ⟨-, acc₂, c₁₂, a₂, hl₂, hw₂, he₂, rfl⟩ := executeActions_eq_ok h env₂ h₂
  rw [internalExecuteActions_internalSaveAccount] at he₂
  obtain ⟨⟨r₂', c₁₂', a₂'⟩, he₂', hc⟩ := Except.map_eq_ok.mp he₂
  simp only [Prod.mk.injEq] at hc
  obtain ⟨rfl, rfl, rfl⟩ := hc
  obtain ⟨c₂, he₂c, he₁c⟩ :=
    internalExecuteActions_comm h env₁ env₂ ref₁ ref₂ l₁ l₂ hd he₁ he₂'
  have hc₁ := internalExecuteActions_pools_only h env₁ ref₁ l₁ c acc₁ .none he₁
  have hc₂ := internalExecuteActions_pools_only h env₂ ref₂ l₂ c acc₂ .none he₂c
  have hl₂c : c.accounts.lookup s₂ = some acc₂ := by
    rw [← hl₂, internalSaveAccount_accounts, AList.lookup_insert_ne (Ne.symm hs), hc₁]
  refine ⟨_, (c₁₂'.internalSaveAccount s₂ a₂').internalSaveAccount s₁ a₁,
    executeActions_eq_ok_of_loop h env₂ hr hl₂c
      (by rw [hc₁] at hw₂; exact hw₂) he₂c, ?_, ?_⟩
  · refine executeActions_eq_ok_of_loop h env₁ (by rw [internalSaveAccount_state, hc₂]; exact hr)
      (by rw [internalSaveAccount_accounts, AList.lookup_insert_ne hs, hc₂]; exact hl₁)
      (by rw [internalSaveAccount, hc₂]; exact hw₁) ?_
    rw [internalExecuteActions_internalSaveAccount, he₁c]
    rfl
  · exact internalSaveAccount_comm c₁₂' hs a₁ a₂'

/-- Non-interference: an `execute_actions` for one sender changes neither the result nor the
error of a later one for another sender over other pools. -/
theorem executeActions_noninterference (env₁ env₂ : Env) {c c₁ : Contract Pool}
    {l₁ l₂ : List Action} {ref₁ ref₂ : Option AccountId} {s₁ s₂ : AccountId}
    {r₁ : ActionResult} (hs : s₁ ≠ s₂)
    (hd : ∀ j ∈ l₁.map Action.poolId, j ∉ l₂.map Action.poolId)
    (h₁ : c.executeActions h env₁ l₁ ref₁ s₁ = .ok (r₁, c₁)) :
    (c₁.executeActions h env₂ l₂ ref₂ s₂).map Prod.fst =
      (c.executeActions h env₂ l₂ ref₂ s₂).map Prod.fst := by
  obtain ⟨-, acc₁, c₁, a₁, -, -, he₁, rfl⟩ := executeActions_eq_ok h env₁ h₁
  have hc₁ := internalExecuteActions_pools_only h env₁ ref₁ l₁ c acc₁ .none he₁
  refine executeActions_reads h env₂ (by rw [internalSaveAccount, hc₁])
    (by rw [internalSaveAccount, hc₁]) (by rw [internalSaveAccount, hc₁])
    (by rw [internalSaveAccount, hc₁]) ?_ fun j hj => ?_
  · rw [internalSaveAccount_accounts, AList.lookup_insert_ne (Ne.symm hs), hc₁]
  · have hf := internalExecuteActions_pool_frame h env₁ ref₁ l₁ c acc₁ .none he₁ (hd j · hj)
    exact hf

end Contract

end JumboExchange
