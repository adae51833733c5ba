import JumboExchange.Correctness.Governance

/-!
# Batches of actions

`execute_actions` checks the tokens, loads the sender's account, runs the loop and saves
the account, once per call. Cutting the list in two calls of the same sender, the second
starting with an action with its own amount, changes nothing: the loop reads no other
ledger account, never unregisters a token and registers only its own actions' tokens, so
the batch succeeds exactly when both calls do, with the same state and result.
-/

namespace JumboExchange

namespace Contract

variable {Pool : Type} (h : Host Pool) (env : Env)

/-- A token registered in the account stays registered through the loop. -/
theorem internalExecuteActions_isSome_getBalance (referralId : Option AccountId)
    (token : AccountId) :
    ∀ (actions : List Action) (self : Contract Pool) (account : Account) (prev : ActionResult)
      {result : ActionResult} {self' : Contract Pool} {account' : Account},
      self.internalExecuteActions h env account referralId actions prev
        = .ok (result, self', account') → (account.getBalance token).isSome →
        (account'.getBalance token).isSome
  | [], _, _, _, _, _, _, hs, ht => by cases hs; exact ht
  | .swap a :: actions, self, account, prev, result, self', account', hs, ht => by
    rw [internalExecuteActions_cons] at hs
    obtain ⟨⟨r, c, acc⟩, ha, hs⟩ := Except.bind_eq_ok.mp hs
    obtain ⟨_, _, acc₀, -, hw, -, hd, -⟩ := internalExecuteAction_eq_ok h env ha
    refine internalExecuteActions_isSome_getBalance referralId token actions c acc r hs ?_
    rw [Account.isSome_getBalance_deposit hd, Account.isSome_getBalance_withdraw hw, ht,
      Bool.true_or]

/-- Batching: `execute_actions` over `l₁`, then an action with its own amount and `l₂`,
succeeds exactly when the two calls over the parts do, and ends as the second does. -/
theorem executeActions_append {self self' : Contract Pool} {l₁ l₂ : List Action}
    {a : SwapAction} (ha : a.amountIn.isSome) {referralId : Option AccountId}
    {senderId : AccountId} {result : ActionResult} :
    self.executeActions h env (l₁ ++ .swap a :: l₂) referralId senderId = .ok (result, self') ↔
      ∃ r₁ c₁, self.executeActions h env l₁ referralId senderId = .ok (r₁, c₁) ∧
        c₁.executeActions h env (.swap a :: l₂) referralId senderId = .ok (result, self') := by
  constructor
  · intro hs
    obtain ⟨hr, account, c, account', hl, hw, he, rfl⟩ := executeActions_eq_ok h env hs
    rw [internalExecuteActions_append] at he
    obtain ⟨⟨r₁, c₁, a₁⟩, he₁, he₂⟩ := Except.bind_eq_ok.mp he
    have hc₁ := internalExecuteActions_pools_only h env referralId l₁ self account .none he₁
    refine ⟨r₁, c₁.internalSaveAccount senderId a₁,
      executeActions_eq_ok_of_loop h env hr hl
        (fun h0 action hm => hw h0 action (List.mem_append_left _ hm)) he₁, ?_⟩
    rw [← internalSaveAccount_internalSaveAccount c senderId a₁]
    refine executeActions_eq_ok_of_loop h env (by rw [internalSaveAccount_state, hc₁]; exact hr)
      (show (c₁.internalSaveAccount senderId a₁).accounts.lookup senderId = some a₁ by
        simp [AList.lookup_insert]) (fun h0 action hm t ht => ?_) ?_
    · rcases hw h0 action (List.mem_append_right _ hm) t ht with hb | hb
      · exact .inl (internalExecuteActions_isSome_getBalance h env referralId t l₁ self account
          .none he₁ hb)
      · exact .inr (by rw [internalSaveAccount, hc₁]; exact hb)
    · rw [internalExecuteActions_internalSaveAccount,
        internalExecuteActions_cons_of_amountIn h env ha _ _ _ _ .none r₁, he₂]
      rfl
  · rintro ⟨r₁, c₁', h₁, h₂⟩
    obtain ⟨hr, account, c₁, a₁, hl, hw₁, he₁, rfl⟩ := executeActions_eq_ok h env h₁
    obtain ⟨-, a₁', c₂', a₂, hl₂, hw₂, he₂, rfl⟩ := executeActions_eq_ok h env h₂
    obtain rfl : a₁' = a₁ := by simpa [AList.lookup_insert] using hl₂.symm
    rw [internalExecuteActions_internalSaveAccount] at he₂
    obtain ⟨⟨r₂, c₂, a₂'⟩, he₂', hc⟩ := Except.map_eq_ok.mp he₂
    simp only [Prod.mk.injEq] at hc
    obtain ⟨rfl, rfl, rfl⟩ := hc
    have hc₁ := internalExecuteActions_pools_only h env referralId l₁ self account .none he₁
    rw [internalSaveAccount_internalSaveAccount]
    refine executeActions_eq_ok_of_loop h env hr hl (fun h0 action hm t ht => ?_) ?_
    · rcases List.mem_append.mp hm with hm | hm
      · exact hw₁ h0 action hm t ht
      · rcases hw₂ h0 action hm t ht with hb | hb
        · rcases internalExecuteActions_registered h env referralId t l₁ self account .none he₁ hb
            with hb | ⟨b, hb, hbt⟩
          · exact .inl hb
          · exact hw₁ h0 b hb t hbt
        · exact .inr (by rw [internalSaveAccount, hc₁] at hb; exact hb)
    · rw [internalExecuteActions_append, he₁, Except.ok_bind,
        internalExecuteActions_cons_of_amountIn h env ha _ _ _ _ r₁ .none, he₂']

end Contract

/-- With no deposit attached, Alice's batch of two swaps in pool 0, the second with its own
amount, succeeds, and as two calls reaches the same result and state. -/
theorem aliceBatch_splits :
    ∃ w r c, freshExchange.run simpleHost "exchange" fundedRun = some w ∧
      w.contract.executeActions simpleHost (Env.ofCall "exchange" "alice" 0)
        ([.swap ⟨0, "tokA", some 10, "tokB", 0⟩] ++ [.swap ⟨0, "tokB", some 5, "tokA", 0⟩])
        none "alice" = .ok (r, c) ∧
      ∃ r₁ c₁, w.contract.executeActions simpleHost (Env.ofCall "exchange" "alice" 0)
          [.swap ⟨0, "tokA", some 10, "tokB", 0⟩] none "alice" = .ok (r₁, c₁) ∧
        c₁.executeActions simpleHost (Env.ofCall "exchange" "alice" 0)
          [.swap ⟨0, "tokB", some 5, "tokA", 0⟩] none "alice" = .ok (r, c) := by
  obtain ⟨⟨r, c⟩, hx⟩ := Option.isSome_iff_exists.mp (by decide :
    ((freshExchange.run simpleHost "exchange" fundedRun).bind fun w =>
      (w.contract.executeActions simpleHost (Env.ofCall "exchange" "alice" 0)
        ([.swap ⟨0, "tokA", some 10, "tokB", 0⟩] ++ [.swap ⟨0, "tokB", some 5, "tokA", 0⟩])
        none "alice").toOption).isSome = true)
  obtain ⟨w, hw, hs⟩ := Option.bind_eq_some.mp hx
  replace hs := Except.toOption_eq_some.mp hs
  exact ⟨w, r, c, hw, hs,
    (Contract.executeActions_append simpleHost _ (by decide)).mp hs⟩

end JumboExchange
