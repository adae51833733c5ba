import JumboExchange.Correctness.Authorization

/-!
# Settings and the whitelist

Every field of the contract but its pools and its ledger is a setting. `lib.rs` writes the
AML account and the accepted risk score in their two updates alone, while running and for
the owner or a guardian, and the running state moves only by their switch. So along a run
without the owner and the guardians no setting changes. With no deposit attached, no call
registers a token that the account did not hold and that is not whitelisted.
-/

namespace JumboExchange

/-- Everything of the contract but its pools and its ledger. -/
structure Settings where
  ownerId : AccountId
  exchangeFee : UInt32
  referralFee : UInt32
  whitelistedTokens : List AccountId
  guardians : List AccountId
  state : RunningState
  amlAccountId : AccountId
  acceptedRiskScore : UInt8
  deriving DecidableEq, Repr

/-- The account that makes an event: the caller of a method or of an adapter; an answer
of the AML contract has none. -/
def Event.caller : Event → Option AccountId
  | .call caller _ _ => some caller
  | .adapter caller _ _ => some caller
  | .answer _ _ => none

namespace Contract

variable {Pool : Type} (h : Host Pool) (env : Env)

/-- The settings of a state. -/
def settings (self : Contract Pool) : Settings :=
  ⟨self.ownerId, self.exchangeFee, self.referralFee, self.whitelistedTokens, self.guardians,
    self.state, self.amlAccountId, self.acceptedRiskScore⟩

/-- `execute_actions` changes no setting. -/
theorem executeActions_settings {self self' : Contract Pool} {actions : List Action}
    {referralId : Option AccountId} {senderId : AccountId} {result : ActionResult}
    (hs : self.executeActions h env actions referralId senderId = .ok (result, self')) :
    self'.settings = self.settings := by
  obtain ⟨-, account, c, _, -, -, he, rfl⟩ := executeActions_eq_ok h env hs
  exact (congrArg settings (internalExecuteActions_pools_only h env referralId actions self
    account .none he)).trans rfl

/-- The operation an AML callback runs changes no setting. -/
theorem RanOperation.settings_eq {self self' : Contract Pool} {operation : AmlOperation}
    {senderId : AccountId} {ps : List Promise}
    (ho : self.RanOperation h env self' operation senderId ps) :
    self'.settings = self.settings := by
  cases operation with
  | swap =>
    obtain ⟨-, _, hu⟩ := ho
    obtain ⟨_, he, -⟩ := internalSwapUnchecked_eq_ok h env hu
    exact executeActions_settings h env he
  | addLiquidity =>
    obtain ⟨-, _, _, _, _, -, -, -, -, rfl, -⟩ := internalAddLiquidityUnchecked_eq_ok h env ho
    rfl
  | addStableLiquidity =>
    obtain ⟨_, ho⟩ := ho
    obtain ⟨-, _, _, _, -, -, -, rfl, -⟩ := internalAddStableLiquidityUnchecked_eq_ok h env ho
    rfl

/-- A successful call changes no setting, except the owner's or a guardian's updates of the
AML account and the accepted risk score while running, each of its own setting alone. -/
theorem call_settings {self self' : Contract Pool} {m : Method} {ps : List Promise}
    (hs : self.call h env m = .ok (self', ps)) :
    self'.settings = self.settings ∨
      self.state = .running ∧ self.isOwnerOrGuardians env = true ∧
        ((∃ aml, m = .updateAmlAccountId aml ∧
          self'.settings = { self.settings with amlAccountId := aml }) ∨
        (∃ score, m = .updateAcceptedRiskScore score ∧
          self'.settings = { self.settings with acceptedRiskScore := score })) := by
  have hm := call_eq_ok h env hs
  cases m with
  | addSimplePool =>
    obtain ⟨_, ha⟩ := hm
    obtain ⟨-, -, _, _, -, -, rfl, -⟩ := addSimplePool_eq_ok h env ha
    exact .inl rfl
  | addStableSwapPool =>
    obtain ⟨_, ha⟩ := hm
    obtain ⟨-, -, _, _, -, -, rfl, -⟩ := addStableSwapPool_eq_ok h env ha
    exact .inl rfl
  | executeActions =>
    obtain ⟨-, _, he⟩ := hm
    exact .inl (executeActions_settings h env he)
  | updateAmlAccountId =>
    obtain ⟨hr, ho, -, rfl, -⟩ := hm
    exact .inr ⟨hr, ho, .inl ⟨_, rfl, rfl⟩⟩
  | updateAcceptedRiskScore =>
    obtain ⟨hr, ho, -, rfl, -⟩ := hm
    exact .inr ⟨hr, ho, .inr ⟨_, rfl, rfl⟩⟩
  | callbackAmlOperation =>
    obtain ⟨_, _, -, -, ho⟩ := callbackAmlOperation_eq_ok h env hm.2
    exact .inl (ho.settings_eq h env)
  | swap | addLiquidity | addStableLiquidity =>
    obtain ⟨-, rfl, -⟩ := hm
    exact .inl rfl
  | removeLiquidity =>
    obtain ⟨-, -, _, _, _, _, -, -, -, _, -, rfl⟩ := removeLiquidity_eq_ok h env hm.2
    exact .inl rfl
  | removeLiquidityByTokens =>
    obtain ⟨_, hr⟩ := hm.2
    obtain ⟨-, -, _, _, _, -, -, -, _, -, rfl⟩ := removeLiquidityByTokens_eq_ok h env hr
    exact .inl rfl

/-- An adapter call changes no setting, except the owner's or a guardian's switch of the
running state. -/
theorem callAdapter_settings {self c : Contract Pool} {m : AdapterMethod}
    (hs : self.callAdapter env m = .ok c) :
    c.settings = self.settings ∨ self.isOwnerOrGuardians env = true ∧
      ∃ state, m = .changeState state ∧ c.settings = { self.settings with state } := by
  have hm := callAdapter_eq_ok env hs
  cases m with
  | storageDeposit => exact .inl (by rw [hm.2]; rfl)
  | registerTokens => obtain ⟨-, _, -, rfl⟩ := hm; exact .inl rfl
  | ledgerDeposit => obtain ⟨-, _, _, -, -, -, rfl⟩ := hm; exact .inl rfl
  | ledgerWithdraw => obtain ⟨-, _, _, -, -, rfl⟩ := hm; exact .inl rfl
  | changeState =>
    obtain ⟨ho, rfl⟩ := hm
    exact .inr ⟨ho, _, rfl, rfl⟩

end Contract

section Runs

variable {Pool : Type} (h : Host Pool) (me : AccountId)

/-- An event that changes a setting is made by the owner or a guardian. -/
theorem World.next_settings {w w' : World Pool} {e : Event} (hn : w.next h me e = some w') :
    w'.contract.settings = w.contract.settings ∨
      ∃ caller ∈ e.caller, caller = w.contract.ownerId ∨ caller ∈ w.contract.guardians := by
  cases e with
  | call caller deposit m =>
    obtain ⟨-, ps, hc⟩ := World.next_call_eq_some h me hn
    rcases Contract.call_settings h _ hc with he | ⟨-, ho, -⟩
    · exact .inl he
    · exact .inr ⟨caller, rfl, (Contract.isOwnerOrGuardians_eq_true _).mp ho⟩
  | adapter caller deposit m =>
    obtain ⟨-, hc⟩ := World.next_adapter_eq_some h me hn
    rcases Contract.callAdapter_settings _ hc with he | ⟨ho, -⟩
    · exact .inl he
    · exact .inr ⟨caller, rfl, (Contract.isOwnerOrGuardians_eq_true _).mp ho⟩
  | answer i result =>
    obtain ⟨r, -, heq | ⟨ps, hc⟩⟩ := World.next_answer_eq_some h me hn
    · exact .inl (by rw [heq])
    · rcases Contract.call_settings h _ hc with he | ⟨-, -, ⟨_, hm, -⟩ | ⟨_, hm, -⟩⟩
      · exact .inl he
      · cases hm
      · cases hm

/-- Along a run whose events neither the owner nor a guardian makes, no setting changes: the
AML account, the accepted risk score and the running state stay those of its start. -/
theorem World.run_settings {w w' : World Pool} {es : List Event}
    (hr : w.run h me es = some w')
    (hg : ∀ e ∈ es, ∀ caller ∈ e.caller,
      caller ≠ w.contract.ownerId ∧ caller ∉ w.contract.guardians) :
    w'.contract.settings = w.contract.settings := by
  induction es generalizing w with
  | nil => cases hr; rfl
  | cons e es ih =>
    obtain ⟨w₁, hn, hr⟩ := Option.bind_eq_some.mp hr
    have h₁ : w₁.contract.settings = w.contract.settings := by
      rcases World.next_settings h me hn with he | ⟨caller, hc, hgov⟩
      · exact he
      · obtain ⟨hno, hng⟩ := hg e (List.mem_cons_self e es) caller hc
        exact absurd hgov (not_or_intro hno hng)
    have ho : w₁.contract.ownerId = w.contract.ownerId := congrArg Settings.ownerId h₁
    have hgs : w₁.contract.guardians = w.contract.guardians := congrArg Settings.guardians h₁
    refine (ih hr fun e he caller hc => ?_).trans h₁
    rw [ho, hgs]
    exact hg e (List.mem_cons_of_mem _ he) caller hc

end Runs

/-- No event of the funded run is the owner's: the exchange ends it with the settings it
was created with. -/
theorem fundedRun_settings :
    ∃ w', freshExchange.run simpleHost "exchange" fundedRun = some w' ∧
      w'.contract.settings = freshExchange.contract.settings := by
  obtain ⟨w', hw'⟩ := Option.isSome_iff_exists.mp
    (by decide : (freshExchange.run simpleHost "exchange" fundedRun).isSome = true)
  exact ⟨w', hw', World.run_settings simpleHost "exchange" hw' (by decide)⟩

namespace Contract

variable {Pool : Type} (h : Host Pool) (env : Env)

/-- `user` has a ledger account, with `token` registered in it. -/
def Registered (self : Contract Pool) (user token : AccountId) : Prop :=
  ((self.accounts.lookup user).bind (·.getBalance token)).isSome

/-- Registration is decidable, as `get_balance` reads it. -/
instance (self : Contract Pool) (user token : AccountId) :
    Decidable (self.Registered user token) :=
  inferInstanceAs (Decidable (_ = true))

/-- The registrations of a state are those of its ledger. -/
theorem registered_of_lookup {self : Contract Pool} {user token : AccountId} {a : Account}
    (ha : self.accounts.lookup user = some a) :
    self.Registered user token ↔ (a.getBalance token).isSome := by
  simp [Registered, ha]

/-- The action loop registers in the account only tokens it held or that an action moves. -/
theorem internalExecuteActions_registered (referralId : Option AccountId) (token : AccountId) :
    ∀ (actions : List Action) (self : Contract Pool) (account : Account) (prev : ActionResult)
      {result : ActionResult} {self' : Contract Pool} {account' : Account},
      self.internalExecuteActions h env account referralId actions prev
        = .ok (result, self', account') → (account'.getBalance token).isSome →
        (account.getBalance token).isSome ∨ ∃ action ∈ actions, token ∈ action.tokens
  | [], _, _, _, _, _, _, hs, ht => by cases hs; exact .inl ht
  | .swap a :: actions, self, account, prev, result, self', account', hs, ht => by
    rw [internalExecuteActions_cons] at hs
    obtain ⟨⟨r, c, acc⟩, ha, hs⟩ := Except.bind_eq_ok.mp hs
    obtain ⟨_, _, acc₀, -, hw, -, hd, -⟩ := internalExecuteAction_eq_ok h env ha
    rcases internalExecuteActions_registered referralId token actions c acc r hs ht with
      hr | ⟨b, hb, hbt⟩
    · rw [Account.isSome_getBalance_deposit hd, Account.isSome_getBalance_withdraw hw,
        Bool.or_eq_true, decide_eq_true_iff] at hr
      rcases hr with hr | rfl
      · exact .inl hr
      · exact .inr ⟨.swap a, List.mem_cons_self _ _, by simp [Action.tokens]⟩
    · exact .inr ⟨b, List.mem_cons_of_mem _ hb, hbt⟩

/-- With no deposit attached, `execute_actions` registers in the sender's account only
tokens it held or that are whitelisted. -/
theorem executeActions_registered {self self' : Contract Pool} {actions : List Action}
    {referralId : Option AccountId} {senderId : AccountId} {result : ActionResult}
    (h0 : env.attachedDeposit = 0)
    (hs : self.executeActions h env actions referralId senderId = .ok (result, self'))
    {token : AccountId} (ht : self'.Registered senderId token) :
    self.Registered senderId token ∨ token ∈ self.whitelistedTokens := by
  obtain ⟨-, account, c, account', ha, hw, he, rfl⟩ := executeActions_eq_ok h env hs
  replace ht : (account'.getBalance token).isSome := by
    simpa [Registered, AList.lookup_insert] using ht
  rw [registered_of_lookup ha]
  rcases internalExecuteActions_registered h env referralId token actions self account .none
    he ht with hr | ⟨action, hm, htok⟩
  · exact .inl hr
  · exact hw h0 action hm token htok

/-- With no deposit attached, no successful call registers in any ledger account a token
that it did not hold and that is not whitelisted. -/
theorem call_registers_whitelisted {self self' : Contract Pool} {m : Method}
    {ps : List Promise} (h0 : env.attachedDeposit = 0)
    (hs : self.call h env m = .ok (self', ps)) {user token : AccountId}
    (ht : self'.Registered user token) :
    self.Registered user token ∨ token ∈ self.whitelistedTokens := by
  by_cases hu : m.ledgerWriter env = some user
  · have hm := call_eq_ok h env hs
    cases m with
    | executeActions =>
      cases hu
      obtain ⟨-, _, he⟩ := hm
      exact executeActions_registered h env h0 he ht
    | callbackAmlOperation operation =>
      cases hu
      obtain ⟨_, _, -, -, ho⟩ := callbackAmlOperation_eq_ok h env hm.2
      cases operation with
      | swap =>
        obtain ⟨-, _, hu⟩ := ho
        obtain ⟨_, he, -⟩ := internalSwapUnchecked_eq_ok h env hu
        exact executeActions_registered h env h0 he ht
      | addLiquidity => exact absurd (internalAddLiquidityUnchecked_eq_ok h env ho).1 (by omega)
      | addStableLiquidity =>
        obtain ⟨_, ho⟩ := ho
        exact absurd (internalAddStableLiquidityUnchecked_eq_ok h env ho).1 (by omega)
    | removeLiquidity => exact absurd (removeLiquidity_eq_ok h env hm.2).1 (by omega)
    | removeLiquidityByTokens =>
      obtain ⟨_, hr⟩ := hm.2
      exact absurd (removeLiquidityByTokens_eq_ok h env hr).1 (by omega)
    | _ => cases hu
  · exact .inl (by rwa [Registered, ← call_savesOnly h env hs user hu])

end Contract

/-- Alice swaps 100 of her `tokA` for `tokB` with no deposit attached: `tokB` is registered
in her account after the call, and was before it. -/
theorem call_registers_whitelisted_alice :
    ∃ w c ps, Reachable simpleHost "exchange" w ∧
      (Env.ofCall "exchange" "alice" 0).attachedDeposit = 0 ∧
      w.contract.call simpleHost (Env.ofCall "exchange" "alice" 0)
        (.executeActions [.swap ⟨0, "tokA", some 100, "tokB", 0⟩] none "alice") = .ok (c, ps) ∧
      c.Registered "alice" "tokB" ∧
      (w.contract.Registered "alice" "tokB" ∨ "tokB" ∈ w.contract.whitelistedTokens) := by
  obtain ⟨w, w', hw, hn, hq⟩ := freshExchange_reachable.exists_next_of_run simpleHost "exchange"
    fundedRun (.call "alice" 0 (.executeActions [.swap ⟨0, "tokA", some 100, "tokB", 0⟩] none
      "alice"))
    (fun _ w' => w'.contract.Registered "alice" "tokB") (by decide)
  obtain ⟨-, ps, hc⟩ := World.next_call_eq_some simpleHost "exchange" hn
  exact ⟨w, w'.contract, ps, hw, rfl, hc, hq,
    Contract.call_registers_whitelisted simpleHost _ rfl hc hq⟩

end JumboExchange
