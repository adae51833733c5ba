import JumboExchange.Pools.Simple

/-!
# Whose ledger a call can touch

Every successful call of `lib.rs` saves at most one ledger account: the `sender_id` of
`execute_actions` and of the AML callback, or the predecessor of the two removals. Every
AML request a call sends is the caller's own, so a callback runs its operation for the
account whose AML check was asked, and consumes exactly its request. Nothing ties the
`sender_id` of the public `execute_actions` to its caller, though: any account can spend
another's deposits through it, and trade with no AML check at all.
-/

namespace JumboExchange

/-- The only ledger account a successful call of a method may save. -/
def Method.ledgerWriter (env : Env) : Method → Option AccountId
  | .executeActions _ _ senderId => some senderId
  | .callbackAmlOperation _ senderId => some senderId
  | .removeLiquidity .. => some env.predecessorAccountId
  | .removeLiquidityByTokens .. => some env.predecessorAccountId
  | _ => none

namespace Contract

variable {Pool : Type} (h : Host Pool) (env : Env)

/-- `after` holds the ledger accounts of `before`, except perhaps the one of `writer`. -/
def SavesOnly (writer : Option AccountId) (before after : Contract Pool) : Prop :=
  ∀ u, writer ≠ some u → after.accounts.lookup u = before.accounts.lookup u

/-- A state whose ledger is unchanged saves no account. -/
theorem SavesOnly.of_accounts_eq {writer : Option AccountId} {before after : Contract Pool}
    (he : after.accounts = before.accounts) : SavesOnly writer before after :=
  fun _ _ => by rw [he]

/-- A state whose ledger saved `u`'s account saves only `u`'s. -/
theorem SavesOnly.of_insert {u : AccountId} {a : Account} {before after : Contract Pool}
    (he : after.accounts = before.accounts.insert u a) : SavesOnly (some u) before after :=
  fun _ hv => by
    rw [he, AList.lookup_insert_ne]
    rintro rfl
    exact hv rfl

/-- `execute_actions` saves the account of its `sender_id` argument alone. -/
theorem executeActions_savesOnly {self self' : Contract Pool} {actions : List Action}
    {referralId : Option AccountId} {senderId : AccountId} {result : ActionResult}
    (hs : self.executeActions h env actions referralId senderId = .ok (result, self')) :
    SavesOnly (some senderId) self self' := by
  obtain ⟨-, account, c, account', -, -, he, rfl⟩ := executeActions_eq_ok h env hs
  have hc := congrArg accounts
    (internalExecuteActions_pools_only h env referralId actions self account .none he)
  exact .of_insert (by rw [internalSaveAccount_accounts, hc])

/-- An operation run for `senderId` saves the account of `senderId` alone. -/
theorem RanOperation.savesOnly {self self' : Contract Pool} {operation : AmlOperation}
    {senderId : AccountId} {ps : List Promise}
    (ho : self.RanOperation h env self' operation senderId ps) :
    SavesOnly (some senderId) self self' := by
  cases operation with
  | swap =>
    obtain ⟨-, _, hu⟩ := ho
    obtain ⟨_, he, -⟩ := internalSwapUnchecked_eq_ok h env hu
    exact executeActions_savesOnly h env he
  | addLiquidity =>
    obtain ⟨-, _, _, _, _, -, -, -, -, rfl, -⟩ := internalAddLiquidityUnchecked_eq_ok h env ho
    exact .of_insert rfl
  | addStableLiquidity =>
    obtain ⟨_, ho⟩ := ho
    obtain ⟨-, _, _, _, -, -, -, rfl, -⟩ := internalAddStableLiquidityUnchecked_eq_ok h env ho
    exact .of_insert rfl

/-- Every successful call of a public method saves at most the ledger account of its
writer, whatever the caller and the arguments. -/
theorem call_savesOnly {self self' : Contract Pool} {m : Method} {ps : List Promise}
    (hs : self.call h env m = .ok (self', ps)) : SavesOnly (m.ledgerWriter env) self self' := by
  have hm := call_eq_ok h env hs
  cases m with
  | addSimplePool =>
    obtain ⟨_, ha⟩ := hm
    obtain ⟨-, -, _, _, -, -, rfl, -⟩ := addSimplePool_eq_ok h env ha
    exact .of_accounts_eq rfl
  | addStableSwapPool =>
    obtain ⟨_, ha⟩ := hm
    obtain ⟨-, -, _, _, -, -, rfl, -⟩ := addStableSwapPool_eq_ok h env ha
    exact .of_accounts_eq rfl
  | executeActions =>
    obtain ⟨-, _, he⟩ := hm
    exact executeActions_savesOnly h env he
  | updateAmlAccountId | updateAcceptedRiskScore =>
    obtain ⟨-, -, -, rfl, -⟩ := hm
    exact .of_accounts_eq rfl
  | callbackAmlOperation =>
    obtain ⟨_, _, -, -, ho⟩ := callbackAmlOperation_eq_ok h env hm.2
    exact ho.savesOnly h env
  | swap | addLiquidity | addStableLiquidity =>
    obtain ⟨-, rfl, -⟩ := hm
    exact .of_accounts_eq rfl
  | removeLiquidity =>
    obtain ⟨-, -, -, _, _, _, _, -, -, -, _, -, rfl⟩ := removeLiquidity_eq_ok h env hm.2
    exact .of_insert rfl
  | removeLiquidityByTokens =>
    obtain ⟨_, he⟩ := hm.2
    obtain ⟨-, -, _, _, _, -, -, -, _, -, rfl⟩ := removeLiquidityByTokens_eq_ok h env he
    exact .of_insert rfl

/-- The storage check sends no AML request. -/
theorem internalCheckStorage_amlRequests {self : Contract Pool} {prev : Nat}
    {ps : List Promise} (hs : self.internalCheckStorage h env prev = .ok ps) :
    amlRequests ps = [] := by
  rcases internalCheckStorage_refund h env hs with rfl | ⟨-, rfl⟩ <;> rfl

/-- An operation run by the callback sends no AML request. -/
theorem RanOperation.amlRequests_eq_nil {self self' : Contract Pool}
    {operation : AmlOperation} {senderId : AccountId} {ps : List Promise}
    (ho : self.RanOperation h env self' operation senderId ps) : amlRequests ps = [] := by
  cases operation with
  | swap => rw [ho.1]; rfl
  | addLiquidity =>
    obtain ⟨-, _, _, _, _, -, -, -, -, -, hc⟩ := internalAddLiquidityUnchecked_eq_ok h env ho
    exact internalCheckStorage_amlRequests h env hc
  | addStableLiquidity =>
    obtain ⟨_, ho⟩ := ho
    obtain ⟨-, _, _, _, -, -, -, -, hc⟩ := internalAddStableLiquidityUnchecked_eq_ok h env ho
    exact internalCheckStorage_amlRequests h env hc

/-- A call sends at most one AML request, and that one is about the caller, on the
caller's behalf. -/
theorem call_amlRequests {self self' : Contract Pool} {m : Method} {ps : List Promise}
    (hs : self.call h env m = .ok (self', ps)) :
    amlRequests ps = [] ∨ ∃ operation, ps = [self.requestAml env operation] := by
  have hm := call_eq_ok h env hs
  cases m with
  | addSimplePool =>
    obtain ⟨_, ha⟩ := hm
    obtain ⟨-, -, _, _, -, -, -, hc⟩ := addSimplePool_eq_ok h env ha
    exact .inl (internalCheckStorage_amlRequests h env hc)
  | addStableSwapPool =>
    obtain ⟨_, ha⟩ := hm
    obtain ⟨-, -, _, _, -, -, -, hc⟩ := addStableSwapPool_eq_ok h env ha
    exact .inl (internalCheckStorage_amlRequests h env hc)
  | executeActions | removeLiquidity | removeLiquidityByTokens =>
    exact .inl (by rw [hm.1]; rfl)
  | updateAmlAccountId | updateAcceptedRiskScore => exact .inl (by rw [hm.2.2.2.2]; rfl)
  | callbackAmlOperation =>
    obtain ⟨_, _, -, -, ho⟩ := callbackAmlOperation_eq_ok h env hm.2
    exact .inl (ho.amlRequests_eq_nil h env)
  | swap => exact .inr ⟨_, hm.2.2.1⟩
  | addLiquidity | addStableLiquidity => exact .inr ⟨_, hm.2.2⟩

/-- Every AML request a call sends names as sender the account whose check it asks for. -/
theorem call_requests_owned {self self' : Contract Pool} {m : Method} {ps : List Promise}
    (hs : self.call h env m = .ok (self', ps)) :
    ∀ r ∈ amlRequests ps, r.senderId = r.accountId := by
  rcases call_amlRequests h env hs with h₀ | ⟨_, rfl⟩
  · simp [h₀]
  · simp [amlRequests, requestAml]

end Contract

/-- Every AML request in flight names as sender the account whose check it asked for. -/
def World.RequestsOwned {Pool : Type} (w : World Pool) : Prop :=
  ∀ r ∈ w.inFlight, r.senderId = r.accountId

section Runs

variable {Pool : Type} (h : Host Pool) (me : AccountId)

/-- Along every run, each request in flight is on behalf of the account it checks. -/
theorem Reachable.requestsOwned {w : World Pool} (hw : Reachable h me w) : w.RequestsOwned := by
  induction hw with
  | init => intro r hr; cases hr
  | step _ hs ih =>
    cases hs with
    | lib hl =>
      cases hl with
      | call _ _ _ _ hc =>
        intro r hr
        rcases List.mem_append.mp hr with hr | hr
        · exact ih r hr
        · exact Contract.call_requests_owned h _ hc r hr
      | callback _ _ _ _ hc =>
        intro r hr
        rcases List.mem_append.mp hr with hr | hr
        · exact ih r (List.mem_of_mem_eraseIdx hr)
        · exact Contract.call_requests_owned h _ hc r hr
      | callbackFails => exact fun r hr => ih r (List.mem_of_mem_eraseIdx hr)
    | adapter => exact ih

/-- In every reachable world, a successful callback follows an allowing answer, runs the
operation for the account whose AML check was asked, and saves no other ledger account. -/
theorem callback_runs_for_requester {w : World Pool} (hw : Reachable h me w) {i : Nat}
    {r : AmlRequest} {result : PromiseResult} {c : Contract Pool} {ps : List Promise}
    (hr : w.inFlight[i]? = some r)
    (hs : w.contract.call h (Env.ofCallback me r result)
      (.callbackAmlOperation r.operation r.senderId) = .ok (c, ps)) :
    r.senderId = r.accountId ∧
      (∃ category risk, result = .successful (some (category, risk)) ∧
        w.contract.isAmlAllowed category risk = true) ∧
      w.contract.RanOperation h (Env.ofCallback me r result) c r.operation r.senderId ps ∧
      w.contract.SavesOnly (some r.accountId) c := by
  have hown := hw.requestsOwned h me r (List.getElem?_mem hr)
  obtain ⟨category, risk, hres, ha, ho⟩ :=
    Contract.callbackAmlOperation_eq_ok h _ (Contract.call_eq_ok h _ hs).2
  exact ⟨hown, ⟨category, risk, Option.some.inj hres, ha⟩, ho, hown ▸ ho.savesOnly h _⟩

end Runs

/-- The clearing answer to Alice's request runs her operation, on her account alone. -/
theorem callback_runs_for_requester_alice :
    ∃ w r c ps, Reachable simpleHost "exchange" w ∧ w.inFlight[0]? = some r ∧
      w.contract.call simpleHost (Env.ofCallback "exchange" r clearAnswer)
        (.callbackAmlOperation r.operation r.senderId) = .ok (c, ps) ∧
      r.senderId = r.accountId ∧ w.contract.SavesOnly (some r.accountId) c := by
  obtain ⟨w, r, c, ps, hw, hr, hc, -⟩ := freshExchange_reachable.exists_callback_of_run
    simpleHost "exchange" aliceRequestRun 0 clearAnswer (fun _ _ _ => True) (by decide)
  obtain ⟨hown, -, -, hsaves⟩ := callback_runs_for_requester simpleHost "exchange" hw hr hc
  exact ⟨w, r, c, ps, hw, hr, hc, hown, hsaves⟩

section Answers

variable {Pool : Type} (h : Host Pool) (me : AccountId)

/-- Every pending AML request can be answered at any time, and its answer consumes exactly
that request: the callback sends no new request, whether it succeeds or panics. -/
theorem World.next_answer_inFlight {w : World Pool} {i : Nat} (hi : i < w.inFlight.length)
    (result : PromiseResult) :
    ∃ w', w.next h me (.answer i result) = some w' ∧ w'.inFlight = w.inFlight.eraseIdx i := by
  simp only [World.next, List.getElem?_eq_getElem hi]
  split
  · rename_i hc
    obtain ⟨_, _, -, -, ho⟩ :=
      Contract.callbackAmlOperation_eq_ok h _ (Contract.call_eq_ok h _ hc).2
    exact ⟨_, rfl, by rw [ho.amlRequests_eq_nil h _, List.append_nil]⟩
  · exact ⟨_, rfl, rfl⟩

end Answers

/-- Alice's pending request is answered: the answer consumes it and leaves no request in
flight. -/
theorem next_answer_inFlight_alice :
    ∃ w w', Reachable simpleHost "exchange" w ∧ 0 < w.inFlight.length ∧
      w.next simpleHost "exchange" (.answer 0 clearAnswer) = some w' ∧
      w'.inFlight = w.inFlight.eraseIdx 0 := by
  obtain ⟨w, -, hw, -, hl⟩ := freshExchange_reachable.exists_next_of_run simpleHost "exchange"
    aliceRequestRun (.answer 0 clearAnswer) (fun w _ => 0 < w.inFlight.length) (by decide)
  obtain ⟨w', hn, hf⟩ := World.next_answer_inFlight simpleHost "exchange" hl clearAnswer
  exact ⟨w, w', hw, hl, hn, hf⟩

/-- Mallory, a third account, calls `execute_actions` with Bob as `sender_id`, swapping 100
of Bob's `tokA` for `tokB`: the call succeeds and Bob's `tokA` balance drops by 100. -/
theorem executeActions_spends_another_ledger :
    ∃ w c ps, Reachable simpleHost "exchange" w ∧
      w.contract.call simpleHost (Env.ofCall "exchange" "mallory" 1)
        (.executeActions [.swap ⟨0, "tokA", some 100, "tokB", 0⟩] none "bob") = .ok (c, ps) ∧
      ledgerBalance c.accounts "bob" "tokA" + 100 =
        ledgerBalance w.contract.accounts "bob" "tokA" := by
  obtain ⟨w, w', hw, hn, hq⟩ := freshExchange_reachable.exists_next_of_run simpleHost "exchange"
    fundedRun (.call "mallory" 1 (.executeActions [.swap ⟨0, "tokA", some 100, "tokB", 0⟩]
      none "bob"))
    (fun w w' => ledgerBalance w'.contract.accounts "bob" "tokA" + 100 =
      ledgerBalance w.contract.accounts "bob" "tokA") (by decide)
  obtain ⟨-, ps, hc⟩ := World.next_call_eq_some simpleHost "exchange" hn
  exact ⟨w, w'.contract, ps, hw, hc, hq⟩

/-- With no AML request in flight, Bob calls `execute_actions` himself: 100 of his `tokA`
leave his ledger for the pool, a trade no AML answer allowed. -/
theorem executeActions_trades_without_aml :
    ∃ w c ps, Reachable simpleHost "exchange" w ∧ w.inFlight = [] ∧
      w.contract.call simpleHost (Env.ofCall "exchange" "bob" 1)
        (.executeActions [.swap ⟨0, "tokA", some 100, "tokB", 0⟩] none "bob") = .ok (c, ps) ∧
      ledgerBalance c.accounts "bob" "tokA" + 100 =
        ledgerBalance w.contract.accounts "bob" "tokA" ∧
      simplePools.poolTotal w.contract.pools "tokA" + 100 =
        simplePools.poolTotal c.pools "tokA" := by
  obtain ⟨w, w', hw, hn, hf, hq⟩ :=
    freshExchange_reachable.exists_next_of_run simpleHost "exchange" fundedRun
      (.call "bob" 1 (.executeActions [.swap ⟨0, "tokA", some 100, "tokB", 0⟩] none "bob"))
      (fun w w' => w.inFlight = [] ∧
        ledgerBalance w'.contract.accounts "bob" "tokA" + 100 =
          ledgerBalance w.contract.accounts "bob" "tokA" ∧
        simplePools.poolTotal w.contract.pools "tokA" + 100 =
          simplePools.poolTotal w'.contract.pools "tokA") (by decide)
  obtain ⟨-, ps, hc⟩ := World.next_call_eq_some simpleHost "exchange" hn
  exact ⟨w, w'.contract, ps, hw, hf, hc, hq⟩

end JumboExchange
