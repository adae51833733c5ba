import JumboExchange.Contract.Entry

/-!
# Runs of the exchange

A world is the contract's state together with the AML requests whose callback has not
run yet. A run interleaves, in any order, calls of the public methods by any account
other than the exchange, calls of the adapters that fill and empty the ledger, and
answers of the AML contract to any pending request, each answer running its callback
with the exchange itself as predecessor. A call that panics is rolled back and leaves
the world as it was; an answer whose callback panics still consumes its request.
-/

namespace JumboExchange

/-- Modelled from the spec (§4.4, §6): the entry points of the absent modules that runs go
through, for ledger registration, deposits and withdrawals, and the running-state switch. -/
inductive AdapterMethod where
  | storageDeposit
  | registerTokens (tokens : List AccountId)
  | ledgerDeposit (token : AccountId) (amount : Nat)
  | ledgerWithdraw (token : AccountId) (amount : Nat)
  | changeState (state : RunningState)
  deriving DecidableEq, Repr

/-- The environment of a call `caller` makes to the exchange `me` with `deposit` attached. -/
def Env.ofCall (me caller : AccountId) (deposit : Nat) : Env := ⟨me, caller, deposit, []⟩

/-- The environment of the callback of request `r`, with the AML contract's `result`. -/
def Env.ofCallback (me : AccountId) (r : AmlRequest) (result : PromiseResult) : Env :=
  ⟨me, me, r.attachedDeposit, [result]⟩

/-- The AML requests among a call's receipts. -/
def amlRequests : List Promise → List AmlRequest
  | [] => []
  | .amlCheck r :: ps => r :: amlRequests ps
  | .transfer _ _ :: ps => amlRequests ps

namespace Contract

variable {Pool : Type} (h : Host Pool) (env : Env)

/-- Modelled from the spec: the adapters act on the caller's own ledger account; a deposit
of a token the account has not registered and the owner has not whitelisted fails. -/
def callAdapter (self : Contract Pool) : AdapterMethod → Except Error (Contract Pool)
  | .storageDeposit => do
    self.assertContractRunning
    let account := self.internalUnwrapOrDefaultAccount env.predecessorAccountId
    pure (self.internalSaveAccount env.predecessorAccountId
      { account with nearAmount := account.nearAmount + env.attachedDeposit })
  | .registerTokens tokens => do
    self.assertContractRunning
    let account ← self.internalUnwrapAccount env.predecessorAccountId
    pure (self.internalSaveAccount env.predecessorAccountId (account.register tokens))
  | .ledgerDeposit token amount => do
    self.assertContractRunning
    let account ← self.internalUnwrapAccount env.predecessorAccountId
    require ((account.getBalance token).isSome ∨ token ∈ self.whitelistedTokens)
      .unregisteredToken
    let account ← account.deposit token amount
    pure (self.internalSaveAccount env.predecessorAccountId account)
  | .ledgerWithdraw token amount => do
    self.assertContractRunning
    let account ← self.internalUnwrapAccount env.predecessorAccountId
    let account ← account.withdraw token amount
    pure (self.internalSaveAccount env.predecessorAccountId account)
  | .changeState state => do
    require (self.isOwnerOrGuardians env = true) .ERR100_NOT_ALLOWED
    pure { self with state }

/-- All a successful adapter call can have done, to the caller's own account. -/
theorem callAdapter_eq_ok {self c : Contract Pool} {m : AdapterMethod}
    (hs : self.callAdapter env m = .ok c) : match m with
    | .storageDeposit => self.state = .running ∧
        c = self.internalSaveAccount env.predecessorAccountId
          { self.internalUnwrapOrDefaultAccount env.predecessorAccountId with
            nearAmount := (self.internalUnwrapOrDefaultAccount env.predecessorAccountId).nearAmount
              + env.attachedDeposit }
    | .registerTokens tokens => self.state = .running ∧ ∃ a,
        self.accounts.lookup env.predecessorAccountId = some a ∧
        c = self.internalSaveAccount env.predecessorAccountId (a.register tokens)
    | .ledgerDeposit token amount => self.state = .running ∧ ∃ a a',
        self.accounts.lookup env.predecessorAccountId = some a ∧
        ((a.getBalance token).isSome ∨ token ∈ self.whitelistedTokens) ∧
        a.deposit token amount = .ok a' ∧
        c = self.internalSaveAccount env.predecessorAccountId a'
    | .ledgerWithdraw token amount => self.state = .running ∧ ∃ a a',
        self.accounts.lookup env.predecessorAccountId = some a ∧
        a.withdraw token amount = .ok a' ∧
        c = self.internalSaveAccount env.predecessorAccountId a'
    | .changeState state => self.isOwnerOrGuardians env = true ∧ c = { self with state } := by
  cases m with
  | storageDeposit =>
    obtain ⟨_, hr, hs⟩ := Except.bind_eq_ok.mp hs
    cases hs
    exact ⟨assertContractRunning_eq_ok.mp hr, rfl⟩
  | registerTokens =>
    obtain ⟨_, hr, hs⟩ := Except.bind_eq_ok.mp hs
    obtain ⟨a, ha, hs⟩ := Except.bind_eq_ok.mp hs
    cases hs
    exact ⟨assertContractRunning_eq_ok.mp hr, a, internalUnwrapAccount_eq_ok.mp ha, rfl⟩
  | ledgerDeposit =>
    obtain ⟨_, hr, hs⟩ := Except.bind_eq_ok.mp hs
    obtain ⟨a, ha, hs⟩ := Except.bind_eq_ok.mp hs
    obtain ⟨_, hw, hs⟩ := Except.bind_eq_ok.mp hs
    obtain ⟨a', hd, hs⟩ := Except.bind_eq_ok.mp hs
    cases hs
    exact ⟨assertContractRunning_eq_ok.mp hr, a, a', internalUnwrapAccount_eq_ok.mp ha,
      require_eq_ok.mp hw, hd, rfl⟩
  | ledgerWithdraw =>
    obtain ⟨_, hr, hs⟩ := Except.bind_eq_ok.mp hs
    obtain ⟨a, ha, hs⟩ := Except.bind_eq_ok.mp hs
    obtain ⟨a', hd, hs⟩ := Except.bind_eq_ok.mp hs
    cases hs
    exact ⟨assertContractRunning_eq_ok.mp hr, a, a', internalUnwrapAccount_eq_ok.mp ha, hd, rfl⟩
  | changeState =>
    obtain ⟨_, ho, hs⟩ := Except.bind_eq_ok.mp hs
    cases hs
    exact ⟨require_eq_ok.mp ho, rfl⟩

/-- The adapters change no pool. -/
theorem callAdapter_pools {self c : Contract Pool} {m : AdapterMethod}
    (hs : self.callAdapter env m = .ok c) : c.pools = self.pools := by
  have hm := callAdapter_eq_ok env hs
  cases m with
  | storageDeposit => rw [hm.2]; rfl
  | registerTokens => obtain ⟨-, _, -, rfl⟩ := hm; rfl
  | ledgerDeposit => obtain ⟨-, _, _, -, -, -, rfl⟩ := hm; rfl
  | ledgerWithdraw => obtain ⟨-, _, _, -, -, rfl⟩ := hm; rfl
  | changeState => rw [hm.2]

end Contract

/-- The exchange's state and the AML requests still waiting for their answer. -/
structure World (Pool : Type) where
  contract : Contract Pool
  inFlight : List AmlRequest

variable {Pool : Type} (h : Host Pool) (me : AccountId)

/-- One step of the world through `lib.rs` alone: a call of a public method by another
account, or the answer to a pending AML request and its callback. -/
inductive LibStep : World Pool → World Pool → Prop
  | call {w : World Pool} {c : Contract Pool} {ps : List Promise} (caller : AccountId)
      (deposit : Nat) (m : Method) : caller ≠ me →
      w.contract.call h (Env.ofCall me caller deposit) m = .ok (c, ps) →
      LibStep w ⟨c, w.inFlight ++ amlRequests ps⟩
  | callback {w : World Pool} {c : Contract Pool} {ps : List Promise} (i : Nat)
      (r : AmlRequest) (result : PromiseResult) : w.inFlight[i]? = some r →
      w.contract.call h (Env.ofCallback me r result)
        (.callbackAmlOperation r.operation r.senderId) = .ok (c, ps) →
      LibStep w ⟨c, w.inFlight.eraseIdx i ++ amlRequests ps⟩
  | callbackFails {w : World Pool} {e : Error} (i : Nat) (r : AmlRequest)
      (result : PromiseResult) : w.inFlight[i]? = some r →
      w.contract.call h (Env.ofCallback me r result)
        (.callbackAmlOperation r.operation r.senderId) = .error e →
      LibStep w ⟨w.contract, w.inFlight.eraseIdx i⟩

/-- One step of the world: through `lib.rs`, or a call of an adapter by another account. -/
inductive Step : World Pool → World Pool → Prop
  | lib {w w' : World Pool} : LibStep h me w w' → Step w w'
  | adapter {w : World Pool} {c : Contract Pool} (caller : AccountId) (deposit : Nat)
      (m : AdapterMethod) : caller ≠ me →
      w.contract.callAdapter (Env.ofCall me caller deposit) m = .ok c →
      Step w ⟨c, w.inFlight⟩

/-- The worlds some run reaches from a freshly initialized exchange `me`. -/
inductive Reachable : World Pool → Prop
  | init (ownerId : AccountId) (exchangeFee referralFee : UInt32) (amlAccountId : AccountId)
      (acceptedRiskScore : UInt8) :
      Reachable
        ⟨Contract.new ownerId exchangeFee referralFee amlAccountId acceptedRiskScore, []⟩
  | step {w w' : World Pool} : Reachable w → Step h me w w' → Reachable w'

/-- One step of a concrete run. -/
inductive Event where
  | call (caller : AccountId) (deposit : Nat) (m : Method)
  | adapter (caller : AccountId) (deposit : Nat) (m : AdapterMethod)
  /-- The AML contract answers the pending request at index `i`. -/
  | answer (i : Nat) (result : PromiseResult)

/-- The world after an event; `none` for a call that panics or an event with no step. -/
def World.next (w : World Pool) : Event → Option (World Pool)
  | .call caller deposit m =>
    if caller = me then none else
    match w.contract.call h (Env.ofCall me caller deposit) m with
    | .ok (c, ps) => some ⟨c, w.inFlight ++ amlRequests ps⟩
    | .error _ => none
  | .adapter caller deposit m =>
    if caller = me then none else
    match w.contract.callAdapter (Env.ofCall me caller deposit) m with
    | .ok c => some ⟨c, w.inFlight⟩
    | .error _ => none
  | .answer i result =>
    match w.inFlight[i]? with
    | none => none
    | some r =>
      match w.contract.call h (Env.ofCallback me r result)
        (.callbackAmlOperation r.operation r.senderId) with
      | .ok (c, ps) => some ⟨c, w.inFlight.eraseIdx i ++ amlRequests ps⟩
      | .error _ => some ⟨w.contract, w.inFlight.eraseIdx i⟩

/-- The world after a list of events, if each of them steps. -/
def World.run : World Pool → List Event → Option (World Pool)
  | w, [] => some w
  | w, e :: es => (w.next h me e).bind (World.run · es)

/-- Every event that steps is a step of the world. -/
theorem World.step_of_next {w w' : World Pool} {e : Event} (hn : w.next h me e = some w') :
    Step h me w w' := by
  cases e with
  | call caller deposit m =>
    simp only [World.next] at hn
    split at hn
    · cases hn
    · split at hn
      · cases hn; exact .lib (.call caller deposit m ‹_› ‹_›)
      · cases hn
  | adapter caller deposit m =>
    simp only [World.next] at hn
    split at hn
    · cases hn
    · split at hn
      · cases hn; exact .adapter caller deposit m ‹_› ‹_›
      · cases hn
  | answer i result =>
    simp only [World.next] at hn
    split at hn
    · cases hn
    · split at hn
      · cases hn; exact .lib (.callback i _ result ‹_› ‹_›)
      · cases hn; exact .lib (.callbackFails i _ result ‹_› ‹_›)

/-- A run of events from a reachable world reaches its last world. -/
theorem Reachable.run {w w' : World Pool} :
    ∀ {es : List Event}, Reachable h me w → w.run h me es = some w' → Reachable h me w'
  | [], hw, hr => by cases hr; exact hw
  | e :: es, hw, hr => by
    cases hn : w.next h me e with
    | none => simp [World.run, hn] at hr
    | some w₁ =>
      simp only [World.run, hn, Option.some_bind] at hr
      exact Reachable.run (hw.step (World.step_of_next h me hn)) hr

/-- A property of the contract that holds initially and that every successful call of the
exchange `me`, callback and adapter call keeps, holds in every reachable world. -/
theorem Reachable.contract_invariant (I : Contract Pool → Prop)
    (init : ∀ ownerId exchangeFee referralFee amlAccountId acceptedRiskScore,
      I (Contract.new ownerId exchangeFee referralFee amlAccountId acceptedRiskScore))
    (call : ∀ {env self self' m ps}, env.currentAccountId = me → I self →
      self.call h env m = .ok (self', ps) → I self')
    (adapter : ∀ {env self c m}, I self → self.callAdapter env m = .ok c → I c)
    {w : World Pool} (hw : Reachable h me w) : I w.contract := by
  induction hw with
  | init => exact init _ _ _ _ _
  | step _ hs ih =>
    cases hs with
    | lib hl =>
      cases hl with
      | call _ _ _ _ hc => exact call rfl ih hc
      | callback _ _ _ _ hc => exact call rfl ih hc
      | callbackFails => exact ih
    | adapter _ _ _ _ hc => exact adapter ih hc

/-- A successful call event ran the method as a caller other than the exchange. -/
theorem World.next_call_eq_some {w w' : World Pool} {caller : AccountId} {deposit : Nat}
    {m : Method} (hn : w.next h me (.call caller deposit m) = some w') :
    caller ≠ me ∧
      ∃ ps, w.contract.call h (Env.ofCall me caller deposit) m = .ok (w'.contract, ps) := by
  simp only [World.next] at hn
  split at hn
  · cases hn
  · split at hn
    · cases hn; exact ⟨‹_›, _, ‹_›⟩
    · cases hn

/-- A successful adapter event ran the adapter as a caller other than the exchange. -/
theorem World.next_adapter_eq_some {w w' : World Pool} {caller : AccountId} {deposit : Nat}
    {m : AdapterMethod} (hn : w.next h me (.adapter caller deposit m) = some w') :
    caller ≠ me ∧
      w.contract.callAdapter (Env.ofCall me caller deposit) m = .ok w'.contract := by
  simp only [World.next] at hn
  split at hn
  · cases hn
  · split at hn
    · cases hn; exact ⟨‹_›, ‹_›⟩
    · cases hn

/-- An answer to a pending request either ran its callback or left the contract as it was. -/
theorem World.next_answer_eq_some {w w' : World Pool} {i : Nat} {result : PromiseResult}
    (hn : w.next h me (.answer i result) = some w') :
    ∃ r, w.inFlight[i]? = some r ∧ (w'.contract = w.contract ∨ ∃ ps,
      w.contract.call h (Env.ofCallback me r result)
        (.callbackAmlOperation r.operation r.senderId) = .ok (w'.contract, ps)) := by
  simp only [World.next] at hn
  split at hn
  · cases hn
  · split at hn
    · cases hn; exact ⟨_, ‹_›, .inr ⟨_, ‹_›⟩⟩
    · cases hn; exact ⟨_, ‹_›, .inl rfl⟩

/-- All an event that steps can have done: a call or adapter call by another account, its AML
requests appended; or an answer, which removes its request and ran or rolled back. -/
theorem World.next_eq_some {w w' : World Pool} {e : Event} (hn : w.next h me e = some w') :
    match e with
    | .call caller deposit m => caller ≠ me ∧ ∃ ps,
        w.contract.call h (Env.ofCall me caller deposit) m = .ok (w'.contract, ps) ∧
        w'.inFlight = w.inFlight ++ amlRequests ps
    | .adapter caller deposit m => caller ≠ me ∧
        w.contract.callAdapter (Env.ofCall me caller deposit) m = .ok w'.contract ∧
        w'.inFlight = w.inFlight
    | .answer i result => ∃ r, w.inFlight[i]? = some r ∧
        ((∃ ps, w.contract.call h (Env.ofCallback me r result)
            (.callbackAmlOperation r.operation r.senderId) = .ok (w'.contract, ps) ∧
          w'.inFlight = w.inFlight.eraseIdx i ++ amlRequests ps) ∨
        (∃ err, w.contract.call h (Env.ofCallback me r result)
            (.callbackAmlOperation r.operation r.senderId) = .error err) ∧
          w' = ⟨w.contract, w.inFlight.eraseIdx i⟩) := by
  cases e with
  | call caller deposit m =>
    simp only [World.next] at hn
    split at hn
    · cases hn
    · split at hn
      · cases hn; exact ⟨‹_›, _, ‹_›, rfl⟩
      · cases hn
  | adapter caller deposit m =>
    simp only [World.next] at hn
    split at hn
    · cases hn
    · split at hn
      · cases hn; exact ⟨‹_›, ‹_›, rfl⟩
      · cases hn
  | answer i result =>
    simp only [World.next] at hn
    split at hn
    · cases hn
    · split at hn
      · cases hn; exact ⟨_, ‹_›, .inl ⟨_, ‹_›, rfl⟩⟩
      · cases hn; exact ⟨_, ‹_›, .inr ⟨⟨_, ‹_›⟩, rfl⟩⟩

/-- A run of events from a reachable world, then one more event whose step `q` accepts,
shows a reachable world with a step that `q` accepts. -/
theorem Reachable.exists_next_of_run {w₀ : World Pool} (h₀ : Reachable h me w₀)
    (es : List Event) (e : Event) (q : World Pool → World Pool → Prop)
    [∀ w w', Decidable (q w w')]
    (hr : (w₀.run h me es).bind (fun w => (w.next h me e).map fun w' => decide (q w w'))
      = some true) :
    ∃ w w', Reachable h me w ∧ w.next h me e = some w' ∧ q w w' := by
  obtain ⟨w, hw, hn⟩ := Option.bind_eq_some.mp hr
  obtain ⟨w', hw', hq⟩ := Option.map_eq_some'.mp hn
  exact ⟨w, w', h₀.run h me hw, hw', of_decide_eq_true hq⟩

/-- A run from a reachable world to a world where the callback of the request at index `i`
returns, on `result`, what `q` accepts, shows such a callback in a reachable world. -/
theorem Reachable.exists_callback_of_run {w₀ : World Pool} (h₀ : Reachable h me w₀)
    (es : List Event) (i : Nat) (result : PromiseResult)
    (q : World Pool → AmlRequest → Contract Pool × List Promise → Prop)
    [∀ w r x, Decidable (q w r x)]
    (hr : ((w₀.run h me es).bind fun w => w.inFlight[i]?.bind fun r =>
      (w.contract.call h (Env.ofCallback me r result)
        (.callbackAmlOperation r.operation r.senderId)).toOption.map fun x =>
          decide (q w r x)) = some true) :
    ∃ w r c ps, Reachable h me w ∧ w.inFlight[i]? = some r ∧
      w.contract.call h (Env.ofCallback me r result)
        (.callbackAmlOperation r.operation r.senderId) = .ok (c, ps) ∧ q w r (c, ps) := by
  obtain ⟨w, hw, hn⟩ := Option.bind_eq_some.mp hr
  obtain ⟨r, hi, hn⟩ := Option.bind_eq_some.mp hn
  obtain ⟨⟨c, ps⟩, hc, hq⟩ := Option.map_eq_some'.mp hn
  exact ⟨w, r, c, ps, h₀.run h me hw, hi, Except.toOption_eq_some.mp hc, of_decide_eq_true hq⟩

end JumboExchange
