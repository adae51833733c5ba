import JumboExchange.Core.Pool

/-!
# The contract state and its internal helpers

`Contract` is the persisted state of `lib.rs`, over any pool implementation. What
`lib.rs` calls but does not define, the pools and the host's storage meter, is a `Host`.
A method is a function of its `Env` and the state, returning the new state, or a panic
that the runtime turns into a rollback. The LP records of the pools live in the trie under
`StorageKey` prefixes, which a new pool's registration reads. The helpers of the absent
modules that `lib.rs` calls are modelled from the spec.
-/

namespace JumboExchange

/-- `StorageKey`: the prefix of each collection's records in the trie. -/
inductive StorageKey where
  | pools
  | accounts
  | shares (poolId : UInt32)
  | whitelist
  | guardian
  | accountTokens (accountId : AccountId)
  deriving DecidableEq, Repr

/-- `Contract`: the persisted state of the exchange. -/
structure Contract (Pool : Type) where
  /-- Account of the owner. -/
  ownerId : AccountId
  /-- Exchange fee, that goes to the exchange itself. -/
  exchangeFee : UInt32
  /-- Referral fee, that goes to the referrer in the call. -/
  referralFee : UInt32
  /-- The `Vector` of all the pools; a pool's id is its index. -/
  pools : List Pool
  /-- The registered ledger accounts. -/
  accounts : AccountMap Account
  /-- Tokens whitelisted by the owner. -/
  whitelistedTokens : List AccountId
  /-- The guardians. -/
  guardians : List AccountId
  /-- Running state. -/
  state : RunningState
  /-- Account of the AML contract. -/
  amlAccountId : AccountId
  /-- The highest accepted risk score. -/
  acceptedRiskScore : UInt8

/-- What `lib.rs` uses but does not define: the pool implementation, and the host's
`env::storage_usage()` (bytes taken by a state) and `env::storage_byte_cost()`. -/
structure Host (Pool : Type) where
  pool : PoolApi Pool
  storageUsage : Contract Pool → Nat
  storageByteCost : Nat

namespace Contract

variable {Pool : Type} (h : Host Pool) (env : Env)

/-- `Contract::new`: no pools, no accounts, running. -/
def new (ownerId : AccountId) (exchangeFee referralFee : UInt32) (amlAccountId : AccountId)
    (acceptedRiskScore : UInt8) : Contract Pool :=
  { ownerId, exchangeFee, referralFee, pools := [], accounts := ∅, whitelistedTokens := [],
    guardians := [], state := .running, amlAccountId, acceptedRiskScore }

/-- `assert_contract_running`. -/
def assertContractRunning (self : Contract Pool) : Except Error Unit :=
  match self.state with
  | .running => .ok ()
  | _ => .error .ERR51_CONTRACT_PAUSED

/-- Modelled from the spec: `owner.rs` is absent. The caller is the owner or a guardian. -/
def isOwnerOrGuardians (self : Contract Pool) : Bool :=
  env.predecessorAccountId == self.ownerId || self.guardians.contains env.predecessorAccountId

/-- `internal_unwrap_account`: the registered account, or a panic. -/
def internalUnwrapAccount (self : Contract Pool) (accountId : AccountId) :
    Except Error Account :=
  match self.accounts.lookup accountId with
  | some a => .ok a
  | none => .error .accountNotRegistered

/-- `internal_unwrap_or_default_account`: the registered account, or a new empty one. -/
def internalUnwrapOrDefaultAccount (self : Contract Pool) (accountId : AccountId) : Account :=
  (self.accounts.lookup accountId).getD Account.new

/-- `internal_save_account`. -/
def internalSaveAccount (self : Contract Pool) (accountId : AccountId) (account : Account) :
    Contract Pool :=
  { self with accounts := self.accounts.insert accountId account }

/-- `internal_check_storage`: charge the storage grown since `prevStorage` to the attached
deposit and send what is left to the predecessor. -/
def internalCheckStorage (self : Contract Pool) (prevStorage : Nat) :
    Except Error (List Promise) :=
  let storageCost := (h.storageUsage self - prevStorage) * h.storageByteCost
  let attached := env.attachedDeposit
  if storageCost ≤ attached then
    let refund := attached - storageCost
    .ok (if 0 < refund then [.transfer env.predecessorAccountId refund] else [])
  else .error (.panic s!"ERR_STORAGE_DEPOSIT need {storageCost}, attatched {attached}")

/-- `Pool::share_register` on a new pool, as the trie answers it: stored pools with the same
id share its `StorageKey::Shares` prefix, so an account they hold is already registered. -/
def shareRegisterStored (self : Contract Pool) (pool : Pool) (accountId : AccountId) :
    Except Error Pool := do
  require (∀ q ∈ self.pools, StorageKey.shares (h.pool.sharesPoolId q) =
      .shares (h.pool.sharesPoolId pool) → h.pool.shareRegistered q accountId = false)
    .lpAlreadyRegistered
  h.pool.shareRegister pool accountId

/-- `internal_add_pool`: register the exchange's share account, push the pool, charge its
storage; the new pool's id is the old length. -/
def internalAddPool (self : Contract Pool) (pool : Pool) :
    Except Error (Nat × Contract Pool × List Promise) := do
  let prevStorage := h.storageUsage self
  let id := self.pools.length
  let pool ← self.shareRegisterStored h pool env.currentAccountId
  let self := { self with pools := self.pools ++ [pool] }
  let promises ← self.internalCheckStorage h env prevStorage
  pure (id, self, promises)

/-- Modelled from the spec: `utils.rs` is absent. A token list with a repeat is refused. -/
def checkTokenDuplicates (tokens : List AccountId) : Except Error Unit :=
  require tokens.Nodup .tokenDuplicates

@[simp] theorem internalSaveAccount_pools (self : Contract Pool) (u : AccountId) (a : Account) :
    (self.internalSaveAccount u a).pools = self.pools := rfl

@[simp] theorem internalSaveAccount_accounts (self : Contract Pool) (u : AccountId)
    (a : Account) : (self.internalSaveAccount u a).accounts = self.accounts.insert u a := rfl

@[simp] theorem internalSaveAccount_state (self : Contract Pool) (u : AccountId) (a : Account) :
    (self.internalSaveAccount u a).state = self.state := rfl

/-- Saving an account twice keeps the second. -/
@[simp] theorem internalSaveAccount_internalSaveAccount (self : Contract Pool) (u : AccountId)
    (a a' : Account) :
    (self.internalSaveAccount u a).internalSaveAccount u a' = self.internalSaveAccount u a' := by
  simp [internalSaveAccount, AList.insert_insert]

/-- The running check passes exactly in the running state. -/
theorem assertContractRunning_eq_ok {self : Contract Pool} {u : Unit} :
    self.assertContractRunning = .ok u ↔ self.state = .running := by
  unfold assertContractRunning; split <;> simp_all

/-- The check passes exactly for the owner and the guardians. -/
theorem isOwnerOrGuardians_eq_true {self : Contract Pool} :
    self.isOwnerOrGuardians env = true ↔
      env.predecessorAccountId = self.ownerId ∨ env.predecessorAccountId ∈ self.guardians := by
  simp [isOwnerOrGuardians]

/-- Unwrapping succeeds exactly on a registered account, and returns it. -/
theorem internalUnwrapAccount_eq_ok {self : Contract Pool} {u : AccountId} {a : Account} :
    self.internalUnwrapAccount u = .ok a ↔ self.accounts.lookup u = some a := by
  unfold internalUnwrapAccount; split <;> simp_all

/-- The storage check changes no state: it succeeds exactly when the deposit covers the
storage cost, and then sends the rest, if any, to the predecessor. -/
theorem internalCheckStorage_eq_ok {self : Contract Pool} {prev : Nat} {ps : List Promise} :
    self.internalCheckStorage h env prev = .ok ps ↔
      (h.storageUsage self - prev) * h.storageByteCost ≤ env.attachedDeposit ∧
      ps = if (h.storageUsage self - prev) * h.storageByteCost < env.attachedDeposit then
        [.transfer env.predecessorAccountId
          (env.attachedDeposit - (h.storageUsage self - prev) * h.storageByteCost)]
      else [] := by
  unfold internalCheckStorage
  by_cases hc : (h.storageUsage self - prev) * h.storageByteCost ≤ env.attachedDeposit
  · simp only [hc, ↓reduceIte, Nat.sub_pos_iff_lt, Except.ok.injEq, true_and]
    exact eq_comm
  · simp [hc]

/-- A successful storage check sends nothing, or one transfer to the predecessor: the part
of the deposit that the storage grown since `prev` did not take. -/
theorem internalCheckStorage_refund {self : Contract Pool} {prev : Nat} {ps : List Promise}
    (hs : self.internalCheckStorage h env prev = .ok ps) :
    ps = [] ∨ (h.storageUsage self - prev) * h.storageByteCost < env.attachedDeposit ∧
      ps = [.transfer env.predecessorAccountId
        (env.attachedDeposit - (h.storageUsage self - prev) * h.storageByteCost)] := by
  rw [((internalCheckStorage_eq_ok h env).mp hs).2]
  split
  · exact .inr ⟨‹_›, rfl⟩
  · exact .inl rfl

/-- The new pool's registration succeeds exactly when no stored pool with its id holds the
account, and the pool's own `share_register` succeeds. -/
theorem shareRegisterStored_eq_ok {self : Contract Pool} {pool p : Pool} {a : AccountId} :
    self.shareRegisterStored h pool a = .ok p ↔
      (∀ q ∈ self.pools, h.pool.sharesPoolId q = h.pool.sharesPoolId pool →
        h.pool.shareRegistered q a = false) ∧ h.pool.shareRegister pool a = .ok p := by
  simp [shareRegisterStored, Except.bind_eq_ok]

/-- Adding a pool appends exactly the share-registered pool, returns the old length, and
charges the storage it took to the attached deposit. -/
theorem internalAddPool_eq_ok {self self' : Contract Pool} {pool : Pool} {id : Nat}
    {ps : List Promise} (hs : self.internalAddPool h env pool = .ok (id, self', ps)) :
    id = self.pools.length ∧
      ∃ p, self.shareRegisterStored h pool env.currentAccountId = .ok p ∧
        self' = { self with pools := self.pools ++ [p] } ∧
        self'.internalCheckStorage h env (h.storageUsage self) = .ok ps := by
  obtain ⟨p, hp, hs⟩ := Except.bind_eq_ok.mp hs
  obtain ⟨_, hc, hs⟩ := Except.bind_eq_ok.mp hs
  cases hs
  exact ⟨rfl, p, hp, rfl, hc⟩

end Contract

end JumboExchange
