import Mathlib

/-!
# Identifiers, errors and receipts of the exchange contract

`lib.rs` is the part of the contract this development translates. The types it takes
from its sibling modules (`action.rs`, `aml.rs`, `admin_fee.rs`, `errors.rs`) are fixed
here by the fields and variants `lib.rs` reads. A call either panics with an `Error`,
which the runtime turns into a rollback, or returns with the receipts it scheduled.
-/

namespace JumboExchange

/-- A NEAR account id: users, token contracts, the AML contract and the exchange itself. -/
abbrev AccountId := String

/-- Whether the contract accepts mutating calls. -/
inductive RunningState where
  | running
  | paused
  deriving DecidableEq, Repr

/-- Why a call panics: the `errors.rs` constants that `lib.rs` raises, the spec's error kinds
(§7) for the absent helpers, and the literal messages of `lib.rs` and `near_sdk`. -/
inductive Error where
  | ERR27_DEPOSIT_NEEDED
  | ERR51_CONTRACT_PAUSED
  | ERR100_NOT_ALLOWED
  | accountNotRegistered
  | unregisteredToken
  | insufficientBalance
  | insufficientLPBalance
  | insufficientOutput
  | lpAlreadyRegistered
  | mathOverflow
  | noAmount
  | sameToken
  | tokenDuplicates
  | unknownToken
  | wrongTokenCount
  | zeroAmount
  | zeroLiquidity
  | panic (msg : String)
  deriving DecidableEq, Repr

/-- `PromiseResult` of the callback's single dependency. -/
inductive PromiseResult where
  | notReady
  | failed
  /-- `Successful(bytes)`, with the bytes as `serde_json` reads them as `(String, u8)`:
  `none` when they do not parse. -/
  | successful (value : Option (String × UInt8))
  deriving DecidableEq, Repr

/-- The `env::` values one call reads. -/
structure Env where
  /-- `env::current_account_id()`: the exchange's own account. -/
  currentAccountId : AccountId
  /-- `env::predecessor_account_id()`: the account that made this call. -/
  predecessorAccountId : AccountId
  /-- `env::attached_deposit()`, in yoctoNEAR. -/
  attachedDeposit : Nat
  /-- What `env::promise_result(i)` returns; empty outside a callback. -/
  promiseResults : List PromiseResult
  deriving DecidableEq, Repr

/-- `AdminFees`: the fee shares a pool operation pays out of its fee, and to whom. -/
structure AdminFees where
  exchangeFee : UInt32
  exchangeId : AccountId
  referralFee : UInt32
  referralId : Option AccountId
  deriving DecidableEq, Repr

/-- Modelled from the spec: `admin_fee.rs` is absent. `AdminFees::new(exchange_fee)` pays
the exchange fee to the exchange's own account and no referral fee (§4.5). -/
def AdminFees.new (exchangeFee : UInt32) (env : Env) : AdminFees :=
  { exchangeFee, exchangeId := env.currentAccountId, referralFee := 0, referralId := none }

/-- One hop of a route: swap `amountIn` of `tokenIn` (the previous hop's output when
absent) for at least `minAmountOut` of `tokenOut` in pool `poolId`. -/
structure SwapAction where
  poolId : Nat
  tokenIn : AccountId
  amountIn : Option Nat
  tokenOut : AccountId
  minAmountOut : Nat
  deriving DecidableEq, Repr

/-- `Action`: `internal_execute_action` matches it exhaustively on `Swap` alone. -/
inductive Action where
  | swap (swapAction : SwapAction)
  deriving DecidableEq, Repr

/-- `Action::tokens`: the tokens an action moves, as the whitelist check reads them. -/
def Action.tokens : Action → List AccountId
  | .swap a => [a.tokenIn, a.tokenOut]

/-- The result threaded through `internal_execute_actions`. -/
inductive ActionResult where
  | none
  | amount (value : Nat)
  deriving DecidableEq, Repr

/-- Modelled from the spec: `action.rs` is absent. `ActionResult::to_amount` is the
previous action's output, and fails `NoAmount` before the first action (§4.5). -/
def ActionResult.toAmount : ActionResult → Except Error Nat
  | .none => .error .noAmount
  | .amount v => .ok v

/-- The request `swap`, `add_liquidity` and `add_stable_liquidity` hand to the AML
callback, to be executed once the sender's risk score is known. -/
inductive AmlOperation where
  | swap (actions : List SwapAction) (referralId : Option AccountId)
  | addLiquidity (poolId : Nat) (amounts : List Nat) (minAmounts : Option (List Nat))
  | addStableLiquidity (poolId : Nat) (amounts : List Nat) (minShares : Nat)
  deriving DecidableEq, Repr

/-- `ext_aml::get_address(accountId)` on the AML contract, then
`ext_self::callback_aml_operation(operation, senderId)` carrying `attachedDeposit`. -/
structure AmlRequest where
  accountId : AccountId
  amlAccountId : AccountId
  operation : AmlOperation
  senderId : AccountId
  attachedDeposit : Nat
  deriving DecidableEq, Repr

/-- A receipt a call schedules. -/
inductive Promise where
  /-- `Promise::new(receiverId).transfer(amount)`. -/
  | transfer (receiverId : AccountId) (amount : Nat)
  /-- The AML check and its callback. -/
  | amlCheck (request : AmlRequest)
  deriving DecidableEq, Repr

/-- `assert!(cond, msg)`. -/
def require (cond : Prop) [Decidable cond] (e : Error) : Except Error Unit :=
  if cond then .ok () else .error e

/-- `Option::expect(msg)`. -/
def expect {α : Type} (o : Option α) (msg : String) : Except Error α :=
  match o with
  | some a => .ok a
  | none => .error (.panic msg)

@[simp] theorem require_eq_ok {cond : Prop} [Decidable cond] {e : Error} {u : Unit} :
    require cond e = .ok u ↔ cond := by
  unfold require; split <;> simp_all

@[simp] theorem expect_eq_ok {α : Type} {o : Option α} {msg : String} {a : α} :
    expect o msg = .ok a ↔ o = some a := by
  unfold expect; split <;> simp_all

end JumboExchange

namespace Except

variable {ε α β : Type}

@[simp] theorem ok_bind (a : α) (f : α → Except ε β) : (Except.ok a >>= f) = f a := rfl

@[simp] theorem error_bind (e : ε) (f : α → Except ε β) :
    (Except.error e >>= f : Except ε β) = .error e := rfl

@[simp] theorem pure_eq_ok (a : α) : (pure a : Except ε α) = .ok a := rfl

@[simp] theorem throw_eq_error (e : ε) : (throw e : Except ε α) = .error e := rfl

/-- A successful bind is a successful first computation and a successful continuation. -/
theorem bind_eq_ok {x : Except ε α} {f : α → Except ε β} {b : β} :
    (x >>= f) = .ok b ↔ ∃ a, x = .ok a ∧ f a = .ok b := by
  cases x <;> simp

/-- A successful map is a success of the mapped computation. -/
theorem map_eq_ok {x : Except ε α} {f : α → β} {b : β} :
    x.map f = .ok b ↔ ∃ a, x = .ok a ∧ f a = b := by
  cases x <;> simp [Except.map]

/-- `toOption` keeps exactly the successful results. -/
theorem toOption_eq_some {x : Except ε α} {a : α} : x.toOption = some a ↔ x = .ok a := by
  cases x <;> simp [Except.toOption]

/-- A computation whose `toBool` is `true` succeeded with some value. -/
theorem exists_eq_ok_of_toBool {x : Except ε α} (hx : x.toBool = true) : ∃ a, x = .ok a := by
  cases x with
  | error => cases hx
  | ok a => exact ⟨a, rfl⟩

end Except
