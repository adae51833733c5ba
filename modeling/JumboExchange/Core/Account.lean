import JumboExchange.Core.Types

/-!
# Ledger accounts

Modelled from the spec: `account_deposit.rs` is absent. An account holds the available
balance of each registered token and the native NEAR that pays for its storage (§3,
§4.4). `lib.rs` reaches it through `deposit`, `withdraw` and `get_balance`, and through
the `for i in 0..tokens.len()` loops that pair a pool's tokens with an amounts vector; the
adapters also `register` tokens. Every effect on a balance is stated in the balanced form
`after + out = before + in`.
-/

namespace JumboExchange

/-- A map keyed by account ids, as `LookupMap` and `UnorderedMap` hold them. -/
abbrev AccountMap (β : Type) := AList fun _ : AccountId => β

/-- Modelled from the spec: a user's ledger account. -/
structure Account where
  /-- Native NEAR deposited to pay for storage. -/
  nearAmount : Nat
  /-- The available balance of each registered token. -/
  tokens : AccountMap Nat

/-- The total of `amounts` that a `for i in 0..tokens.len()` loop pairs with `token`. -/
def amountFor (token : AccountId) : List AccountId → List Nat → Nat
  | t :: ts, x :: xs => (if t = token then x else 0) + amountFor token ts xs
  | _, _ => 0

namespace Account

/-- `Account::new`: no NEAR and no registered token. -/
def new : Account := ⟨0, ∅⟩

/-- `get_balance`: `none` for a token the account has not registered. -/
def getBalance (a : Account) (token : AccountId) : Option Nat := a.tokens.lookup token

/-- The balance of a token, zero when unregistered: what the ledger totals add up. -/
def balance (a : Account) (token : AccountId) : Nat := (a.getBalance token).getD 0

/-- `deposit`: add to the token's `u128` balance with a checked addition, registering the
token on first use, as `remove_liquidity` needs for an account it has just created. -/
def deposit (a : Account) (token : AccountId) (amount : Nat) : Except Error Account :=
  if a.balance token + amount < 2 ^ 128 then
    .ok { a with tokens := a.tokens.insert token (a.balance token + amount) }
  else .error .mathOverflow

/-- `withdraw`: fails on an unregistered token and on a balance below the amount. -/
def withdraw (a : Account) (token : AccountId) (amount : Nat) : Except Error Account :=
  match a.getBalance token with
  | none => .error .unregisteredToken
  | some b =>
    if amount ≤ b then .ok { a with tokens := a.tokens.insert token (b - amount) }
    else .error .insufficientBalance

/-- `register`: a zero balance for each of `tokens` the account has not registered yet. -/
def register (a : Account) (tokens : List AccountId) : Account :=
  { a with
    tokens := tokens.foldl (fun m t => if (m.lookup t).isSome then m else m.insert t 0) a.tokens }

/-- `for i in 0..tokens.len() { account.deposit(&tokens[i], amounts[i]) }`. -/
def depositAll (a : Account) : List AccountId → List Nat → Except Error Account
  | [], _ => .ok a
  | _ :: _, [] => .error (.panic "index out of bounds")
  | t :: ts, x :: xs => a.deposit t x >>= fun a => a.depositAll ts xs

/-- `for i in 0..tokens.len() { account.withdraw(&tokens[i], amounts[i]) }`. -/
def withdrawAll (a : Account) : List AccountId → List Nat → Except Error Account
  | [], _ => .ok a
  | _ :: _, [] => .error (.panic "index out of bounds")
  | t :: ts, x :: xs => a.withdraw t x >>= fun a => a.withdrawAll ts xs

@[simp] theorem balance_new (token : AccountId) : new.balance token = 0 := rfl

@[simp] theorem balance_nearAmount (a : Account) (n : Nat) (token : AccountId) :
    ({ a with nearAmount := n } : Account).balance token = a.balance token := rfl

/-- Setting one token's balance registers it and leaves the others. -/
theorem getBalance_insert (a : Account) (t u : AccountId) (b : Nat) :
    ({ a with tokens := a.tokens.insert t b } : Account).getBalance u =
      if t = u then some b else a.getBalance u := by
  by_cases h : t = u
  · subst h; simp [getBalance, AList.lookup_insert]
  · simp [getBalance, AList.lookup_insert_ne (Ne.symm h), h]

/-- Setting one token's balance leaves the others. -/
theorem balance_insert (a : Account) (t u : AccountId) (b : Nat) :
    ({ a with tokens := a.tokens.insert t b } : Account).balance u =
      if t = u then b else a.balance u := by
  simp only [balance, getBalance_insert]
  split <;> rfl

/-- Registering tokens changes no balance. -/
theorem balance_register (a : Account) (tokens : List AccountId) (u : AccountId) :
    (a.register tokens).balance u = a.balance u := by
  induction tokens generalizing a with
  | nil => rfl
  | cons t ts ih =>
    refine (ih { a with tokens := if (a.tokens.lookup t).isSome then a.tokens
      else a.tokens.insert t 0 }).trans ?_
    split
    · rfl
    · rw [balance_insert]
      split
      · subst t; simp_all [balance, getBalance]
      · rfl

/-- A deposit adds exactly its amount to its own token. -/
theorem balance_deposit {a a' : Account} {t : AccountId} {x : Nat}
    (h : a.deposit t x = .ok a') (u : AccountId) :
    a'.balance u = a.balance u + if t = u then x else 0 := by
  unfold deposit at h
  split at h
  · cases h; rw [balance_insert]; split <;> simp_all
  · cases h

/-- A withdrawal takes exactly its amount from its own token. -/
theorem balance_withdraw {a a' : Account} {t : AccountId} {x : Nat}
    (h : a.withdraw t x = .ok a') (u : AccountId) :
    a'.balance u + (if t = u then x else 0) = a.balance u := by
  unfold withdraw at h
  split at h
  · cases h
  · rename_i b hb
    split at h
    · cases h
      rw [balance_insert]
      split
      · subst u; simp only [balance, hb, Option.getD_some]; omega
      · rfl
    · cases h

/-- A withdrawal of `x` of one token, then a deposit of `y` of another, moves the account by
`x` out and `y` in. -/
theorem balance_withdraw_deposit {a a' a'' : Account} {tIn tOut : AccountId} {x y : Nat}
    (hw : a.withdraw tIn x = .ok a') (hd : a'.deposit tOut y = .ok a'') (u : AccountId) :
    a''.balance u + (if tIn = u then x else 0) = a.balance u + (if tOut = u then y else 0) := by
  rw [balance_deposit hd, ← balance_withdraw hw u]
  omega

/-- A deposit moves a token balance only, never the NEAR amount; so does a withdrawal. -/
theorem nearAmount_deposit {a a' : Account} {t : AccountId} {x : Nat}
    (h : a.deposit t x = .ok a') : a'.nearAmount = a.nearAmount := by
  unfold deposit at h
  split at h
  · cases h; rfl
  · cases h

theorem nearAmount_withdraw {a a' : Account} {t : AccountId} {x : Nat}
    (h : a.withdraw t x = .ok a') : a'.nearAmount = a.nearAmount := by
  unfold withdraw at h
  split at h
  · cases h
  · split at h
    · cases h; rfl
    · cases h

/-- A deposit registers its own token, and no other. -/
theorem isSome_getBalance_deposit {a a' : Account} {t : AccountId} {x : Nat}
    (h : a.deposit t x = .ok a') (u : AccountId) :
    (a'.getBalance u).isSome = ((a.getBalance u).isSome || decide (t = u)) := by
  unfold deposit at h
  split at h
  · cases h
    rw [getBalance_insert]
    split <;> simp_all
  · cases h

/-- A withdrawal registers no token: its own was registered already. -/
theorem isSome_getBalance_withdraw {a a' : Account} {t : AccountId} {x : Nat}
    (h : a.withdraw t x = .ok a') (u : AccountId) :
    (a'.getBalance u).isSome = (a.getBalance u).isSome := by
  unfold withdraw at h
  split at h
  · cases h
  · rename_i b hb
    split at h
    · cases h
      rw [getBalance_insert]
      split
      · subst u; rw [hb]; rfl
      · rfl
    · cases h

/-- The deposit loop credits each token with the amounts paired with it. -/
theorem balance_depositAll {a a' : Account} {ts : List AccountId} {xs : List Nat}
    (h : a.depositAll ts xs = .ok a') (u : AccountId) :
    a'.balance u = a.balance u + amountFor u ts xs := by
  induction ts generalizing a xs with
  | nil => cases h; simp [amountFor]
  | cons t ts ih =>
    cases xs with
    | nil => cases h
    | cons x xs =>
      obtain ⟨a₁, h₁, h₂⟩ := Except.bind_eq_ok.mp h
      rw [ih h₂, balance_deposit h₁, amountFor]
      omega

/-- The withdrawal loop debits each token with the amounts paired with it. -/
theorem balance_withdrawAll {a a' : Account} {ts : List AccountId} {xs : List Nat}
    (h : a.withdrawAll ts xs = .ok a') (u : AccountId) :
    a'.balance u + amountFor u ts xs = a.balance u := by
  induction ts generalizing a xs with
  | nil => cases h; simp [amountFor]
  | cons t ts ih =>
    cases xs with
    | nil => cases h
    | cons x xs =>
      obtain ⟨a₁, h₁, h₂⟩ := Except.bind_eq_ok.mp h
      rw [← balance_withdraw h₁ u, ← ih h₂, amountFor]
      omega

/-- After a deposit, withdrawing the same amount of the same token cannot fail. -/
theorem withdraw_ok_of_deposit {a a' : Account} {t : AccountId} {x : Nat}
    (h : a.deposit t x = .ok a') : ∃ a'', a'.withdraw t x = .ok a'' := by
  unfold deposit at h
  split at h
  · cases h
    simp only [withdraw, getBalance, AList.lookup_insert]
    exact ⟨_, if_pos (Nat.le_add_left x _)⟩
  · cases h

end Account

/-- The balance the ledger holds for `user` in `token`; zero for an unknown user. -/
def ledgerBalance (accounts : AccountMap Account) (user token : AccountId) : Nat :=
  ((accounts.lookup user).map (·.balance token)).getD 0

/-- `Σ` over ledger entries of their balance of `token`. -/
def entriesTotal (token : AccountId) : List (Sigma fun _ : AccountId => Account) → Nat
  | [] => 0
  | e :: es => e.2.balance token + entriesTotal token es

/-- `Σ` over all ledger accounts of their balance of `token`. -/
def ledgerTotal (accounts : AccountMap Account) (token : AccountId) : Nat :=
  entriesTotal token accounts.entries

/-- The total splits into the entry of `user` and the total of the others. -/
private theorem entriesTotal_eq_dlookup_add_kerase (token user : AccountId) :
    ∀ l : List (Sigma fun _ : AccountId => Account),
      entriesTotal token l =
        ((l.dlookup user).map (·.balance token)).getD 0 + entriesTotal token (l.kerase user)
  | [] => rfl
  | ⟨k, v⟩ :: l => by
    by_cases hk : user = k
    · subst hk
      simp [List.dlookup_cons_eq, List.kerase_cons_eq, entriesTotal]
    · rw [List.dlookup_cons_ne _ _ hk, List.kerase_cons_ne hk, entriesTotal, entriesTotal,
        entriesTotal_eq_dlookup_add_kerase token user l]
      omega

/-- Saving an account changes the ledger total by the difference of the two versions. -/
theorem ledgerTotal_insert (accounts : AccountMap Account) (user : AccountId) (a : Account)
    (token : AccountId) :
    ledgerTotal (accounts.insert user a) token + ledgerBalance accounts user token =
      ledgerTotal accounts token + a.balance token := by
  have h := entriesTotal_eq_dlookup_add_kerase token user accounts.entries
  simp only [ledgerTotal, ledgerBalance, AList.insert_entries, entriesTotal, AList.lookup] at h ⊢
  omega

/-- The ledger balance of a registered account is its balance. -/
theorem ledgerBalance_of_lookup {accounts : AccountMap Account} {user : AccountId} {a : Account}
    (h : accounts.lookup user = some a) (token : AccountId) :
    ledgerBalance accounts user token = a.balance token := by
  simp [ledgerBalance, h]

@[simp] theorem ledgerBalance_insert_self (accounts : AccountMap Account) (user : AccountId)
    (a : Account) (token : AccountId) :
    ledgerBalance (accounts.insert user a) user token = a.balance token := by
  simp [ledgerBalance, AList.lookup_insert]

@[simp] theorem ledgerBalance_insert_ne {accounts : AccountMap Account} {user u : AccountId}
    (h : u ≠ user) (a : Account) (token : AccountId) :
    ledgerBalance (accounts.insert user a) u token = ledgerBalance accounts u token := by
  simp [ledgerBalance, AList.lookup_insert_ne h]

end JumboExchange
