import JumboExchange.Pools.Simple

/-!
# The pool registry

`lib.rs` keeps the pools in a `Vector` and names a pool by its index. No method removes or
moves a pool: pool creation pushes a pool built for the next index, and every other method
replaces a pool at its own index by the result of one of its operations. So along every
run each pool stays at its index, changed only by pool operations, and a `pool_id` of
simple pools names the same pair of tokens for ever.
-/

namespace JumboExchange

/-- An element of `l ++ [q]` is an element of `l` at its index, or `q` at the old length. -/
theorem getElem?_append_singleton {α : Type} {l : List α} {q r : α} {i : Nat}
    (h : (l ++ [q])[i]? = some r) : l[i]? = some r ∨ i = l.length ∧ r = q := by
  rcases Nat.lt_or_ge i l.length with hlt | hge
  · exact .inl (List.getElem?_append_left hlt ▸ h)
  · rw [List.getElem?_append_right hge] at h
    have hi : i - l.length < 1 := (List.getElem?_eq_some_iff.mp h).1
    obtain rfl : i = l.length := by omega
    exact .inr ⟨rfl, by simpa using h.symm⟩

namespace PoolApi

variable {Pool : Type} (api : PoolApi Pool)

/-- One operation of the pool interface takes a stored pool to its next version. -/
inductive Op : Pool → Pool → Prop
  | shareRegister {p p' : Pool} {a : AccountId} : api.shareRegister p a = .ok p' → Op p p'
  | swap {p p' : Pool} {tIn tOut : AccountId} {ai m ao : Nat} {f : AdminFees} :
      api.swap p tIn ai tOut m f = .ok (ao, p') → Op p p'
  | addLiquidity {p p' : Pool} {s : AccountId} {xs ys : List Nat} :
      api.addLiquidity p s xs = .ok (ys, p') → Op p p'
  | addStableLiquidity {p p' : Pool} {s : AccountId} {xs : List Nat} {m n : Nat}
      {f : AdminFees} : api.addStableLiquidity p s xs m f = .ok (n, p') → Op p p'
  | removeLiquidity {p p' : Pool} {s : AccountId} {n : Nat} {ms ys : List Nat} :
      api.removeLiquidity p s n ms = .ok (ys, p') → Op p p'
  | removeLiquidityByTokens {p p' : Pool} {s : AccountId} {xs : List Nat} {m n : Nat}
      {f : AdminFees} : api.removeLiquidityByTokens p s xs m f = .ok (n, p') → Op p p'

/-- A pool the interface builds for index `i`, with `i as u32` as its id. -/
inductive Created (i : Nat) : Pool → Prop
  | simplePoolNew {ts : List AccountId} {fee ef rf : UInt32} {p : Pool} :
      api.simplePoolNew i.toUInt32 ts fee ef rf = .ok p → Created i p
  | stableSwapPoolNew {ts : List AccountId} {ds : List UInt8} {amp : Nat} {fee : UInt32}
      {p : Pool} : api.stableSwapPoolNew i.toUInt32 ts ds amp fee = .ok p → Created i p

/-- `pools'` extends `pools`: each of its pools is a later version, by pool operations, of the
pool at its index in `pools`, or of a pool built for its index past the end. -/
def Extends (pools pools' : List Pool) : Prop :=
  pools.length ≤ pools'.length ∧ ∀ i p', pools'[i]? = some p' →
    ∃ p, (pools[i]? = some p ∨ pools.length ≤ i ∧ api.Created i p) ∧
      Relation.ReflTransGen api.Op p p'

namespace Extends

variable {api} {pools pools' pools'' : List Pool}

/-- A list of pools extends itself. -/
theorem refl (pools : List Pool) : api.Extends pools pools :=
  ⟨le_rfl, fun _ p hp => ⟨p, .inl hp, .refl⟩⟩

/-- Extensions compose, as the steps of a run do. -/
theorem trans (h₁ : api.Extends pools pools') (h₂ : api.Extends pools' pools'') :
    api.Extends pools pools'' := by
  refine ⟨h₁.1.trans h₂.1, fun i r hr => ?_⟩
  obtain ⟨q, hq | ⟨hl, hc⟩, hqr⟩ := h₂.2 i r hr
  · obtain ⟨p, hp, hpq⟩ := h₁.2 i q hq
    exact ⟨p, hp, hpq.trans hqr⟩
  · exact ⟨q, .inr ⟨h₁.1.trans hl, hc⟩, hqr⟩

/-- Appending a pool built for the next index, and changed since by pool operations,
extends the list. -/
theorem append {p q : Pool} (hc : api.Created pools.length p)
    (ho : Relation.ReflTransGen api.Op p q) : api.Extends pools (pools ++ [q]) := by
  refine ⟨by simp, fun i r hr => ?_⟩
  rcases getElem?_append_singleton hr with hr | ⟨rfl, rfl⟩
  · exact ⟨r, .inl hr, .refl⟩
  · exact ⟨p, .inr ⟨le_rfl, hc⟩, ho⟩

end Extends

/-- `pools'` is `pools` with some pools replaced, at their own index, by later versions. -/
def Replaces (pools pools' : List Pool) : Prop :=
  pools'.length = pools.length ∧ ∀ (i : Nat) p', pools'[i]? = some p' →
    ∃ p, pools[i]? = some p ∧ Relation.ReflTransGen api.Op p p'

namespace Replaces

variable {api} {pools pools' pools'' : List Pool}

theorem refl (pools : List Pool) : api.Replaces pools pools :=
  ⟨rfl, fun _ p hp => ⟨p, hp, .refl⟩⟩

theorem trans (h₁ : api.Replaces pools pools') (h₂ : api.Replaces pools' pools'') :
    api.Replaces pools pools'' := by
  refine ⟨h₂.1.trans h₁.1, fun i r hr => ?_⟩
  obtain ⟨q, hq, hqr⟩ := h₂.2 i r hr
  obtain ⟨p, hp, hpq⟩ := h₁.2 i q hq
  exact ⟨p, hp, hpq.trans hqr⟩

/-- Replacing the pool at `j` by its version after one operation. -/
theorem set {j : Nat} {q q' : Pool} (hq : pools[j]? = some q) (ho : api.Op q q') :
    api.Replaces pools (pools.set j q') := by
  refine ⟨List.length_set .., fun i p hp => ?_⟩
  rw [List.getElem?_set'] at hp
  split at hp
  · subst j
    rw [hq] at hp
    cases hp
    exact ⟨q, hq, .single ho⟩
  · exact ⟨p, hp, .refl⟩

/-- Replacing pools in place extends the list. -/
theorem toExtends (hr : api.Replaces pools pools') : api.Extends pools pools' :=
  ⟨hr.1.ge, fun i p' hp' => (hr.2 i p' hp').imp fun _ ⟨hp, ho⟩ => ⟨.inl hp, ho⟩⟩

end Replaces

end PoolApi

namespace Contract

variable {Pool : Type} (h : Host Pool) (env : Env)

/-- A pool swap replaces its pool by the swapped one. -/
theorem internalPoolSwap_replaces {self self' : Contract Pool} {poolId : Nat}
    {tokenIn tokenOut : AccountId} {amountIn minAmountOut amountOut : Nat}
    {referralId : Option AccountId}
    (hs : self.internalPoolSwap h env poolId tokenIn amountIn tokenOut minAmountOut referralId
      = .ok (amountOut, self')) : h.pool.Replaces self.pools self'.pools := by
  obtain ⟨_, _, hp, hw, rfl⟩ := internalPoolSwap_eq_ok h env hs
  exact .set hp (.swap hw)

/-- The action loop replaces pools in place. -/
theorem internalExecuteActions_replaces (referralId : Option AccountId) :
    ∀ (actions : List Action) (self : Contract Pool) (account : Account) (prev : ActionResult)
      {result : ActionResult} {self' : Contract Pool} {account' : Account},
      self.internalExecuteActions h env account referralId actions prev
        = .ok (result, self', account') → h.pool.Replaces self.pools self'.pools
  | [], self, _, _, _, _, _, hs => by cases hs; exact .refl _
  | .swap a :: actions, self, account, prev, result, self', account', hs => by
    rw [internalExecuteActions_cons] at hs
    obtain ⟨⟨r, c, acc⟩, ha, hs⟩ := Except.bind_eq_ok.mp hs
    obtain ⟨_, _, _, -, -, hp, -, -⟩ := internalExecuteAction_eq_ok h env ha
    exact (internalPoolSwap_replaces h env hp).trans
      (internalExecuteActions_replaces referralId actions c acc r hs)

/-- `execute_actions` replaces pools in place. -/
theorem executeActions_replaces {self self' : Contract Pool} {actions : List Action}
    {referralId : Option AccountId} {senderId : AccountId} {result : ActionResult}
    (hs : self.executeActions h env actions referralId senderId = .ok (result, self')) :
    h.pool.Replaces self.pools self'.pools := by
  obtain ⟨-, account, c, _, -, -, he, rfl⟩ := executeActions_eq_ok h env hs
  exact (internalExecuteActions_replaces h env referralId actions self account .none he :
    h.pool.Replaces self.pools c.pools)

/-- Every successful call replaces pools in place by later versions, or appends one pool
built for its index and registered for the exchange as the trie answers. -/
theorem call_pools {self self' : Contract Pool} {m : Method} {ps : List Promise}
    (hs : self.call h env m = .ok (self', ps)) :
    h.pool.Replaces self.pools self'.pools ∨ ∃ p q, h.pool.Created self.pools.length p ∧
      self.shareRegisterStored h p env.currentAccountId = .ok q ∧
      self'.pools = self.pools ++ [q] := by
  have hm := call_eq_ok h env hs
  cases m with
  | addSimplePool =>
    obtain ⟨_, ha⟩ := hm
    obtain ⟨-, -, _, _, hn, hp, rfl, -⟩ := addSimplePool_eq_ok h env ha
    exact .inr ⟨_, _, .simplePoolNew hn, hp, rfl⟩
  | addStableSwapPool =>
    obtain ⟨_, ha⟩ := hm
    obtain ⟨-, -, _, _, hn, hp, rfl, -⟩ := addStableSwapPool_eq_ok h env ha
    exact .inr ⟨_, _, .stableSwapPoolNew hn, hp, rfl⟩
  | executeActions =>
    obtain ⟨-, _, he⟩ := hm
    exact .inl (executeActions_replaces h env he)
  | updateAmlAccountId | updateAcceptedRiskScore =>
    obtain ⟨-, -, -, rfl, -⟩ := hm
    exact .inl (.refl _)
  | callbackAmlOperation operation =>
    obtain ⟨_, _, -, -, ho⟩ := callbackAmlOperation_eq_ok h env hm.2
    refine .inl ?_
    cases operation with
    | swap =>
      obtain ⟨-, _, hu⟩ := ho
      obtain ⟨_, he, -⟩ := internalSwapUnchecked_eq_ok h env hu
      exact executeActions_replaces h env he
    | addLiquidity =>
      obtain ⟨-, _, _, _, _, hp, ha, -, -, rfl, -⟩ := internalAddLiquidityUnchecked_eq_ok h env ho
      exact .set hp (.addLiquidity ha)
    | addStableLiquidity =>
      obtain ⟨_, ho⟩ := ho
      obtain ⟨-, _, _, _, hp, ha, -, rfl, -⟩ := internalAddStableLiquidityUnchecked_eq_ok h env ho
      exact .set hp (.addStableLiquidity ha)
  | swap | addLiquidity | addStableLiquidity =>
    obtain ⟨-, rfl, -⟩ := hm
    exact .inl (.refl _)
  | removeLiquidity =>
    obtain ⟨-, -, _, _, _, _, hp, ha, -, _, -, rfl⟩ := removeLiquidity_eq_ok h env hm.2
    exact .inl (.set hp (.removeLiquidity ha))
  | removeLiquidityByTokens =>
    obtain ⟨_, he⟩ := hm.2
    obtain ⟨-, -, _, _, _, hp, ha, -, _, -, rfl⟩ := removeLiquidityByTokens_eq_ok h env he
    exact .inl (.set hp (.removeLiquidityByTokens ha))

/-- Every successful call extends the registry. -/
theorem call_extends {self self' : Contract Pool} {m : Method} {ps : List Promise}
    (hs : self.call h env m = .ok (self', ps)) : h.pool.Extends self.pools self'.pools := by
  obtain hr | ⟨_, _, hc, hq, he⟩ := call_pools h env hs
  · exact hr.toExtends
  · exact he ▸ .append hc (.single (.shareRegister ((shareRegisterStored_eq_ok h).mp hq).2))

end Contract

section Runs

variable {Pool : Type} (h : Host Pool) (me : AccountId)

/-- Every step of the world extends the registry. -/
theorem Step.extends {w w' : World Pool} (hs : Step h me w w') :
    h.pool.Extends w.contract.pools w'.contract.pools := by
  cases hs with
  | lib hl =>
    cases hl with
    | call _ _ _ _ hc => exact Contract.call_extends h _ hc
    | callback _ _ _ _ hc => exact Contract.call_extends h _ hc
    | callbackFails => exact .refl _
  | adapter _ _ _ _ hc => exact Contract.callAdapter_pools _ hc ▸ .refl _

/-- Along every run of events, the registry only grows: each pool stays at its index,
changed only by pool operations, and each new pool was built for its index. -/
theorem World.run_extends {w w' : World Pool} {es : List Event}
    (hr : w.run h me es = some w') : h.pool.Extends w.contract.pools w'.contract.pools := by
  induction es generalizing w with
  | nil => cases hr; exact .refl _
  | cons e es ih =>
    obtain ⟨w₁, hn, hr⟩ := Option.bind_eq_some.mp hr
    exact ((World.step_of_next h me hn).extends h me).trans (ih hr)

/-- Every pool of a reachable exchange was built for its index, and changed since only by
pool operations. -/
theorem Reachable.extends_nil {w : World Pool} (hw : Reachable h me w) :
    h.pool.Extends [] w.contract.pools := by
  induction hw with
  | init => exact .refl []
  | step _ hs ih => exact ih.trans (hs.extends h me)

end Runs

/-- Over the funded run, the pools of the exchange are those built for their index, changed
since only by pool operations. -/
theorem fundedRun_extends :
    ∃ w', freshExchange.run simpleHost "exchange" fundedRun = some w' ∧
      simplePools.Extends freshExchange.contract.pools w'.contract.pools := by
  obtain ⟨w', hw'⟩ := Option.isSome_iff_exists.mp
    (by decide : (freshExchange.run simpleHost "exchange" fundedRun).isSome = true)
  exact ⟨w', hw', World.run_extends simpleHost "exchange" hw'⟩

namespace SimplePool

/-- No operation of a simple pool changes its id, its tokens or its fee. -/
theorem config_of_ops {p p' : SimplePool} (ho : Relation.ReflTransGen simplePools.Op p p') :
    p'.config = p.config := by
  induction ho with
  | refl => rfl
  | tail _ hop ih =>
    refine Eq.trans ?_ ih
    cases hop with
    | shareRegister hs => exact config_shareRegister hs
    | swap hs => exact config_swap hs
    | addLiquidity hs => exact config_addLiquidity hs
    | addStableLiquidity hs => nomatch hs
    | removeLiquidity hs => exact config_removeLiquidity hs
    | removeLiquidityByTokens hs => nomatch hs

end SimplePool

end JumboExchange
