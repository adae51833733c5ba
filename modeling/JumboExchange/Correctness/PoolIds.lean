import JumboExchange.Correctness.Registry

/-!
# Pool ids

`add_simple_pool` and `add_stable_swap_pool` build the new pool with the id
`self.pools.len() as u32`. A pool keeps its LP records under `StorageKey::Shares { pool_id }`,
and `internal_add_pool` registers the exchange there. At index `2^32` that registration
would find pool 0's record of the exchange and panic, so no such pool is ever created: every
pool's id is its index, and no two pools share an LP prefix.
-/

namespace JumboExchange

namespace PoolApi

variable {Pool : Type} (api : PoolApi Pool)

/-- A property of the pool at an index that a pool built for the index has, and that every
pool operation keeps. -/
structure IndexInvariant (P : Nat → Pool → Prop) : Prop where
  created {i : Nat} {p : Pool} : api.Created i p → P i p
  op {i : Nat} {p p' : Pool} : api.Op p p' → P i p → P i p'

end PoolApi

/-- A pool built for index `i`, then changed by pool operations, has `P` at `i`. -/
theorem PoolApi.IndexInvariant.of_created {Pool : Type} {api : PoolApi Pool}
    {P : Nat → Pool → Prop} (hP : api.IndexInvariant P) {i : Nat} {p q : Pool}
    (hc : api.Created i p) (ho : Relation.ReflTransGen api.Op p q) : P i q := by
  induction ho with
  | refl => exact hP.created hc
  | tail _ hop ih => exact hP.op hop ih

/-- Every pool of the list has `P` at its index. -/
def Indexed {Pool : Type} (P : Nat → Pool → Prop) (pools : List Pool) : Prop :=
  ∀ i p, pools[i]? = some p → P i p

section Runs

variable {Pool : Type} (h : Host Pool) (me : AccountId) {P : Nat → Pool → Prop}

/-- Along every run, every pool has `P` at its index: it was built for the index, and
changed since only by pool operations. -/
theorem Reachable.indexed (hP : h.pool.IndexInvariant P) {w : World Pool}
    (hw : Reachable h me w) : Indexed P w.contract.pools := by
  intro i p hp
  obtain ⟨q, hq | ⟨-, hc⟩, hqp⟩ := (hw.extends_nil h me).2 i p hp
  · cases hq
  · exact hP.of_created hc hqp

end Runs

namespace SimplePool

/-- A new simple pool takes the id it is built with. -/
theorem id_new {p : SimplePool} {id : UInt32} {ts : List AccountId} {fee : UInt32}
    (hs : SimplePool.new id ts fee = .ok p) : p.id = id := by
  unfold SimplePool.new at hs
  split at hs
  · cases hs; rfl
  · cases hs

end SimplePool

/-- A new simple pool takes the id it is built with, and every operation keeps it. -/
theorem simplePools_indexInvariant :
    simplePools.IndexInvariant fun i (p : SimplePool) => p.id = i.toUInt32 where
  created hc := by
    cases hc with
    | simplePoolNew hs => exact SimplePool.id_new hs
    | stableSwapPoolNew hs => nomatch hs
  op ho hp := (congrArg Prod.fst (SimplePool.config_of_ops (.single ho))).trans hp

/-- In every reachable exchange of simple pools, the pool at index `i` has the id
`i as u32`. -/
theorem Reachable.simplePool_id {me : AccountId} {w : World SimplePool}
    (hw : Reachable simpleHost me w) {i : Nat} {p : SimplePool}
    (hp : w.contract.pools[i]? = some p) : p.id = i.toUInt32 :=
  hw.indexed simpleHost me simplePools_indexInvariant i p hp

/-- Below `2^32` pools, the ids of two pools at different indices differ. -/
theorem Reachable.simplePool_ids_ne {me : AccountId} {w : World SimplePool}
    (hw : Reachable simpleHost me w) {i j : Nat} {p q : SimplePool}
    (hi : i < 2 ^ 32) (hj : j < 2 ^ 32) (hij : i ≠ j)
    (hp : w.contract.pools[i]? = some p) (hq : w.contract.pools[j]? = some q) : p.id ≠ q.id := by
  rw [hw.simplePool_id hp, hw.simplePool_id hq]
  intro he
  have h : (UInt32.ofNat i).toNat = (UInt32.ofNat j).toNat := congrArg UInt32.toNat he
  rw [UInt32.toNat_ofNat_of_lt hi, UInt32.toNat_ofNat_of_lt hj] at h
  exact hij h

/-- The two-pool run reaches an exchange with two pools. -/
theorem twoPools_reachable :
    ∃ w, Reachable simpleHost "exchange" w ∧ w.contract.pools.length = 2 := by
  obtain ⟨w, hw, hl⟩ := Option.map_eq_some'.mp (by decide :
    (freshExchange.run simpleHost "exchange" twoPoolsRun).map (·.contract.pools.length) = some 2)
  exact ⟨w, freshExchange_reachable.run simpleHost "exchange" hw, hl⟩

/-- Two pools created one after the other carry different ids. -/
theorem simplePool_ids_ne_two :
    ∃ w p q, Reachable simpleHost "exchange" w ∧ w.contract.pools[0]? = some p ∧
      w.contract.pools[1]? = some q ∧ p.id ≠ q.id := by
  obtain ⟨w, hw, hl⟩ := twoPools_reachable
  have h₀ := List.getElem?_eq_getElem (by omega : 0 < w.contract.pools.length)
  have h₁ := List.getElem?_eq_getElem (by omega : 1 < w.contract.pools.length)
  exact ⟨w, _, _, hw, h₀, h₁,
    hw.simplePool_ids_ne (by decide) (by decide) (by decide) h₀ h₁⟩

/-! ## LP records in the trie -/

namespace PoolApi

variable {Pool : Type} (api : PoolApi Pool)

/-- The hypothesis of distinct LP prefixes: a pool keeps its LP records under the id it is
built with, `share_register` records its account, and no operation drops one. -/
structure KeepsShares : Prop where
  simplePoolNew {id : UInt32} {ts : List AccountId} {fee ef rf : UInt32} {p : Pool} :
    api.simplePoolNew id ts fee ef rf = .ok p → api.sharesPoolId p = id
  stableSwapPoolNew {id : UInt32} {ts : List AccountId} {ds : List UInt8} {amp : Nat}
    {fee : UInt32} {p : Pool} :
    api.stableSwapPoolNew id ts ds amp fee = .ok p → api.sharesPoolId p = id
  shareRegister {p p' : Pool} {a : AccountId} :
    api.shareRegister p a = .ok p' → api.shareRegistered p' a = true
  op {p p' : Pool} : api.Op p p' → api.sharesPoolId p' = api.sharesPoolId p ∧
    ∀ a, api.shareRegistered p a = true → api.shareRegistered p' a = true

variable {api}

/-- A pool built for index `i` keeps its LP records under `i as u32`. -/
theorem KeepsShares.created (hK : api.KeepsShares) {i : Nat} {p : Pool} (hc : api.Created i p) :
    api.sharesPoolId p = i.toUInt32 := by
  cases hc with
  | simplePoolNew hs => exact hK.simplePoolNew hs
  | stableSwapPoolNew hs => exact hK.stableSwapPoolNew hs

/-- Pool operations keep a pool's id and every LP record it holds. -/
theorem KeepsShares.ops (hK : api.KeepsShares) {p p' : Pool}
    (ho : Relation.ReflTransGen api.Op p p') : api.sharesPoolId p' = api.sharesPoolId p ∧
      ∀ a, api.shareRegistered p a = true → api.shareRegistered p' a = true := by
  induction ho with
  | refl => exact ⟨rfl, fun _ => id⟩
  | tail _ hop ih =>
    obtain ⟨hid, hreg⟩ := hK.op hop
    exact ⟨hid.trans ih.1, fun a ha => hreg a (ih.2 a ha)⟩

end PoolApi

section Shares

variable {Pool : Type} (h : Host Pool) (me : AccountId)

/-- Every pool keeps its LP records under its own index, and they hold `me`. -/
def SharesIndexed (pools : List Pool) : Prop :=
  ∀ (i : Nat) p, pools[i]? = some p →
    (h.pool.sharesPoolId p).toNat = i ∧ h.pool.shareRegistered p me = true

variable {h me} (hK : h.pool.KeepsShares)
include hK

/-- Replacing pools in place by their versions after pool operations keeps the invariant. -/
theorem SharesIndexed.replaces {pools pools' : List Pool} (hi : SharesIndexed h me pools)
    (hr : h.pool.Replaces pools pools') : SharesIndexed h me pools' := by
  intro i p' hp'
  obtain ⟨p, hp, ho⟩ := hr.2 i p' hp'
  obtain ⟨hid, hreg⟩ := hK.ops ho
  exact ⟨hid ▸ (hi i p hp).1, hreg me (hi i p hp).2⟩

/-- A new pool registered for `me` as the trie answers is built below index `2^32`, where
pool 0's records already hold `me`; appending it keeps the invariant. -/
theorem SharesIndexed.append {pools : List Pool} {p q : Pool} (hi : SharesIndexed h me pools)
    (hc : h.pool.Created pools.length p)
    (hno : ∀ q' ∈ pools, h.pool.sharesPoolId q' = h.pool.sharesPoolId p →
      h.pool.shareRegistered q' me = false)
    (hr : h.pool.shareRegister p me = .ok q) : SharesIndexed h me (pools ++ [q]) := by
  have hid : h.pool.sharesPoolId p = pools.length.toUInt32 := hK.created hc
  have hlt : pools.length < 2 ^ 32 := by
    by_contra hge
    have hj : pools.length % 2 ^ 32 < pools.length := by omega
    have hq' := List.getElem?_eq_getElem hj
    obtain ⟨hq'id, hq'reg⟩ := hi _ _ hq'
    have hsame := UInt32.ext (hq'id.trans (congrArg UInt32.toNat hid).symm)
    rw [hno _ (List.getElem_mem hj) hsame] at hq'reg
    cases hq'reg
  intro i r hr'
  rcases getElem?_append_singleton hr' with hr' | ⟨rfl, rfl⟩
  · exact hi i r hr'
  · refine ⟨?_, hK.shareRegister hr⟩
    rw [(hK.op (.shareRegister hr)).1, hid]
    exact UInt32.toNat_ofNat_of_lt hlt

/-- Every call of the exchange `me` keeps the invariant. -/
theorem SharesIndexed.call {self self' : Contract Pool} {env : Env} {m : Method}
    {ps : List Promise} (hme : env.currentAccountId = me) (hi : SharesIndexed h me self.pools)
    (hs : self.call h env m = .ok (self', ps)) : SharesIndexed h me self'.pools := by
  obtain hr | ⟨p, q, hc, hq, he⟩ := Contract.call_pools h env hs
  · exact hi.replaces hK hr
  · obtain ⟨hno, hreg⟩ := (Contract.shareRegisterStored_eq_ok h).mp hq
    subst hme
    exact he ▸ hi.append hK hc hno hreg

/-- In every reachable exchange, each pool keeps its LP records under its own index, and
they hold the exchange. -/
theorem Reachable.sharesIndexed {w : World Pool} (hw : Reachable h me w) :
    SharesIndexed h me w.contract.pools :=
  hw.contract_invariant h me (fun c => SharesIndexed h me c.pools)
    (fun _ _ _ _ _ _ _ hp => by simp [Contract.new] at hp)
    (fun hme hi hs => hi.call hK hme hs)
    (fun hi hs => by simpa only [Contract.callAdapter_pools _ hs] using hi)

/-- Pool ids are never reused: a reachable exchange has at most `2^32` pools, the pool at
index `i` keeps its LP records under the id `i`, and no two pools share an LP prefix. -/
theorem Reachable.poolIds_distinct {w : World Pool} (hw : Reachable h me w) :
    w.contract.pools.length ≤ 2 ^ 32 ∧
      (∀ i p, w.contract.pools[i]? = some p → (h.pool.sharesPoolId p).toNat = i) ∧
      ∀ (i j : Nat) p q, w.contract.pools[i]? = some p → w.contract.pools[j]? = some q → i ≠ j →
        StorageKey.shares (h.pool.sharesPoolId p) ≠ .shares (h.pool.sharesPoolId q) := by
  have hi := hw.sharesIndexed hK
  refine ⟨?_, fun i p hp => (hi i p hp).1, fun i j p q hp hq hij he => hij ?_⟩
  · by_contra hgt
    have hp := List.getElem?_eq_getElem (by omega : 2 ^ 32 < w.contract.pools.length)
    have := (hi _ _ hp).1 ▸ UInt32.toNat_lt (h.pool.sharesPoolId _)
    omega
  · rw [← (hi i p hp).1, ← (hi j q hq).1, StorageKey.shares.inj he]

end Shares

namespace SimplePool

/-- `share_register` records its account. -/
theorem mem_shares_shareRegister {p p' : SimplePool} {a : AccountId}
    (hs : p.shareRegister a = .ok p') : a ∈ p'.shares := by
  unfold shareRegister at hs
  split at hs
  · cases hs
  · cases hs; exact AList.mem_insert _ |>.mpr (.inl rfl)

/-- No operation of a simple pool drops an LP record. -/
theorem mem_shares_of_op {p p' : SimplePool} (ho : simplePools.Op p p') {a : AccountId}
    (ha : a ∈ p.shares) : a ∈ p'.shares := by
  cases ho with
  | shareRegister hs =>
    change p.shareRegister _ = _ at hs
    unfold shareRegister at hs
    split at hs
    · cases hs
    · cases hs; exact (AList.mem_insert _).mpr (.inr ha)
  | swap hs =>
    change p.swap _ _ _ _ = _ at hs
    unfold swap at hs
    split_ifs at hs
    all_goals first
      | cases hs
      | obtain ⟨_, -, hs⟩ := Except.bind_eq_ok.mp hs
        cases hs; exact ha
  | addLiquidity hs =>
    change p.addLiquidity _ _ = _ at hs
    unfold addLiquidity at hs
    split at hs
    · dsimp only at hs
      split_ifs at hs <;> cases hs <;> exact (AList.mem_insert _).mpr (.inr ha)
    · cases hs
  | addStableLiquidity hs => nomatch hs
  | removeLiquidity hs =>
    change p.removeLiquidity _ _ _ = _ at hs
    unfold removeLiquidity at hs
    split at hs
    · dsimp only at hs
      split_ifs at hs
      all_goals cases hs
      exact (AList.mem_insert _).mpr (.inr ha)
    · cases hs
  | removeLiquidityByTokens hs => nomatch hs

end SimplePool

/-- A simple pool keeps its LP records under the id it is built with, and keeps every one
of them. -/
theorem simplePools_keepsShares : simplePools.KeepsShares where
  simplePoolNew hs := SimplePool.id_new hs
  stableSwapPoolNew hs := nomatch hs
  shareRegister hs := AList.lookup_isSome.mpr (SimplePool.mem_shares_shareRegister hs)
  op ho := ⟨congrArg Prod.fst (SimplePool.config_of_ops (.single ho)), fun _ ha =>
    AList.lookup_isSome.mpr (SimplePool.mem_shares_of_op ho (AList.lookup_isSome.mp ha))⟩

/-- In the exchange with two pools, no pool id is reused. -/
theorem poolIds_distinct_two :
    ∃ w, Reachable simpleHost "exchange" w ∧ w.contract.pools.length = 2 ∧
      w.contract.pools.length ≤ 2 ^ 32 ∧
      (∀ i p, w.contract.pools[i]? = some p → (simplePools.sharesPoolId p).toNat = i) ∧
      ∀ (i j : Nat) p q, w.contract.pools[i]? = some p → w.contract.pools[j]? = some q → i ≠ j →
        StorageKey.shares (simplePools.sharesPoolId p) ≠ .shares (simplePools.sharesPoolId q) := by
  obtain ⟨w, hw, hl⟩ := twoPools_reachable
  exact ⟨w, hw, hl, Reachable.poolIds_distinct simplePools_keepsShares hw⟩

end JumboExchange
