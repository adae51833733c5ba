import JumboExchange.Correctness.Governance
import JumboExchange.Correctness.Callbacks

/-!
# A paused exchange

While paused, `lib.rs` refuses every public method but `add_stable_swap_pool`, open to the
owner and the guardians in any state, and the AML callback; the adapters refuse all but
the switch of the running state. So along a run without the owner and the guardians only
AML answers step a paused exchange: the requests in flight drain, and the contract changes
only by using up a request to add liquidity, the one path with no running check.
-/

namespace JumboExchange

/-- The requests to add liquidity still waiting for their answer. -/
def World.pendingLiquidity {Pool : Type} (w : World Pool) : Nat :=
  w.inFlight.countP (·.operation.addsLiquidity)

/-- Erasing an entry that `p` accepts lowers the count of `p` by one. -/
theorem countP_eraseIdx_add_one {α : Type} (p : α → Bool) :
    ∀ {l : List α} {i : Nat} {a : α}, l[i]? = some a → p a = true →
      (l.eraseIdx i).countP p + 1 = l.countP p
  | [], _, _, hi, _ => by cases hi
  | b :: l, 0, a, hi, hp => by
    obtain rfl : b = a := Option.some.inj (by simpa using hi)
    simp [List.countP_cons_of_pos _ _ hp]
  | b :: l, i + 1, a, hi, hp => by
    have ih := countP_eraseIdx_add_one p (by simpa using hi : l[i]? = some a) hp
    simp only [List.eraseIdx_cons_succ, List.countP_cons]
    omega

namespace Contract

variable {Pool : Type} (h : Host Pool) (env : Env)

/-- The callback runs a swap only while running: outside it, the operation it ran adds
liquidity. -/
theorem RanOperation.running_or_addsLiquidity {self self' : Contract Pool}
    {operation : AmlOperation} {senderId : AccountId} {ps : List Promise}
    (ho : self.RanOperation h env self' operation senderId ps) :
    self.state = .running ∨ operation.addsLiquidity = true := by
  cases operation with
  | swap =>
    obtain ⟨-, _, hu⟩ := ho
    obtain ⟨_, he, -⟩ := internalSwapUnchecked_eq_ok h env hu
    exact .inl (executeActions_eq_ok h env he).1
  | addLiquidity | addStableLiquidity => exact .inr rfl

/-- Outside the running state a call succeeds only for the owner or a guardian, or for the
exchange itself. -/
theorem call_running {self self' : Contract Pool} {m : Method} {ps : List Promise}
    (hs : self.call h env m = .ok (self', ps)) :
    self.state = .running ∨ self.isOwnerOrGuardians env = true ∨
      env.predecessorAccountId = env.currentAccountId := by
  have hm := call_eq_ok h env hs
  cases m with
  | addSimplePool =>
    obtain ⟨_, ha⟩ := hm
    exact .inl (addSimplePool_eq_ok h env ha).1
  | addStableSwapPool =>
    obtain ⟨_, ha⟩ := hm
    exact .inr (.inl (addStableSwapPool_eq_ok h env ha).1)
  | executeActions =>
    obtain ⟨-, _, he⟩ := hm
    exact .inl (executeActions_eq_ok h env he).1
  | callbackAmlOperation => exact .inr (.inr hm.1)
  | updateAmlAccountId | updateAcceptedRiskScore | swap | addLiquidity | addStableLiquidity =>
    exact .inl hm.1
  | removeLiquidity => exact .inl (removeLiquidity_eq_ok h env hm.2).2.1
  | removeLiquidityByTokens =>
    obtain ⟨_, he⟩ := hm.2
    exact .inl (removeLiquidityByTokens_eq_ok h env he).2.1

/-- Outside the running state an adapter call succeeds only for the owner or a guardian. -/
theorem callAdapter_running {self c : Contract Pool} {m : AdapterMethod}
    (hs : self.callAdapter env m = .ok c) :
    self.state = .running ∨ self.isOwnerOrGuardians env = true := by
  have hm := callAdapter_eq_ok env hs
  cases m with
  | storageDeposit | registerTokens | ledgerDeposit | ledgerWithdraw => exact .inl hm.1
  | changeState => exact .inr hm.1

end Contract

section Runs

variable {Pool : Type} (h : Host Pool) (me : AccountId)

/-- While paused, an event of neither the owner nor a guardian is an AML answer: it consumes
its request, keeps the settings, and changes the contract only for a liquidity request. -/
theorem World.next_paused {w w' : World Pool} {e : Event} (hp : w.contract.state = .paused)
    (hn : w.next h me e = some w')
    (hg : ∀ caller ∈ e.caller, caller ≠ w.contract.ownerId ∧ caller ∉ w.contract.guardians) :
    ∃ i result r, e = .answer i result ∧ w.inFlight[i]? = some r ∧
      w'.inFlight = w.inFlight.eraseIdx i ∧ w'.contract.settings = w.contract.settings ∧
      (w'.contract = w.contract ∨ r.operation.addsLiquidity = true) := by
  have hnr : w.contract.state ≠ .running := by rw [hp]; decide
  have hng : ∀ caller ∈ e.caller,
      ¬(caller = w.contract.ownerId ∨ caller ∈ w.contract.guardians) :=
    fun caller hc => not_or_intro (hg caller hc).1 (hg caller hc).2
  have hs := World.next_eq_some h me hn
  cases e with
  | call caller deposit m =>
    obtain ⟨hme, ps, hc, -⟩ := hs
    rcases Contract.call_running h _ hc with hr | ho | hself
    · exact absurd hr hnr
    · exact absurd ((Contract.isOwnerOrGuardians_eq_true _).mp ho) (hng caller rfl)
    · exact absurd hself hme
  | adapter caller deposit m =>
    obtain ⟨-, hc, -⟩ := hs
    rcases Contract.callAdapter_running _ hc with hr | ho
    · exact absurd hr hnr
    · exact absurd ((Contract.isOwnerOrGuardians_eq_true _).mp ho) (hng caller rfl)
  | answer i result =>
    obtain ⟨r, hr, ⟨ps, hc, hf⟩ | ⟨-, rfl⟩⟩ := hs
    · obtain ⟨_, _, -, -, ho⟩ :=
        Contract.callbackAmlOperation_eq_ok h _ (Contract.call_eq_ok h _ hc).2
      refine ⟨i, result, r, rfl, hr, ?_, ho.settings_eq h _,
        .inr ((ho.running_or_addsLiquidity h _).resolve_left hnr)⟩
      rw [hf, ho.amlRequests_eq_nil h _, List.append_nil]
    · exact ⟨i, result, r, rfl, hr, rfl, rfl, .inl rfl⟩

/-- While paused, along a run without the owner and the guardians, every event is an AML
answer, the requests drain, and the contract changes only by using up liquidity requests. -/
theorem World.run_paused {w w' : World Pool} {es : List Event}
    (hp : w.contract.state = .paused) (hr : w.run h me es = some w')
    (hg : ∀ e ∈ es, ∀ caller ∈ e.caller,
      caller ≠ w.contract.ownerId ∧ caller ∉ w.contract.guardians) :
    (∀ e ∈ es, ∃ i result, e = .answer i result) ∧ w'.contract.state = .paused ∧
      w'.inFlight.Sublist w.inFlight ∧
      (w'.contract = w.contract ∨ w'.pendingLiquidity < w.pendingLiquidity) := by
  induction es generalizing w with
  | nil => cases hr; exact ⟨fun _ he => (by cases he), hp, .refl _, .inl rfl⟩
  | cons e es ih =>
    obtain ⟨w₁, hn, hr₁⟩ := Option.bind_eq_some.mp hr
    obtain ⟨i, result, r, rfl, hi, hf, hs, hc⟩ :=
      World.next_paused h me hp hn (hg _ (List.mem_cons_self _ _))
    have ho : w₁.contract.ownerId = w.contract.ownerId := congrArg Settings.ownerId hs
    have hgs : w₁.contract.guardians = w.contract.guardians := congrArg Settings.guardians hs
    obtain ⟨ha, hp', hsub, hc'⟩ := ih ((congrArg Settings.state hs).trans hp) hr₁
      fun e he caller hcaller => by
        rw [ho, hgs]
        exact hg e (List.mem_cons_of_mem _ he) caller hcaller
    have hsub₁ : w₁.inFlight.Sublist w.inFlight := hf ▸ List.eraseIdx_sublist _ _
    have hc₁ : w₁.contract = w.contract ∨ w₁.pendingLiquidity < w.pendingLiquidity := by
      refine hc.imp_right fun hl => ?_
      have := countP_eraseIdx_add_one (·.operation.addsLiquidity) hi hl
      simp only [World.pendingLiquidity, hf]
      omega
    have hle : w'.pendingLiquidity ≤ w₁.pendingLiquidity := hsub.countP_le _
    have hle₁ : w₁.pendingLiquidity ≤ w.pendingLiquidity := hsub₁.countP_le _
    refine ⟨fun e he => ?_, hp', hsub.trans hsub₁, ?_⟩
    · rcases List.mem_cons.mp he with rfl | he
      · exact ⟨i, result, rfl⟩
      · exact ha e he
    · rcases hc' with hc' | hlt
      · exact hc₁.imp (hc'.trans ·) (lt_of_le_of_lt hle ·)
      · exact .inr (lt_of_lt_of_le hlt hle₁)

end Runs

/-- The owner pauses with Alice's liquidity request in flight; the AML answer is then the
only kind of event that steps the exchange, and it uses up that request. -/
theorem pausedRun_answer :
    ∃ w w', freshExchange.run simpleHost "exchange"
        (aliceRequestRun ++ [.adapter "owner" 0 (.changeState .paused)]) = some w ∧
      w.run simpleHost "exchange" [.answer 0 clearAnswer] = some w' ∧
      w'.contract.state = .paused ∧ w'.inFlight.Sublist w.inFlight ∧
      (w'.contract = w.contract ∨ w'.pendingLiquidity < w.pendingLiquidity) := by
  obtain ⟨w', hw'⟩ := Option.isSome_iff_exists.mp (by decide :
    ((freshExchange.run simpleHost "exchange"
      (aliceRequestRun ++ [.adapter "owner" 0 (.changeState .paused)])).bind
        (World.run simpleHost "exchange" · [.answer 0 clearAnswer])).isSome = true)
  obtain ⟨w, hw, hr⟩ := Option.bind_eq_some.mp hw'
  have hp : (freshExchange.run simpleHost "exchange"
      (aliceRequestRun ++ [.adapter "owner" 0 (.changeState .paused)])).map
        (·.contract.state) = some .paused := by decide
  rw [hw] at hp
  obtain ⟨-, hs, hi, hc⟩ := World.run_paused simpleHost "exchange" (Option.some.inj hp) hr
    (by simp [Event.caller])
  exact ⟨w, w', hw, hr, hs, hi, hc⟩

end JumboExchange
