import JumboExchange.Correctness.Independence
import JumboExchange.Correctness.Answers

/-!
# Interleavings of trades

NEAR runs each receipt on its own: the AML contract's answers come back in any order, a
failing callback is rolled back, and calls from different accounts land in any order.
Two pending swap requests of different senders over disjoint pools, answered in either
order, leave the same requests in flight and the same exchange up to the order of the
ledger's entries; two direct `execute_actions` calls over disjoint pools commute too.
-/

namespace JumboExchange

/-- Erasing two entries of a list in either order leaves the same list. -/
theorem eraseIdx_eraseIdx_comm {α : Type} (l : List α) {i j : Nat} (hij : i < j) :
    (l.eraseIdx i).eraseIdx (j - 1) = (l.eraseIdx j).eraseIdx i := by
  refine List.ext_getElem? fun k => ?_
  simp only [List.getElem?_eraseIdx]
  split_ifs <;> first | rfl | omega

namespace Contract

variable {Pool : Type} (h : Host Pool)

/-- Two receipts running `execute_actions` on behalf of different senders, over disjoint
pools, commute, each one rolled back if it fails. -/
theorem executeActionsOrRollback_comm (env₁ env₂ : Env) (c : Contract Pool)
    {l₁ l₂ : List Action} {ref₁ ref₂ : Option AccountId} {s₁ s₂ : AccountId} (hs : s₁ ≠ s₂)
    (hd : ∀ j ∈ l₁.map Action.poolId, j ∉ l₂.map Action.poolId) :
    ((c.executeActionsOrRollback h env₂ l₂ ref₂ s₂).executeActionsOrRollback h env₁ l₁ ref₁
        s₁).LedgerEquiv
      ((c.executeActionsOrRollback h env₁ l₁ ref₁ s₁).executeActionsOrRollback h env₂ l₂ ref₂
        s₂) := by
  have hd' : ∀ j ∈ l₂.map Action.poolId, j ∉ l₁.map Action.poolId :=
    fun j h₂ h₁ => hd j h₁ h₂
  cases h₁ : c.executeActions h env₁ l₁ ref₁ s₁ with
  | ok x =>
    obtain ⟨r₁, c₁⟩ := x
    have hn : (c₁.executeActions h env₂ l₂ ref₂ s₂).map Prod.fst =
        (c.executeActions h env₂ l₂ ref₂ s₂).map Prod.fst :=
      executeActions_noninterference h env₁ env₂ hs hd h₁
    cases h₂ : c₁.executeActions h env₂ l₂ ref₂ s₂ with
    | ok y =>
      obtain ⟨r₂, c₁₂⟩ := y
      obtain ⟨c₂, c₂₁, h₂', h₁', he⟩ := executeActions_comm h env₁ env₂ hs hd h₁ h₂
      simp only [executeActionsOrRollback, h₁, h₂, h₂', h₁']
      exact he
    | error e =>
      rw [h₂] at hn
      cases h₂' : c.executeActions h env₂ l₂ ref₂ s₂ with
      | ok y => rw [h₂'] at hn; cases hn
      | error e' => simp only [executeActionsOrRollback, h₁, h₂, h₂']; exact .refl _
  | error e =>
    cases h₂ : c.executeActions h env₂ l₂ ref₂ s₂ with
    | ok y =>
      obtain ⟨r₂, c₂⟩ := y
      have hn : (c₂.executeActions h env₁ l₁ ref₁ s₁).map Prod.fst =
          (c.executeActions h env₁ l₁ ref₁ s₁).map Prod.fst :=
        executeActions_noninterference h env₂ env₁ hs.symm hd' h₂
      rw [h₁] at hn
      cases h₁' : c₂.executeActions h env₁ l₁ ref₁ s₁ with
      | ok z => rw [h₁'] at hn; cases hn
      | error e' => simp only [executeActionsOrRollback, h₁, h₂, h₁']; exact .refl _
    | error e' => simp only [executeActionsOrRollback, h₁, h₂]; exact .refl _

variable (me : AccountId)

/-- Answers to two swap requests of different senders over disjoint pools commute, whatever
the answers are. -/
theorem settle_comm (c : Contract Pool) {r₁ r₂ : AmlRequest} {a₁ a₂ : List SwapAction}
    {ref₁ ref₂ : Option AccountId} (hop₁ : r₁.operation = .swap a₁ ref₁)
    (hop₂ : r₂.operation = .swap a₂ ref₂) (hne₁ : a₁ ≠ []) (hne₂ : a₂ ≠ [])
    (hs : r₁.senderId ≠ r₂.senderId)
    (hd : ∀ p ∈ a₁.map (·.poolId), p ∉ a₂.map (·.poolId)) (res₁ res₂ : PromiseResult) :
    ((c.settle h me r₂ res₂).settle h me r₁ res₁).LedgerEquiv
      ((c.settle h me r₁ res₁).settle h me r₂ res₂) := by
  have hv₁ := amlAllows_congr (settle_settings h me c r₁ res₁)
  have hv₂ := amlAllows_congr (settle_settings h me c r₂ res₂)
  cases ha₁ : c.amlAllows res₁ with
  | false =>
    have ha₁' : (c.settle h me r₂ res₂).amlAllows res₁ = false := by rw [hv₂]; exact ha₁
    rw [settle_of_amlAllows_false h me ha₁', settle_of_amlAllows_false h me ha₁]
    exact .refl _
  | true =>
    cases ha₂ : c.amlAllows res₂ with
    | false =>
      have ha₂' : (c.settle h me r₁ res₁).amlAllows res₂ = false := by rw [hv₁]; exact ha₂
      rw [settle_of_amlAllows_false h me ha₂', settle_of_amlAllows_false h me ha₂]
      exact .refl _
    | true =>
      have ha₁' : (c.settle h me r₂ res₂).amlAllows res₁ = true := by rw [hv₂]; exact ha₁
      have ha₂' : (c.settle h me r₁ res₁).amlAllows res₂ = true := by rw [hv₁]; exact ha₂
      have hm : ∀ a : List SwapAction, (a.map Action.swap).map Action.poolId = a.map (·.poolId) :=
        fun a => by rw [List.map_map]; rfl
      rw [settle_swap h me hop₁ hne₁ ha₁', settle_swap h me hop₂ hne₂ ha₂',
        settle_swap h me hop₂ hne₂ ha₂, settle_swap h me hop₁ hne₁ ha₁]
      refine executeActionsOrRollback_comm h _ _ c hs ?_
      rw [hm, hm]
      exact hd

end Contract

section Runs

variable {Pool : Type} (h : Host Pool) (me : AccountId)

/-- Asynchronous answers commute: in every reachable world, two pending swaps of different
senders over disjoint pools, answered either way, end the same up to ledger order. -/
theorem World.answers_comm {w : World Pool} (hw : Reachable h me w) {i j : Nat} (hij : i < j)
    {r₁ r₂ : AmlRequest} (h₁ : w.inFlight[i]? = some r₁) (h₂ : w.inFlight[j]? = some r₂)
    {a₁ a₂ : List SwapAction} {ref₁ ref₂ : Option AccountId}
    (hop₁ : r₁.operation = .swap a₁ ref₁) (hop₂ : r₂.operation = .swap a₂ ref₂)
    (hs : r₁.senderId ≠ r₂.senderId) (hd : ∀ p ∈ a₁.map (·.poolId), p ∉ a₂.map (·.poolId))
    (res₁ res₂ : PromiseResult) :
    ∃ w₁₂ w₂₁, w.run h me [.answer i res₁, .answer (j - 1) res₂] = some w₁₂ ∧
      w.run h me [.answer j res₂, .answer i res₁] = some w₂₁ ∧
      w₂₁.inFlight = w₁₂.inFlight ∧ w₂₁.contract.LedgerEquiv w₁₂.contract := by
  have h₂' : (w.inFlight.eraseIdx i)[j - 1]? = some r₂ := by
    rw [List.getElem?_eraseIdx_of_ge _ _ _ (by omega), Nat.sub_add_cancel (by omega), h₂]
  have h₁' : (w.inFlight.eraseIdx j)[i]? = some r₁ := by
    rw [List.getElem?_eraseIdx_of_lt _ _ _ hij, h₁]
  have hne := hw.swapsNonempty h me
  refine ⟨⟨(w.contract.settle h me r₁ res₁).settle h me r₂ res₂,
      (w.inFlight.eraseIdx i).eraseIdx (j - 1)⟩,
    ⟨(w.contract.settle h me r₂ res₂).settle h me r₁ res₁, (w.inFlight.eraseIdx j).eraseIdx i⟩,
    ?_, ?_, (eraseIdx_eraseIdx_comm w.inFlight hij).symm,
    Contract.settle_comm h me w.contract hop₁ hop₂
      (hne r₁ (List.getElem?_mem h₁) a₁ ref₁ hop₁) (hne r₂ (List.getElem?_mem h₂) a₂ ref₂ hop₂)
      hs hd res₁ res₂⟩
  · simp only [World.run, World.next_answer_settle h me w h₁, Option.some_bind,
      World.next_answer_settle h me ⟨_, _⟩ h₂']
  · simp only [World.run, World.next_answer_settle h me w h₂, Option.some_bind,
      World.next_answer_settle h me ⟨_, _⟩ h₁']

/-- Direct trades commute: two `execute_actions` for different senders over disjoint pools
that land one after the other land in the other order too, and end the same. -/
theorem World.calls_comm {w w₁₂ : World Pool} {caller₁ caller₂ : AccountId} {d₁ d₂ : Nat}
    {l₁ l₂ : List Action} {ref₁ ref₂ : Option AccountId} {s₁ s₂ : AccountId}
    (hs : s₁ ≠ s₂) (hd : ∀ j ∈ l₁.map Action.poolId, j ∉ l₂.map Action.poolId)
    (hr : w.run h me [.call caller₁ d₁ (.executeActions l₁ ref₁ s₁),
      .call caller₂ d₂ (.executeActions l₂ ref₂ s₂)] = some w₁₂) :
    ∃ w₂₁, w.run h me [.call caller₂ d₂ (.executeActions l₂ ref₂ s₂),
        .call caller₁ d₁ (.executeActions l₁ ref₁ s₁)] = some w₂₁ ∧
      w₂₁.inFlight = w₁₂.inFlight ∧ w₂₁.contract.LedgerEquiv w₁₂.contract := by
  obtain ⟨w₁, hn₁, hr⟩ := Option.bind_eq_some.mp hr
  obtain ⟨w₂, hn₂, hr⟩ := Option.bind_eq_some.mp hr
  cases hr
  obtain ⟨hme₁, ps₁, hc₁, hf₁⟩ := World.next_eq_some h me hn₁
  obtain ⟨hme₂, ps₂, hc₂, hf₂⟩ := World.next_eq_some h me hn₂
  obtain ⟨rfl, r₁, he₁⟩ := Contract.call_eq_ok h _ hc₁
  obtain ⟨rfl, r₂, he₂⟩ := Contract.call_eq_ok h _ hc₂
  obtain ⟨c₂, c₂₁, he₂', he₁', hq⟩ := Contract.executeActions_comm h _ _ hs hd he₁ he₂
  refine ⟨⟨c₂₁, w.inFlight⟩, ?_, by rw [hf₂, hf₁]; simp only [amlRequests, List.append_nil], hq⟩
  simp only [World.run, World.next, hme₁, hme₂, if_false, Contract.call, he₂', he₁',
    Except.ok_bind, pure, Except.pure, amlRequests, List.append_nil, Option.some_bind]

end Runs

/-- Alice asks to swap in pool 0 and Bob in pool 1; the AML contract's clearing answers to
the two requests can come back in either order. -/
theorem aliceBob_answers_commute :
    ∃ w r₁ r₂, Reachable simpleHost "exchange" w ∧ w.inFlight[0]? = some r₁ ∧
      w.inFlight[1]? = some r₂ ∧ r₁.operation = .swap [⟨0, "tokA", some 10, "tokB", 0⟩] none ∧
      r₂.operation = .swap [⟨1, "tokA", some 10, "tokB", 0⟩] none ∧ r₁.senderId ≠ r₂.senderId ∧
      ∃ w₁₂ w₂₁, w.run simpleHost "exchange" [.answer 0 clearAnswer, .answer 0 clearAnswer]
          = some w₁₂ ∧
        w.run simpleHost "exchange" [.answer 1 clearAnswer, .answer 0 clearAnswer] = some w₂₁ ∧
        w₂₁.inFlight = w₁₂.inFlight ∧ w₂₁.contract.LedgerEquiv w₁₂.contract := by
  obtain ⟨w, hw⟩ := Option.isSome_iff_exists.mp (by decide :
    (freshExchange.run simpleHost "exchange" (twoPoolsRun ++
      [.call "alice" 1 (.swap [⟨0, "tokA", some 10, "tokB", 0⟩] none),
       .call "bob" 1 (.swap [⟨1, "tokA", some 10, "tokB", 0⟩] none)])).isSome = true)
  have hq : (freshExchange.run simpleHost "exchange" (twoPoolsRun ++
      [.call "alice" 1 (.swap [⟨0, "tokA", some 10, "tokB", 0⟩] none),
       .call "bob" 1 (.swap [⟨1, "tokA", some 10, "tokB", 0⟩] none)])).map
        (fun w => (w.inFlight[0]?.map fun r => (r.operation, r.senderId),
          w.inFlight[1]?.map fun r => (r.operation, r.senderId))) =
      some (some (.swap [⟨0, "tokA", some 10, "tokB", 0⟩] none, "alice"),
        some (.swap [⟨1, "tokA", some 10, "tokB", 0⟩] none, "bob")) := by
    decide
  rw [hw] at hq
  simp only [Option.map_some', Option.some.injEq, Prod.mk.injEq] at hq
  obtain ⟨r₁, h₁, hr₁⟩ := Option.map_eq_some'.mp hq.1
  obtain ⟨r₂, h₂, hr₂⟩ := Option.map_eq_some'.mp hq.2
  simp only [Prod.mk.injEq] at hr₁ hr₂
  obtain ⟨hop₁, hs₁⟩ := hr₁
  obtain ⟨hop₂, hs₂⟩ := hr₂
  have hw' := freshExchange_reachable.run simpleHost "exchange" hw
  exact ⟨w, r₁, r₂, hw', h₁, h₂, hop₁, hop₂, by rw [hs₁, hs₂]; decide,
    World.answers_comm simpleHost "exchange" hw' (by decide) h₁ h₂ hop₁ hop₂
      (by rw [hs₁, hs₂]; decide) (by decide) clearAnswer clearAnswer⟩

/-- After the second pool is funded, Alice's `execute_actions` in pool 0 and Bob's in pool
1 land in either order. -/
theorem aliceBob_calls_commute :
    ∃ w w₁₂, freshExchange.run simpleHost "exchange" twoPoolsRun = some w ∧
      w.run simpleHost "exchange"
        [.call "alice" 1 (.executeActions [.swap ⟨0, "tokA", some 10, "tokB", 0⟩] none "alice"),
         .call "bob" 1 (.executeActions [.swap ⟨1, "tokA", some 10, "tokB", 0⟩] none "bob")]
        = some w₁₂ ∧
      ∃ w₂₁, w.run simpleHost "exchange"
          [.call "bob" 1 (.executeActions [.swap ⟨1, "tokA", some 10, "tokB", 0⟩] none "bob"),
           .call "alice" 1 (.executeActions [.swap ⟨0, "tokA", some 10, "tokB", 0⟩] none "alice")]
          = some w₂₁ ∧
        w₂₁.inFlight = w₁₂.inFlight ∧ w₂₁.contract.LedgerEquiv w₁₂.contract := by
  obtain ⟨w₁₂, hx⟩ := Option.isSome_iff_exists.mp (by decide :
    ((freshExchange.run simpleHost "exchange" twoPoolsRun).bind (World.run simpleHost "exchange" ·
      [.call "alice" 1 (.executeActions [.swap ⟨0, "tokA", some 10, "tokB", 0⟩] none "alice"),
       .call "bob" 1 (.executeActions [.swap ⟨1, "tokA", some 10, "tokB", 0⟩] none "bob")])).isSome
      = true)
  obtain ⟨w, hw, hr⟩ := Option.bind_eq_some.mp hx
  exact ⟨w, w₁₂, hw, hr, World.calls_comm simpleHost "exchange" (by decide) (by decide) hr⟩

end JumboExchange
