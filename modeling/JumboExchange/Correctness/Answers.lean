import JumboExchange.Correctness.AmlPath
import JumboExchange.Correctness.Governance

/-!
# What an AML answer does

NEAR runs the callback of an AML request as a receipt of its own, and rolls it back when
it fails. So an answer always steps the world: it removes its request, sends no new one,
and leaves the exchange its callback settles on. An answer that does not allow the
operation changes nothing, and no answer changes a setting. Answering every request in
flight, whatever the answers, drains them all: no request is ever stuck.
-/

namespace JumboExchange

namespace Contract

variable {Pool : Type} (h : Host Pool)

/-- The exchange after a receipt running `execute_actions`: the state the call leaves, or
the exchange as it was when the call fails, since NEAR rolls a failed receipt back. -/
def executeActionsOrRollback (c : Contract Pool) (env : Env) (actions : List Action)
    (referralId : Option AccountId) (senderId : AccountId) : Contract Pool :=
  match c.executeActions h env actions referralId senderId with
  | .ok (_, c') => c'
  | .error _ => c

variable (me : AccountId)

/-- The exchange after the answer `result` to the request `r`: what the callback leaves, or
the exchange as it was when the callback fails, since NEAR rolls a failed receipt back. -/
def settle (c : Contract Pool) (r : AmlRequest) (result : PromiseResult) : Contract Pool :=
  match c.call h (Env.ofCallback me r result) (.callbackAmlOperation r.operation r.senderId) with
  | .ok (c', _) => c'
  | .error _ => c

/-- Whether the answer lets the callback run the operation: it parses, and its category is
`None` or its risk one the exchange accepts. -/
def amlAllows (c : Contract Pool) : PromiseResult → Bool
  | .successful (some (category, risk)) => c.isAmlAllowed category risk
  | _ => false

/-- The verdict reads of the exchange only the accepted risk score. -/
theorem amlAllows_congr {c d : Contract Pool} (hs : d.settings = c.settings) :
    d.amlAllows = c.amlAllows := by
  have hr : d.acceptedRiskScore = c.acceptedRiskScore := congrArg Settings.acceptedRiskScore hs
  funext result
  cases result with
  | successful v =>
    cases v with
    | some p => simp only [amlAllows, isAmlAllowed, hr]
    | none => rfl
  | _ => rfl

/-- An answer changes no setting. -/
theorem settle_settings (c : Contract Pool) (r : AmlRequest) (result : PromiseResult) :
    (c.settle h me r result).settings = c.settings := by
  unfold settle
  cases hc : c.call h (Env.ofCallback me r result)
      (.callbackAmlOperation r.operation r.senderId) with
  | error => rfl
  | ok x =>
    obtain ⟨_, _, -, -, ho⟩ := callbackAmlOperation_eq_ok h _ (call_eq_ok h _ hc).2
    exact ho.settings_eq h _

/-- An answer that does not allow the operation leaves the exchange as it was. -/
theorem settle_of_amlAllows_false {c : Contract Pool} {r : AmlRequest}
    {result : PromiseResult} (ha : c.amlAllows result = false) : c.settle h me r result = c := by
  unfold settle
  cases result with
  | successful v =>
    cases v with
    | some p =>
      simp only [amlAllows] at ha
      simp [call, callbackAmlOperation, amlOperation, require, Env.ofCallback, ha]
    | none => simp [call, callbackAmlOperation, require, Env.ofCallback]
  | _ => simp [call, callbackAmlOperation, require, Env.ofCallback]

/-- An answer that allows a swap request runs the requester's `execute_actions`, rolled
back if it fails. -/
theorem settle_swap {c : Contract Pool} {r : AmlRequest} {actions : List SwapAction}
    {referralId : Option AccountId} (hop : r.operation = .swap actions referralId)
    (hne : actions ≠ []) {result : PromiseResult} (ha : c.amlAllows result = true) :
    c.settle h me r result = c.executeActionsOrRollback h (Env.ofCall me r.senderId
      r.attachedDeposit) (actions.map .swap) referralId r.senderId := by
  obtain ⟨category, risk, rfl⟩ : ∃ category risk, result = .successful (some (category, risk)) := by
    cases result with
    | successful v =>
      cases v with
      | some p => exact ⟨p.1, p.2, rfl⟩
      | none => cases ha
    | _ => cases ha
  rw [settle, call_callback_swap h me c r hop hne ha]
  simp only [call, executeActionsOrRollback]
  cases c.executeActions h (Env.ofCall me r.senderId r.attachedDeposit) (actions.map .swap)
    referralId r.senderId <;> rfl

end Contract

section Runs

variable {Pool : Type} (h : Host Pool) (me : AccountId)

/-- An answer to a pending request removes it and leaves the exchange its callback settles
on. -/
theorem World.next_answer_settle (w : World Pool) {i : Nat} {r : AmlRequest}
    (hi : w.inFlight[i]? = some r) (result : PromiseResult) :
    w.next h me (.answer i result) =
      some ⟨w.contract.settle h me r result, w.inFlight.eraseIdx i⟩ := by
  simp only [World.next, hi, Contract.settle]
  cases hc : w.contract.call h (Env.ofCallback me r result)
      (.callbackAmlOperation r.operation r.senderId) with
  | error => rfl
  | ok x =>
    obtain ⟨_, _, -, -, ho⟩ :=
      Contract.callbackAmlOperation_eq_ok h _ (Contract.call_eq_ok h _ hc).2
    simp only [ho.amlRequests_eq_nil h _, List.append_nil]

/-- Liveness of the AML protocol: from any world, answering the requests in flight front
first, with any answers, drains them all, settling the exchange one answer at a time. -/
theorem World.run_drain (w : World Pool) (results : List PromiseResult)
    (hl : results.length = w.inFlight.length) :
    w.run h me (results.map (.answer 0)) =
      some ⟨(w.inFlight.zip results).foldl (fun c x => c.settle h me x.1 x.2) w.contract, []⟩ := by
  obtain ⟨c, inFlight⟩ := w
  induction inFlight generalizing c results with
  | nil => cases results with
    | nil => rfl
    | cons => cases hl
  | cons r rest ih =>
    cases results with
    | nil => cases hl
    | cons result results =>
      simp only [List.map_cons, World.run, World.next_answer_settle h me ⟨c, r :: rest⟩
        List.getElem?_cons_zero, List.eraseIdx_cons_zero, Option.some_bind,
        List.zip_cons_cons, List.foldl_cons]
      exact ih _ _ (by simpa using hl)

end Runs

/-- Alice's request to add liquidity, the one request in flight after her run, is drained by
the clearing answer. -/
theorem aliceRequest_drains :
    ∃ w, freshExchange.run simpleHost "exchange" aliceRequestRun = some w ∧
      [clearAnswer].length = w.inFlight.length ∧
      w.run simpleHost "exchange" ([clearAnswer].map (.answer 0)) =
        some ⟨(w.inFlight.zip [clearAnswer]).foldl
          (fun c x => c.settle simpleHost "exchange" x.1 x.2) w.contract, []⟩ := by
  obtain ⟨w, hw⟩ := Option.isSome_iff_exists.mp
    (by decide : (freshExchange.run simpleHost "exchange" aliceRequestRun).isSome = true)
  have hl : (freshExchange.run simpleHost "exchange" aliceRequestRun).map (·.inFlight.length)
      = some 1 := by decide
  rw [hw] at hl
  have hl' : [clearAnswer].length = w.inFlight.length := (Option.some.inj hl).symm
  exact ⟨w, hw, hl', World.run_drain simpleHost "exchange" w [clearAnswer] hl'⟩

end JumboExchange
