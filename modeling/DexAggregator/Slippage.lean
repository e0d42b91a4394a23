import DexAggregator.WellFormed

set_option autoImplicit false

/-! # The minimum acceptable amount

The last call of `handleHop` compares the minimum with what it received, then diverts whatever
exceeds the estimate to the admin, and pays the rest to the user. So the user is paid the minimum
exactly when the estimate of the route is not below it. -/

namespace DexAggregator

/-- The payout to the receiver, after the excess has been diverted, is at least the minimum. Only
    the payout counts: when the receiver is the admin, the excess goes to the same address in a
    message of its own. -/
def Route.PaysMinimum (route : Route) (response : HandleResponse) : Prop :=
  ∃ paid, lastPayment? response.messages = some (route.to, paid) ∧
    route.minimumAcceptableAmount.u128 ≤ paid.u128

variable {route : Route} {storage storage' : Storage} {currentHop lastHop : Hop} {rest : Route}

/-- The route that remains at the last hop has the amounts and the receiver of the whole route. -/
theorem Route.Lifetime.rest_eq (hlife : route.Lifetime storage)
    (hstate : storage.routeState = some ⟨currentHop, rest⟩) :
    rest = { route with hops := rest.hops } := by
  obtain ⟨i, hat⟩ := hlife.stateAt
  obtain ⟨_, hrest⟩ := Route.stateAt_eq_some.1 (hat.symm.trans hstate)
  rw [hrest]

/-- What an accepted last hop has emitted. -/
theorem handleHop_lastHopMessages {env : Env} {fromAddr : HumanAddr} {amount : Uint128}
    {response : HandleResponse} (hstate : storage.routeState = some ⟨currentHop, rest⟩)
    (hlast : rest.hops = [lastHop])
    (h : handle storage env (.receive fromAddr none amount) = .ok (response, storage')) :
    ∃ config, LastHopMessages config env currentHop lastHop amount { rest with hops := [] }
      response.messages response.log := by
  cases handle_iff.1 h with
  | @hop _ _ config currentHop' nextHop route' messages logs _ hstate' _ _ hmsgs =>
      obtain ⟨rfl, hrest⟩ : currentHop' = currentHop ∧
          { route' with hops := nextHop :: route'.hops } = rest := by
        simpa using hstate'.symm.trans hstate
      subst hrest
      obtain ⟨rfl, hnil⟩ : nextHop = lastHop ∧ route'.hops = [] := by simpa using hlast
      have hmsgs := (nextHopMessages_of_nil hnil).1 hmsgs
      rw [← hnil]
      exact ⟨config, hmsgs⟩

/-- At the last hop less than the minimum is refused, and of anything else the user is paid at least
    the minimum if and only if the estimate of the route is at least the minimum. -/
theorem paysMinimum_iff (route : Route) (storage : Storage) (hlife : route.Lifetime storage)
    (currentHop lastHop : Hop) (rest : Route)
    (hstate : storage.routeState = some ⟨currentHop, rest⟩) (hlast : rest.hops = [lastHop])
    (env : Env) (fromAddr : HumanAddr) (amount : Uint128) :
    (amount.u128 < route.minimumAcceptableAmount.u128 →
      ∃ abort, handle storage env (.receive fromAddr none amount) = .error abort) ∧
    ∀ response storage',
      handle storage env (.receive fromAddr none amount) = .ok (response, storage') →
      (route.PaysMinimum response ↔
        route.minimumAcceptableAmount.u128 ≤ route.estimatedAmount.u128) := by
  have hrest := hlife.rest_eq hstate
  constructor
  · intro hlt
    cases hcall : handle storage env (.receive fromAddr none amount) with
    | error abort => exact ⟨abort, rfl⟩
    | ok result =>
        obtain ⟨_, hmsgs⟩ := handleHop_lastHopMessages hstate hlast hcall
        have hmin := hmsgs.minimumAcceptableAmount_le
        rw [hrest] at hmin
        exact absurd hlt (Nat.not_lt.2 hmin)
  · intro response storage' hcall
    obtain ⟨_, hmsgs⟩ := handleHop_lastHopMessages hstate hlast hcall
    -- the user is paid the smaller of what was received and the estimate
    obtain ⟨paid, hpaid, hmineq⟩ := hmsgs.lastPayment
    have hmin := hmsgs.minimumAcceptableAmount_le
    rw [hrest] at hpaid hmineq hmin
    have hmineq : paid.u128 = min amount.u128 route.estimatedAmount.u128 := hmineq
    have hmin : route.minimumAcceptableAmount.u128 ≤ amount.u128 := hmin
    constructor
    · rintro ⟨paid', hpaid', hle⟩
      obtain rfl : paid = paid' := (Prod.mk.inj (Option.some.inj (hpaid.symm.trans hpaid'))).2
      omega
    · intro hest
      exact ⟨paid, hpaid, by omega⟩

/-- At the second call of the swap of the fixtures: the minimum is 5 and the estimate 10. -/
theorem paysMinimum_iff_mockSwap :
    mockSwapRoute.PaysMinimum (mockSwapTrace.get ⟨1, by decide⟩).response :=
  ((paysMinimum_iff mockSwapRoute mockSwapStorage mockSwapStorage_lifetime _ _ _ rfl rfl
    (mockContract.env mockButton.address []) mockPairContract.address ⟨11, by decide⟩).2 _ _
    (Event.ok (mockSwapTrace.get ⟨1, by decide⟩))).2 (by decide)

/-- The swap of the fixtures with a minimum of 1000 and an estimate of 500. -/
def mockShortRoute : Route :=
  { mockSwapRoute with estimatedAmount := ⟨500, by decide⟩,
                       minimumAcceptableAmount := ⟨1000, by decide⟩ }

/-- Of 1200 received, the user is paid 500, which is below the minimum of 1000. -/
theorem not_paysMinimum_mockShortRoute :
    ¬ ∀ (route : Route) (storage : Storage), route.Lifetime storage →
      ∀ (currentHop lastHop : Hop) (rest : Route),
      storage.routeState = some ⟨currentHop, rest⟩ → rest.hops = [lastHop] →
      ∀ (env : Env) (fromAddr : HumanAddr) (amount : Uint128) (response : HandleResponse)
        (storage' : Storage),
      handle storage env (.receive fromAddr none amount) = .ok (response, storage') →
      route.PaysMinimum response := by
  intro h
  have hfirst : mockShortRoute.Lifetime (mockStorage.withRoute _ _) :=
    @Route.Lifetime.firstHop _ _ _ (mockContract.env mockSscrt.address []) mockUserAddress
      ⟨12, by decide⟩ _ mockStorage_reachable rfl
  obtain ⟨paid, hpaid, hle⟩ := h mockShortRoute _ hfirst _ _ _ rfl rfl
    (mockContract.env mockButton.address []) mockPairContract.address ⟨1200, by decide⟩ _ _ rfl
  obtain rfl : (⟨500, by decide⟩ : Uint128) = paid :=
    (Prod.mk.inj (Option.some.inj hpaid)).2
  exact absurd hle (by decide)

end DexAggregator
