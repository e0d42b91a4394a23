import DexAggregator.Host

set_option autoImplicit false

/-! # Where a hop's tokens come from

`hopMessages` and `validateReceivedFromAnAllowedAddress` classify a hop independently. While hops
remain, the stored current hop is one whose messages were emitted (`Storage.Emitted`), so the
validator never falls through to the case that checks nothing. Whether it demands the party that
really hands the tokens back is a different matter: the two agree unless the hop has a Shade path
besides `redeem_denom` or `migrate_to_token` (`Hop.Mixed`). -/

namespace DexAggregator

/-! ## The hops that can be emitted -/

/-- A hop on which `hopMessages` finds every field it unwraps. -/
def Hop.emittable (hop : Hop) : Bool :=
  match hop.fromToken with
  | .native _ => hop.redeemDenom.isSome
  | .snip20 _ => hop.smartContract.isSome ||
      hop.redeemDenom.isSome && hop.shadeProtocolRouterPath.isNone && hop.migrateToToken.isNone

theorem HopMessages.emittable {hop : Hop} {amount : Uint128} {env : Env}
    {messages : List CosmosMsg} (h : HopMessages hop amount env messages) :
    hop.emittable = true := by
  cases h with
  | shade htoken _ hsmart => simp [Hop.emittable, htoken, hsmart]
  | migrate htoken _ _ hsmart => simp [Hop.emittable, htoken, hsmart]
  | redeem htoken hpath hmigrate hredeem => simp [Hop.emittable, htoken, hpath, hmigrate, hredeem]
  | swap htoken _ _ _ hsmart => simp [Hop.emittable, htoken, hsmart]
  | deposit htoken hredeem => simp [Hop.emittable, htoken, hredeem]

/-- An emittable hop has one of the three fields that the validator looks at. -/
theorem Hop.source_of_emittable {hop : Hop} (h : hop.emittable = true) :
    (hop.redeemDenom.isSome = true ∨ hop.migrateToToken.isSome = true) ∨
      hop.redeemDenom = none ∧ hop.migrateToToken = none ∧
        ∃ smartContract, hop.smartContract = some smartContract := by
  obtain ⟨fromToken, smartContract, redeemDenom, migrateToToken, path⟩ := hop
  cases redeemDenom with
  | some denom => exact .inl (.inl rfl)
  | none =>
      cases migrateToToken with
      | some token => exact .inl (.inr rfl)
      | none =>
          cases fromToken with
          | native token => cases h
          | snip20 token =>
              cases smartContract with
              | none => cases h
              | some smartContract => exact .inr ⟨rfl, rfl, smartContract, rfl⟩

/-! ## Reachable storages -/

/-- The storages that `init` and then successful calls of `handle` lead to, whoever makes them. -/
inductive Reachable : Storage → Prop
  | init {env : Env} {response : InitResponse} {storage : Storage} :
      init .empty env = .ok (response, storage) → Reachable storage
  | handle {storage storage' : Storage} {env : Env} {msg : HandleMsg} {response : HandleResponse} :
      Reachable storage → handle storage env msg = .ok (response, storage') → Reachable storage'

/-- While hops remain, the messages of the current hop have been emitted. -/
def Storage.Emitted (storage : Storage) : Prop :=
  ∀ currentHop rest, storage.routeState = some ⟨currentHop, rest⟩ → rest.hops ≠ [] →
    currentHop.emittable = true

theorem Storage.emitted_withRoute {storage : Storage} {hop : Hop} {route : Route}
    (h : route.hops ≠ [] → hop.emittable = true) : (storage.withRoute hop route).Emitted := by
  intro currentHop rest hstate hne
  cases hstate
  exact h hne

/-- The messages of a hop are emitted in the same call that makes it the current one. -/
theorem HandleStep.emitted {pre post : Storage} {env : Env} {msg : HandleMsg}
    {response : HandleResponse} (h : HandleStep pre env msg response post) (hpre : pre.Emitted) :
    post.Emitted := by
  cases h with
  | firstHop _ _ _ hmsgs => exact Storage.emitted_withRoute fun _ => hmsgs.emittable
  | hop _ _ _ _ hmsgs =>
      exact Storage.emitted_withRoute fun hne =>
        ((nextHopMessages_of_ne_nil hne).1 hmsgs).1.emittable
  | finalizeRoute =>
      intro currentHop rest hstate
      cases hstate
  | registerTokens => exact hpre
  | rescueTokens => exact hpre

theorem Reachable.emitted {storage : Storage} (h : Reachable storage) : storage.Emitted := by
  induction h with
  | init hinit =>
      cases hinit
      intro currentHop rest hstate
      cases hstate
  | handle _ hok ih => exact (handle_iff.1 hok).emitted ih

/-- A route is advanced only by an authenticated source. In a reachable storage an accepted
    `Receive` without `msg` consumes a native hop only if this contract is the sender, and a Snip20
    hop only if its token is the sender and `from` is the party that the current hop names; and
    while hops remain the current hop always names one. -/
theorem route_advanced_by_authenticated_source (storage : Storage) (hreach : Reachable storage) :
    (∀ (env : Env) (fromAddr : HumanAddr) (amount : Uint128) (response : HandleResponse)
        (storage' : Storage),
      handle storage env (.receive fromAddr none amount) = .ok (response, storage') →
      ∃ currentHop rest nextHop hops, storage.routeState = some ⟨currentHop, rest⟩ ∧
        rest.hops = nextHop :: hops ∧
        match nextHop.fromToken with
        | .native _ => env.message.sender = env.contract.address
        | .snip20 token => env.message.sender = token.address ∧
          if currentHop.redeemDenom.isSome || currentHop.migrateToToken.isSome then
            fromAddr = env.contract.address
          else ∃ smartContract, currentHop.smartContract = some smartContract ∧
            fromAddr = smartContract.address) ∧
    ∀ currentHop rest, storage.routeState = some ⟨currentHop, rest⟩ → rest.hops ≠ [] →
      currentHop.redeemDenom.isSome = true ∨ currentHop.migrateToToken.isSome = true ∨
        currentHop.smartContract.isSome = true := by
  constructor
  · intro env fromAddr amount response storage' h
    cases handle_iff.1 h with
    | @hop _ _ _ currentHop nextHop route _ _ _ hstate htoken hfrom =>
        refine ⟨currentHop, _, nextHop, route.hops, hstate, rfl, ?_⟩
        -- `nextHop` still remains, so the messages of `currentHop` have been emitted
        have hemittable : currentHop.emittable = true :=
          hreach.emitted currentHop _ hstate (List.cons_ne_nil _ _)
        cases hnext : nextHop.fromToken with
        | native token => exact (validateFrom_native hnext).1 hfrom
        | snip20 token =>
            rw [hnext] at htoken
            refine ⟨validateReceivedToken_snip20.1 htoken, ?_⟩
            rcases Hop.source_of_emittable hemittable with
              hself | ⟨hredeem, hmigrate, smartContract, hsmart⟩
            · rw [if_pos (by simpa using hself)]
              exact (validateFrom_self hnext hself).1 hfrom
            · rw [if_neg (by simp [hredeem, hmigrate])]
              exact ⟨smartContract, hsmart,
                (validateFrom_smartContract hnext hredeem hmigrate hsmart).1 hfrom⟩
  · intro currentHop rest hstate hne
    rcases Hop.source_of_emittable (hreach.emitted currentHop rest hstate hne) with
      (hredeem | hmigrate) | ⟨_, _, smartContract, hsmart⟩
    · exact .inl hredeem
    · exact .inr (.inl hmigrate)
    · exact .inr (.inr (by rw [hsmart]; rfl))

/-- The storage of the fixtures while the swap is in progress. -/
def mockSwapStorage : Storage := (mockSwapTrace.head (by decide)).post

theorem mockStorage_reachable : Reachable mockStorage :=
  @Reachable.init (mockContract.env "btn.group" []) _ _ rfl

theorem mockSwapStorage_reachable : Reachable mockSwapStorage :=
  mockStorage_reachable.handle (Event.ok (mockSwapTrace.head (by decide)))

/-- At the `Receive` of the button token that the swap of the fixtures leads to. -/
theorem route_advanced_by_authenticated_source_mockSwap :
    ∃ currentHop rest nextHop hops, mockSwapStorage.routeState = some ⟨currentHop, rest⟩ ∧
      rest.hops = nextHop :: hops ∧
      match nextHop.fromToken with
      | .native _ => mockButton.address = mockContract.address
      | .snip20 token => mockButton.address = token.address ∧
        if currentHop.redeemDenom.isSome || currentHop.migrateToToken.isSome then
          mockPairContract.address = mockContract.address
        else ∃ smartContract, currentHop.smartContract = some smartContract ∧
          mockPairContract.address = smartContract.address :=
  (route_advanced_by_authenticated_source mockSwapStorage mockSwapStorage_reachable).1
    (mockContract.env mockButton.address []) mockPairContract.address ⟨11, by decide⟩ _ _ rfl

/-! ## The builder and the validator -/

/-- The party that hands back the tokens of a hop, read off the messages that were emitted for it:
    the hop's smart contract after a Shade or a swap message, this contract after a pair of
    messages. -/
def handedBackBy (hop : Hop) (env : Env) : List CosmosMsg → Option HumanAddr
  | [.snip20 (.send _ _ (some (.swapTokensForExact _)) _) _ _ _] =>
    hop.smartContract.map SecretContract.address
  | [.snip20 (.send _ _ (some (.swap _ _)) _) _ _ _] =>
    hop.smartContract.map SecretContract.address
  | [.snip20 (.send _ _ none _) _ _ _, .snip20 (.send _ _ none _) _ _ _] =>
    some env.contract.address
  | [.execute _ _ (.deposit _ _) _, .snip20 (.send _ _ none _) _ _ _] =>
    some env.contract.address
  | [.snip20 (.redeem _ _ _) _ _ _, .execute _ _ (.handle (.receive _ none _)) _] =>
    some env.contract.address
  | _ => none

/-- `hopMessages` and `validateReceivedFromAnAllowedAddress` agree on who hands back the tokens of
    `hop` before `nextHop`. -/
def SourceAgrees (hop nextHop : Hop) (env : Env) (messages : List CosmosMsg) : Prop :=
  ∃ party, handedBackBy hop env messages = some party ∧
    ∀ fromAddr, validateReceivedFromAnAllowedAddress hop nextHop env fromAddr = .ok ()
      ↔ fromAddr = party

/-- A Snip20 hop with a Shade path and with `redeem_denom` or `migrate_to_token`: the builder looks
    at the path first, the validator at the other two. -/
def Hop.Mixed (hop : Hop) : Prop :=
  (∃ token, hop.fromToken = .snip20 token) ∧ hop.shadeProtocolRouterPath.isSome = true ∧
    (hop.redeemDenom.isSome = true ∨ hop.migrateToToken.isSome = true)

section Source

variable {hop nextHop : Hop} {amount : Uint128} {env : Env} {messages : List CosmosMsg}
  {token : SecretContract}

theorem sourceAgrees_of_self (hnext : nextHop.fromToken = .snip20 token)
    (hback : handedBackBy hop env messages = some env.contract.address)
    (hself : hop.redeemDenom.isSome = true ∨ hop.migrateToToken.isSome = true) :
    SourceAgrees hop nextHop env messages :=
  ⟨_, hback, fun _ => validateFrom_self hnext hself⟩

theorem sourceAgrees_of_smartContract {smartContract : SecretContract}
    (hnext : nextHop.fromToken = .snip20 token) (hsmart : hop.smartContract = some smartContract)
    (hback : handedBackBy hop env messages = hop.smartContract.map SecretContract.address)
    (hredeem : hop.redeemDenom = none) (hmigrate : hop.migrateToToken = none) :
    SourceAgrees hop nextHop env messages :=
  ⟨smartContract.address, by rw [hback, hsmart]; rfl,
    fun _ => validateFrom_smartContract hnext hredeem hmigrate hsmart⟩

/-- On a mixed hop the validator demands this contract while the smart contract hands back. -/
theorem sourceAgrees_of_mixed {smartContract : SecretContract}
    (hnext : nextHop.fromToken = .snip20 token) (hsmart : hop.smartContract = some smartContract)
    (hback : handedBackBy hop env messages = hop.smartContract.map SecretContract.address)
    (hself : hop.redeemDenom.isSome = true ∨ hop.migrateToToken.isSome = true) :
    SourceAgrees hop nextHop env messages ↔ smartContract.address = env.contract.address := by
  have hparty : handedBackBy hop env messages = some smartContract.address := by
    rw [hback, hsmart]
    rfl
  constructor
  · rintro ⟨party, hback', hagrees⟩
    obtain rfl : smartContract.address = party := Option.some.inj (hparty.symm.trans hback')
    exact ((validateFrom_self hnext hself).1 ((hagrees _).2 rfl))
  · intro haddr
    exact sourceAgrees_of_self hnext (haddr ▸ hparty) hself

/-- The builder and the validator agree on how a hop is executed exactly when the hop is not mixed,
    or when its smart contract is this contract itself. -/
theorem sourceAgrees_iff (hop nextHop : Hop) (amount : Uint128) (env : Env)
    (messages : List CosmosMsg) (token : SecretContract)
    (hmsgs : hopMessages hop amount env = .ok messages)
    (hnext : nextHop.fromToken = .snip20 token) :
    SourceAgrees hop nextHop env messages
      ↔ (hop.Mixed → hop.smartContract.map SecretContract.address = some env.contract.address) := by
  cases hopMessages_iff.1 hmsgs with
  | shade htoken hpath hsmart =>
      by_cases hself : hop.redeemDenom.isSome = true ∨ hop.migrateToToken.isSome = true
      · have hmixed : hop.Mixed := ⟨⟨_, htoken⟩, by rw [hpath]; rfl, hself⟩
        rw [sourceAgrees_of_mixed hnext hsmart rfl hself, hsmart]
        simp [hmixed]
      · have hnot : ¬ hop.Mixed := fun hmixed => hself hmixed.2.2
        rw [not_or] at hself
        have hredeem : hop.redeemDenom = none := by simpa using hself.1
        have hmigrate : hop.migrateToToken = none := by simpa using hself.2
        exact iff_of_true (sourceAgrees_of_smartContract hnext hsmart rfl hredeem hmigrate)
          fun hmixed => absurd hmixed hnot
  | migrate _ hpath hmigrate =>
      exact iff_of_true (sourceAgrees_of_self hnext rfl (.inr (by rw [hmigrate]; rfl)))
        fun hmixed => by simp [Hop.Mixed, hpath] at hmixed
  | redeem _ hpath _ hredeem =>
      exact iff_of_true (sourceAgrees_of_self hnext rfl (.inl (by rw [hredeem]; rfl)))
        fun hmixed => by simp [Hop.Mixed, hpath] at hmixed
  | swap _ hpath hmigrate hredeem hsmart =>
      exact iff_of_true (sourceAgrees_of_smartContract hnext hsmart rfl hredeem hmigrate)
        fun hmixed => by simp [Hop.Mixed, hpath] at hmixed
  | deposit htoken hredeem =>
      exact iff_of_true (sourceAgrees_of_self hnext rfl (.inl (by rw [hredeem]; rfl)))
        fun hmixed => by simp [Hop.Mixed, htoken] at hmixed

end Source

/-- A hop over the Shade router that has `redeem_denom` set as well. -/
def mockMixedHop : Hop :=
  ⟨.snip20 mockSscrt, some mockPairContract, some mockDenom, none,
    some [⟨mockPairContract.address, mockPairContract.contractHash⟩]⟩

/-- The last hop of the swap of the fixtures. -/
def mockButtonHop : Hop := ⟨.snip20 mockButton, none, none, none, none⟩

/-- On the mixed hop nothing that the pair contract hands back is accepted. -/
theorem not_sourceAgrees_mockMixedHop :
    ¬ ∀ (hop nextHop : Hop) (amount : Uint128) (env : Env) (messages : List CosmosMsg)
        (token : SecretContract), hopMessages hop amount env = .ok messages →
      nextHop.fromToken = .snip20 token → SourceAgrees hop nextHop env messages := by
  intro h
  have hagrees := h mockMixedHop mockButtonHop ⟨12, by decide⟩
    (mockContract.env mockSscrt.address []) _ mockButton rfl rfl
  have haddr := (sourceAgrees_of_mixed rfl rfl rfl (.inl rfl)).1 hagrees
  exact absurd haddr (by decide)

/-- The exact condition, at the hop of the swap of the fixtures, which has no Shade path. -/
theorem sourceAgrees_iff_mockSwap :
    let hop : Hop := ⟨.snip20 mockSscrt, some mockPairContract, none, none, none⟩
    SourceAgrees hop mockButtonHop (mockContract.env mockSscrt.address [])
        [sendMsg mockPairContract.address ⟨12, by decide⟩
          (some (.swap none (some mockContract.address))) none blockSize mockSscrt.contractHash
          mockSscrt.address]
      ↔ (hop.Mixed → hop.smartContract.map SecretContract.address = some mockContract.address) :=
  sourceAgrees_iff _ mockButtonHop ⟨12, by decide⟩ (mockContract.env mockSscrt.address []) _
    mockButton rfl rfl

end DexAggregator
