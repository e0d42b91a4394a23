import DexAggregator.WorkStack.Basic
import DexAggregator.HandleStep

set_option autoImplicit false

/-! # The host

The messages of a response are executed in order and depth-first, with this contract as sender. A
message to this contract is handled by `handle`; a SNIP-20 message on this contract's own address
does not decode; a message to any other contract leads to any finite sequence of calls of `handle`
by other senders. Any error or panic reverts the whole transaction.

The host is a `WorkStack` machine. Its items are the queued messages and `Item.outside`, which
stands for code outside this contract that is running; the choices say what that code does. -/

namespace DexAggregator

open WorkStack (Run run)

/-- This contract, as the host knows it. -/
structure Contract where
  address : HumanAddr
  codeHash : String
deriving DecidableEq

/-- The environment of a call of this contract. -/
def Contract.env (self : Contract) (sender : HumanAddr) (sentFunds : List Coin) : Env :=
  ⟨⟨sender, sentFunds⟩, ⟨self.address⟩, self.codeHash⟩

/-- A successful call of `handle`. -/
structure Event where
  pre : Storage
  env : Env
  msg : HandleMsg
  response : HandleResponse
  post : Storage
  ok : handle pre env msg = .ok (response, post)

/-- What is waiting to be executed. -/
inductive Item where
  | msg (message : CosmosMsg)
  | outside
deriving DecidableEq

/-- What the environment chooses for the item on top: to go on, which for `Item.outside` means that
    the outside code returns, or to call `handle`. -/
inductive Choice where
  | proceed
  | call (sender : HumanAddr) (sentFunds : List Coin) (msg : HandleMsg)
deriving DecidableEq

/-- The contract a message is executed on, if any. -/
def CosmosMsg.contractAddr? : CosmosMsg → Option HumanAddr
  | .execute contractAddr _ _ _ => some contractAddr
  | .bankSend _ _ _ => none
  | .snip20 _ _ _ contractAddr => some contractAddr

/-- The items a call queues. -/
def Event.items (e : Event) : List Item := e.response.messages.map .msg

/-- Call `handle`; `none` when it returns an error or panics. -/
def callHandle (storage : Storage) (env : Env) (msg : HandleMsg) : Option Event :=
  match h : handle storage env msg with
  | .ok (response, post) => some ⟨storage, env, msg, response, post, h⟩
  | .error _ => none

/-- Execute a queued message. -/
def deliver (self : Contract) (storage : Storage) :
    CosmosMsg → Option (Option Event × Storage × List Item)
  | .bankSend _ _ _ => some (none, storage, [])
  | .snip20 _ _ _ contractAddr =>
    if contractAddr = self.address then none else some (none, storage, [.outside])
  | .execute contractAddr _ (.deposit _ _) _ =>
    if contractAddr = self.address then none else some (none, storage, [.outside])
  | .execute contractAddr _ (.handle msg) send =>
    if contractAddr = self.address then
      (callHandle storage (self.env self.address send) msg).map fun e => (some e, e.post, e.items)
    else some (none, storage, [.outside])

/-- Execute the item on top of the stack. -/
def exec (self : Contract) : WorkStack.Exec Storage Item Choice Event
  | storage, .msg message, .proceed => deliver self storage message
  | _, .msg _, .call _ _ _ => none
  | storage, .outside, .proceed => some (none, storage, [])
  | storage, .outside, .call sender sentFunds msg =>
    if sender = self.address then none
    else (callHandle storage (self.env sender sentFunds) msg).map fun e =>
      (some e, e.post, e.items ++ [.outside])

/-- A transaction: outside calls, executed until nothing is left to do. `none` when it is
    reverted. -/
def runTransaction (self : Contract) (storage : Storage) (choices : List Choice) :
    Option (List Event × Storage) :=
  match run (exec self) storage [.outside] choices with
  | some (trace, storage', []) => some (trace, storage')
  | _ => none

/-- The storage after a transaction, which is unchanged when the transaction is reverted. -/
def transact (self : Contract) (storage : Storage) (choices : List Choice) : Storage :=
  match runTransaction self storage choices with
  | some (_, storage') => storage'
  | none => storage

/-- The storage after a sequence of transactions. -/
def transactAll (self : Contract) (storage : Storage) (transactions : List (List Choice)) :
    Storage :=
  transactions.foldl (transact self) storage

/-! ## What a step of the host can do -/

@[simp] theorem Contract.env_sentFunds (self : Contract) (sender : HumanAddr)
    (funds : List Coin) : (self.env sender funds).message.sentFunds = funds := rfl

@[simp] theorem Contract.env_address (self : Contract) (sender : HumanAddr) (funds : List Coin) :
    (self.env sender funds).contract.address = self.address := rfl

theorem Event.step (e : Event) : HandleStep e.pre e.env e.msg e.response e.post :=
  handle_iff.1 e.ok

theorem callHandle_eq_some {storage : Storage} {env : Env} {msg : HandleMsg} {e : Event} :
    callHandle storage env msg = some e ↔ e.pre = storage ∧ e.env = env ∧ e.msg = msg := by
  constructor
  · intro h
    unfold callHandle at h
    split at h
    · cases h
      exact ⟨rfl, rfl, rfl⟩
    · cases h
  · rintro ⟨rfl, rfl, rfl⟩
    unfold callHandle
    split
    · next response post h =>
        obtain ⟨pre, env, msg, response', post', ok⟩ := e
        simp only at h
        cases ok.symm.trans h
        rfl
    · next h => cases e.ok.symm.trans h

/-- The steps of `exec`. -/
inductive ExecStep (self : Contract) (storage : Storage) :
    Item → Option Event → Storage → List Item → Prop
  | returns : ExecStep self storage .outside none storage []
  | bankSend (fromAddress toAddress : HumanAddr) (amount : List Coin) :
      ExecStep self storage (.msg (.bankSend fromAddress toAddress amount)) none storage []
  | external {message : CosmosMsg} {contractAddr : HumanAddr} :
      message.contractAddr? = some contractAddr → contractAddr ≠ self.address →
      ExecStep self storage (.msg message) none storage [.outside]
  | outsideCall {e : Event} {sender : HumanAddr} {sentFunds : List Coin} :
      e.pre = storage → sender ≠ self.address → e.env = self.env sender sentFunds →
      ExecStep self storage .outside (some e) e.post (e.items ++ [.outside])
  | selfCall {e : Event} {callbackCodeHash : String} {send : List Coin} :
      e.pre = storage → e.env = self.env self.address send →
      ExecStep self storage (.msg (.execute self.address callbackCodeHash (.handle e.msg) send))
        (some e) e.post e.items

theorem exec_step {self : Contract} {storage storage' : Storage} {item : Item} {choice : Choice}
    {ev : Option Event} {push : List Item}
    (h : exec self storage item choice = some (ev, storage', push)) :
    ExecStep self storage item ev storage' push := by
  match item, choice, h with
  | .outside, .proceed, h =>
      cases h
      exact .returns
  | .outside, .call sender sentFunds msg, h =>
      simp only [exec] at h
      split at h
      · cases h
      · next hsender =>
          obtain ⟨e, he, heq⟩ := Option.map_eq_some_iff.1 h
          obtain ⟨hpre, henv, rfl⟩ := callHandle_eq_some.1 he
          cases heq
          exact .outsideCall hpre hsender henv
  | .msg (.bankSend a b c), .proceed, h =>
      cases h
      exact .bankSend a b c
  | .msg (.snip20 _ _ _ contractAddr), .proceed, h =>
      simp only [exec, deliver] at h
      split at h
      · cases h
      · next hself =>
          cases h
          exact .external rfl hself
  | .msg (.execute contractAddr _ (.deposit _ _) _), .proceed, h =>
      simp only [exec, deliver] at h
      split at h
      · cases h
      · next hself =>
          cases h
          exact .external rfl hself
  | .msg (.execute contractAddr _ (.handle msg) send), .proceed, h =>
      simp only [exec, deliver] at h
      split at h
      · next hself =>
          obtain ⟨e, he, heq⟩ := Option.map_eq_some_iff.1 h
          obtain ⟨hpre, henv, rfl⟩ := callHandle_eq_some.1 he
          cases heq
          subst hself
          exact .selfCall hpre henv
      · next hself =>
          cases h
          exact .external rfl hself

/-- A message to another contract hands control to outside code. -/
theorem exec_external {self : Contract} {message : CosmosMsg} {contractAddr : HumanAddr}
    (haddr : message.contractAddr? = some contractAddr) (hne : contractAddr ≠ self.address)
    (storage : Storage) :
    exec self storage (.msg message) .proceed = some (none, storage, [.outside]) := by
  match message, haddr with
  | .snip20 _ _ _ _, rfl => simp [exec, deliver, hne]
  | .execute _ _ (.deposit _ _) _, rfl => simp [exec, deliver, hne]
  | .execute _ _ (.handle _) _, rfl => simp [exec, deliver, hne]

theorem exec_outsideCall {self : Contract} {e : Event} {sender : HumanAddr}
    {sentFunds : List Coin} (henv : e.env = self.env sender sentFunds)
    (hsender : sender ≠ self.address) :
    exec self e.pre .outside (.call sender sentFunds e.msg)
      = some (some e, e.post, e.items ++ [.outside]) := by
  simp [exec, hsender, callHandle_eq_some.2 ⟨rfl, henv, rfl⟩]

theorem exec_selfCall {self : Contract} {e : Event} {sentFunds : List Coin}
    (henv : e.env = self.env self.address sentFunds) (callbackCodeHash : String) :
    exec self e.pre (.msg (.execute self.address callbackCodeHash (.handle e.msg) sentFunds))
      .proceed = some (some e, e.post, e.items) := by
  simp [exec, deliver, callHandle_eq_some.2 ⟨rfl, henv, rfl⟩]

/-- The storage goes from one call of a trace to the next. -/
def Threads : Storage → List Event → Storage → Prop
  | storage, [], storage' => storage = storage'
  | storage, e :: trace, storage' => e.pre = storage ∧ Threads e.post trace storage'

/-- Nothing but a call of `handle` changes the storage. -/
theorem run_threads {self : Contract} {storage storage' : Storage} {K K' : List Item}
    {trace : List Event} (h : Run (exec self) storage K trace storage' K') :
    Threads storage trace storage' := by
  induction h with
  | refl => rfl
  | step hstep _ ih =>
      cases exec_step hstep with
      | returns => exact ih
      | bankSend => exact ih
      | external => exact ih
      | outsideCall hpre => exact ⟨hpre, ih⟩
      | selfCall hpre => exact ⟨hpre, ih⟩

/-- A property of the storage that every call of the trace preserves holds at its end. -/
theorem Threads.invariant {storage storage' : Storage} {trace : List Event}
    (h : Threads storage trace storage') (P : Storage → Prop)
    (hcall : ∀ e ∈ trace, P e.pre → P e.post) (hP : P storage) : P storage' := by
  induction trace generalizing storage with
  | nil => exact h ▸ hP
  | cons e trace ih =>
      obtain ⟨rfl, h⟩ := h
      exact ih h (fun e' he' => hcall e' (List.mem_cons_of_mem e he'))
        (hcall e List.mem_cons_self hP)

theorem Threads.split {storage storage' : Storage} {before after : List Event} {e : Event}
    (h : Threads storage (before ++ e :: after) storage') :
    Threads storage before e.pre ∧ Threads e.post after storage' := by
  induction before generalizing storage with
  | nil => exact ⟨h.1.symm, h.2⟩
  | cons d before ih => exact ⟨⟨h.1, (ih h.2).1⟩, (ih h.2).2⟩

/-- The state and the stack around a call of a run. -/
theorem exec_call {self : Contract} {storage storage' : Storage} {item : Item} {choice : Choice}
    {e : Event} {push : List Item}
    (h : exec self storage item choice = some (some e, storage', push)) :
    e.pre = storage ∧ e.post = storage' ∧ e.env.contract.address = self.address ∧
      ∃ rest, push = e.items ++ rest := by
  cases exec_step h with
  | outsideCall hpre _ henv => exact ⟨hpre, rfl, by simp [henv], _, rfl⟩
  | selfCall hpre henv => exact ⟨hpre, rfl, by simp [henv], [], (List.append_nil _).symm⟩

theorem runTransaction_eq_some {self : Contract} {storage storage' : Storage}
    {choices : List Choice} {trace : List Event} :
    runTransaction self storage choices = some (trace, storage')
      ↔ run (exec self) storage [.outside] choices = some (trace, storage', []) := by
  unfold runTransaction
  split
  · next h => simp [h]
  · next h =>
      simp only [reduceCtorEq, false_iff]
      exact h trace storage'

/-! ## Fixtures

The fixtures of the tests of `contract.rs`, and a transaction that swaps sSCRT for the button
token through the pair contract. -/

def mockContract : Contract := ⟨"cosmos2contract", ""⟩

def mockUserAddress : HumanAddr := "gary"

def mockSscrt : SecretContract := ⟨"mock-sscrt-address", "mock-sscrt-contract-hash"⟩

def mockButton : SecretContract := ⟨"mock-button-address", "mock-button-contract-hash"⟩

def mockPairContract : SecretContract := ⟨"pair-contract-address", "pair-contract-contract-hash"⟩

def mockDenom : String := "uatom"

/-- The storage after `init` by the contract's initiator. -/
def mockStorage : Storage := ⟨some ⟨"btn.group"⟩, none⟩

/-- sSCRT to button through the pair contract. -/
def mockSwapRoute : Route :=
  ⟨[⟨.snip20 mockSscrt, some mockPairContract, none, none, none⟩,
    ⟨.snip20 mockButton, none, none, none, none⟩], ⟨10, by decide⟩, ⟨5, by decide⟩,
    mockUserAddress⟩

/-- The user sends 12 sSCRT with the route, the pair sends 11 button back, and every other contract
    returns without calling. -/
def mockSwapChoices : List Choice :=
  [.call mockSscrt.address [] (.receive mockUserAddress (some (.route mockSwapRoute))
      ⟨12, by decide⟩),
    .proceed,
    .call mockButton.address [] (.receive mockPairContract.address none ⟨11, by decide⟩),
    .proceed, .proceed, .proceed, .proceed, .proceed, .proceed, .proceed]

/-- The calls of that transaction. -/
def mockSwapTrace : List Event :=
  ((runTransaction mockContract mockStorage mockSwapChoices).get (by decide)).1

example : (runTransaction mockContract mockStorage mockSwapChoices).map
    (fun r => (r.1.length, r.2)) = some (3, mockStorage) := by decide

end DexAggregator
