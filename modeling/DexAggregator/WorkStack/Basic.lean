import Mathlib.Data.List.Basic
import Mathlib.Data.List.Forall2
import Mathlib.Algebra.BigOperators.Group.List.Basic
import Mathlib.Algebra.Order.Monoid.Defs
import Mathlib.Tactic.Abel

set_option autoImplicit false

/-! # Depth-first execution of a stack of work items

A machine that executes work items in order and depth-first: the item on top of the stack is
executed under a choice of the environment, and the items it produces are executed before the rest
of the stack. Nothing is assumed of the states, the items, the choices or the events.

`run` executes a list of choices; `Run` is the relation it computes (`Run.of_run`,
`Run.exists_run`). The rules below are the ones a proof about such a machine uses: a run factors
over an appended stack (`Run.split`), an event of the trace gives the step that emitted it
(`Run.exists_step`), a step invariant holds along the run (`Run.invariant`), a potential that no
step lowers is not lowered by the run (`Run.potential_le`), accounts that every step balances are
balanced by the run (`run_accounts`), a bound on what the events of a step gain is one on the run
(`Run.gain_le`), and a run is carried to a second machine step by step, by a function of the states
(`Run.simulate`) or along a relation of states and stacks (`Run.follow`, `Run.refine`). -/

namespace WorkStack

variable {σ ι χ ε : Type*}

/-- The execution of one item under one choice: `none` when the item cannot be executed, otherwise
    at most one event, the new state and the items to execute next. -/
abbrev Exec (σ ι χ ε : Type*) := σ → ι → χ → Option (Option ε × σ × List ι)

/-- Execute a list of choices, one for each item that comes to the top of the stack. Choices that
    are left over when the stack is empty make the run fail. -/
def run (exec : Exec σ ι χ ε) : σ → List ι → List χ → Option (List ε × σ × List ι)
  | s, K, [] => some ([], s, K)
  | _, [], _ :: _ => none
  | s, i :: K, x :: xs =>
    match exec s i x with
    | none => none
    | some (ev, s₁, push) =>
      match run exec s₁ (push ++ K) xs with
      | none => none
      | some (tr, s', K') => some (ev.toList ++ tr, s', K')

/-- `Run exec s K tr s' K'`: from the state `s` and the stack `K` some choices lead to the state
    `s'` and the stack `K'`, emitting the events `tr`. -/
inductive Run (exec : Exec σ ι χ ε) : σ → List ι → List ε → σ → List ι → Prop
  | refl (s : σ) (K : List ι) : Run exec s K [] s K
  | step {s s₁ s' : σ} {i : ι} {x : χ} {ev : Option ε} {push K K' : List ι} {tr : List ε} :
      exec s i x = some (ev, s₁, push) → Run exec s₁ (push ++ K) tr s' K' →
      Run exec s (i :: K) (ev.toList ++ tr) s' K'

variable {exec : Exec σ ι χ ε} {s s₁ s' : σ} {K K' L : List ι} {tr tr₁ tr₂ : List ε}

/-! ## The executable machine and the relation -/

@[simp] theorem run_nil (s : σ) (K : List ι) : run exec s K [] = some ([], s, K) := by
  cases K <;> rfl

theorem run_cons {i : ι} {x : χ} {xs : List χ} {ev : Option ε} {push : List ι}
    (h : exec s i x = some (ev, s₁, push)) :
    run exec s (i :: K) (x :: xs)
      = (run exec s₁ (push ++ K) xs).map (fun r => (ev.toList ++ r.1, r.2)) := by
  simp only [run, h]
  cases run exec s₁ (push ++ K) xs <;> rfl

/-- Running a list of choices in two parts. -/
theorem run_append (xs ys : List χ) :
    ∀ (s : σ) (K : List ι), run exec s K (xs ++ ys)
      = (run exec s K xs).bind fun r =>
          (run exec r.2.1 r.2.2 ys).map fun r' => (r.1 ++ r'.1, r'.2) := by
  induction xs with
  | nil => intro s K; simp
  | cons x xs ih =>
      intro s K
      cases K with
      | nil => simp [run]
      | cons i K =>
          cases hstep : exec s i x with
          | none => simp [run, hstep]
          | some r =>
              obtain ⟨ev, s₁, push⟩ := r
              rw [List.cons_append, run_cons hstep, run_cons hstep, ih]
              cases run exec s₁ (push ++ K) xs with
              | none => rfl
              | some r₁ => simp [Function.comp_def]

/-- The items below those being executed are not touched. -/
theorem run_frame {xs : List χ} (h : run exec s K xs = some (tr, s', K')) (L : List ι) :
    run exec s (K ++ L) xs = some (tr, s', K' ++ L) := by
  induction xs generalizing s K tr with
  | nil =>
      simp only [run_nil, Option.some.injEq, Prod.mk.injEq] at h
      obtain ⟨rfl, rfl, rfl⟩ := h
      exact run_nil _ _
  | cons x xs ih =>
      cases K with
      | nil => simp [run] at h
      | cons i K =>
          cases hstep : exec s i x with
          | none => simp [run, hstep] at h
          | some r =>
              obtain ⟨ev, s₁, push⟩ := r
              rw [run_cons hstep, Option.map_eq_some_iff] at h
              obtain ⟨⟨tr₁, s₂, K₂⟩, hrest, heq⟩ := h
              obtain ⟨rfl, rfl, rfl⟩ : ev.toList ++ tr₁ = tr ∧ s₂ = s' ∧ K₂ = K' := by
                simpa using heq
              have hframed := ih hrest
              rw [List.append_assoc] at hframed
              rw [List.cons_append, run_cons hstep, hframed]
              rfl

/-- Two stacks executed to the end one after the other. -/
theorem run_seq {xs ys : List χ} (h₁ : run exec s K xs = some (tr₁, s₁, []))
    (h₂ : run exec s₁ L ys = some (tr₂, s', K')) :
    run exec s (K ++ L) (xs ++ ys) = some (tr₁ ++ tr₂, s', K') := by
  rw [run_append, run_frame h₁ L, Option.bind_some, List.nil_append, h₂]
  rfl

/-- Choices that come to an item that cannot be executed make the run fail. -/
theorem run_blocked {i : ι} {x : χ} {xs : List χ} (h : run exec s K xs = some (tr, s₁, i :: K'))
    (hx : exec s₁ i x = none) (L : List ι) (ys : List χ) :
    run exec s (K ++ L) (xs ++ x :: ys) = none := by
  rw [run_append, run_frame h L]
  simp [run, hx]

/-- One item executed to the end, by a step and a run of what it pushes. -/
theorem run_item {i : ι} {x : χ} {xs : List χ} {ev : Option ε} {push : List ι}
    (h : exec s i x = some (ev, s₁, push)) (hpush : run exec s₁ push xs = some (tr, s', [])) :
    run exec s [i] (x :: xs) = some (ev.toList ++ tr, s', []) := by
  rw [run_cons h, List.append_nil, hpush]
  rfl

theorem Run.of_run (xs : List χ) :
    ∀ {s : σ} {K : List ι} {tr : List ε} {s' : σ} {K' : List ι},
      run exec s K xs = some (tr, s', K') → Run exec s K tr s' K' := by
  induction xs with
  | nil =>
      intro s K tr s' K' h
      simp only [run_nil, Option.some.injEq, Prod.mk.injEq] at h
      obtain ⟨rfl, rfl, rfl⟩ := h
      exact .refl s K
  | cons x xs ih =>
      intro s K tr s' K' h
      cases K with
      | nil => simp [run] at h
      | cons i K =>
          cases hstep : exec s i x with
          | none => simp [run, hstep] at h
          | some r =>
              obtain ⟨ev, s₁, push⟩ := r
              rw [run_cons hstep, Option.map_eq_some_iff] at h
              obtain ⟨⟨tr₁, s₂, K₂⟩, hrest, heq⟩ := h
              obtain ⟨rfl, rfl, rfl⟩ : ev.toList ++ tr₁ = tr ∧ s₂ = s' ∧ K₂ = K' := by
                simpa using heq
              exact .step hstep (ih hrest)

/-- Every run is computed under some choices. -/
theorem Run.exists_run (h : Run exec s K tr s' K') : ∃ xs, run exec s K xs = some (tr, s', K') := by
  induction h with
  | refl s K => exact ⟨[], run_nil s K⟩
  | @step s s₁ s' i x ev push K K' tr hstep _ ih =>
      obtain ⟨xs, hxs⟩ := ih
      exact ⟨x :: xs, by rw [run_cons hstep, hxs]; rfl⟩

/-! ## Composing and splitting runs -/

/-- A single step, as a run of its item alone. -/
theorem Run.single {i : ι} {x : χ} {ev : Option ε} {push : List ι}
    (h : exec s i x = some (ev, s₁, push)) : Run exec s [i] ev.toList s₁ push := by
  have hone : Run exec s [i] (ev.toList ++ []) s₁ (push ++ []) := .step h (.refl s₁ (push ++ []))
  simpa using hone

theorem Run.trans (h₁ : Run exec s K tr₁ s₁ L) (h₂ : Run exec s₁ L tr₂ s' K') :
    Run exec s K (tr₁ ++ tr₂) s' K' := by
  induction h₁ with
  | refl => simpa using h₂
  | step hstep _ ih =>
      rw [List.append_assoc]
      exact .step hstep (ih h₂)

/-- The items below those being executed are not touched. -/
theorem Run.frame (h : Run exec s K tr s' K') (L : List ι) :
    Run exec s (K ++ L) tr s' (K' ++ L) := by
  induction h with
  | refl => exact .refl _ _
  | step hstep _ ih =>
      rw [List.append_assoc] at ih
      exact .step hstep ih

/-- Two stacks executed to the end one after the other. -/
theorem Run.append (h₁ : Run exec s K tr₁ s₁ []) (h₂ : Run exec s₁ L tr₂ s' K') :
    Run exec s (K ++ L) (tr₁ ++ tr₂) s' K' :=
  (h₁.frame L).trans h₂

/-- A run that empties the stack `L ++ K` first executes `L` to the end, and then `K`. -/
theorem Run.split (h : Run exec s (L ++ K) tr s' []) :
    ∃ s₁ tr₁ tr₂, Run exec s L tr₁ s₁ [] ∧ Run exec s₁ K tr₂ s' [] ∧ tr = tr₁ ++ tr₂ := by
  generalize hM : L ++ K = M at h
  generalize hN : ([] : List ι) = N at h
  induction h generalizing L with
  | refl s M =>
      subst hN
      obtain ⟨rfl, rfl⟩ := List.append_eq_nil_iff.1 hM
      exact ⟨s, [], [], .refl s [], .refl s [], rfl⟩
  | @step s s₁ s' i x ev push M K' tr hstep hrun ih =>
      -- the first half is over when nothing of `L` is left
      cases L with
      | nil =>
          simp only [List.nil_append] at hM
          subst hM hN
          exact ⟨s, [], ev.toList ++ tr, .refl s [], .step hstep hrun, rfl⟩
      | cons j L =>
          obtain ⟨rfl, rfl⟩ := List.cons_eq_cons.1 (by simpa using hM)
          obtain ⟨s₂, tr₁, tr₂, h₁, h₂, rfl⟩ := ih (List.append_assoc push L K) hN
          exact ⟨s₂, ev.toList ++ tr₁, tr₂, .step hstep h₁, h₂, (List.append_assoc ..).symm⟩

/-- An event of the trace was emitted by a step of the run. -/
theorem Run.exists_step {e : ε} (h : Run exec s K (tr₁ ++ e :: tr₂) s' K') :
    ∃ s₁ i K₁ x s₂ push, Run exec s K tr₁ s₁ (i :: K₁) ∧
      exec s₁ i x = some (some e, s₂, push) ∧ Run exec s₂ (push ++ K₁) tr₂ s' K' := by
  generalize htr : tr₁ ++ e :: tr₂ = tr at h
  induction h generalizing tr₁ with
  | refl => simp at htr
  | @step s s₁ s' i x ev push K K' tr hstep hrun ih =>
      cases ev with
      | none =>
          obtain ⟨s₂, j, K₁, y, s₃, push₂, h₁, hs, h₂⟩ := ih (by simpa using htr)
          exact ⟨s₂, j, K₁, y, s₃, push₂, by simpa using Run.step hstep h₁, hs, h₂⟩
      | some e' =>
          -- this step emits `e` exactly when no event precedes `e` in the trace
          cases tr₁ with
          | nil =>
              obtain ⟨rfl, rfl⟩ : e = e' ∧ tr₂ = tr := by simpa using htr
              exact ⟨s, i, K, x, s₁, push, .refl s _, hstep, hrun⟩
          | cons e₁ tr₁ =>
              obtain ⟨rfl, htail⟩ : e₁ = e' ∧ tr₁ ++ e :: tr₂ = tr := by simpa using htr
              obtain ⟨s₂, j, K₁, y, s₃, push₂, h₁, hs, h₂⟩ := ih htail
              exact ⟨s₂, j, K₁, y, s₃, push₂, by simpa using Run.step hstep h₁, hs, h₂⟩

/-! ## Invariants and potentials -/

/-- A property of state and stack that every step preserves, given what is known of the events,
    holds at the end of the run. -/
theorem Run.invariant (P : σ → List ι → Prop) (Q : ε → Prop) (h : Run exec s K tr s' K')
    (hstep : ∀ {s i x ev s₁ push K}, exec s i x = some (ev, s₁, push) → (∀ e ∈ ev, Q e) →
      P s (i :: K) → P s₁ (push ++ K))
    (hQ : ∀ e ∈ tr, Q e) (hP : P s K) : P s' K' := by
  induction h with
  | refl => exact hP
  | step hs _ ih =>
      simp only [List.mem_append, Option.mem_toList] at hQ
      exact ih (fun e he => hQ e (.inr he)) (hstep hs (fun e he => hQ e (.inl he)) hP)

section Potential

variable {M : Type*} [AddCommMonoid M]

/-- The potential of a state and a stack: the value of the state plus the weights of the items. -/
def potential (v : σ → M) (w : ι → M) (s : σ) (K : List ι) : M :=
  v s + (K.map w).sum

variable {v : σ → M} {w : ι → M}

@[simp] theorem potential_nil (s : σ) : potential v w s [] = v s := by
  simp [potential]

theorem potential_append (s : σ) (K L : List ι) :
    potential v w s (K ++ L) = potential v w s K + (L.map w).sum := by
  simp [potential, add_assoc]

theorem potential_cons (s : σ) (i : ι) (K : List ι) :
    potential v w s (i :: K) = v s + w i + (K.map w).sum := by
  simp [potential, add_assoc]

/-- A potential that no step lowers is not lowered by a run. -/
theorem Run.potential_le [PartialOrder M] [IsOrderedAddMonoid M] (h : Run exec s K tr s' K')
    (hstep : ∀ {s i x ev s₁ push}, exec s i x = some (ev, s₁, push) →
      v s + w i ≤ potential v w s₁ push) :
    potential v w s K ≤ potential v w s' K' := by
  induction h with
  | refl => exact le_rfl
  | @step s s₁ s' i x ev push K K' tr hs _ ih =>
      calc potential v w s (i :: K) = v s + w i + (K.map w).sum := potential_cons s i K
        _ ≤ potential v w s₁ push + (K.map w).sum := add_le_add_left (hstep hs) _
        _ = potential v w s₁ (push ++ K) := (potential_append s₁ push K).symm
        _ ≤ potential v w s' K' := ih

end Potential

/-! ## Accounts -/

/-- When in every step the event gains, and the items pushed weigh, no more than the item executed
    weighs and the event costs, the same holds of a run. -/
theorem Run.gain_le {M : Type*} [AddCommMonoid M] [PartialOrder M] [IsOrderedAddMonoid M]
    (h : Run exec s K tr s' K') (w : ι → M) (gain cost : ε → M)
    (hstep : ∀ {s i x ev s₁ push}, exec s i x = some (ev, s₁, push) →
      (ev.toList.map gain).sum + (push.map w).sum ≤ w i + (ev.toList.map cost).sum) :
    (tr.map gain).sum + (K'.map w).sum ≤ (K.map w).sum + (tr.map cost).sum := by
  induction h with
  | refl => simp
  | @step s s₁ s' i x ev push K K' tr hs _ ih =>
      simp only [List.map_append, List.sum_append, List.map_cons, List.sum_cons] at ih ⊢
      calc _ = (ev.toList.map gain).sum + ((tr.map gain).sum + (K'.map w).sum) := by abel
        _ ≤ (ev.toList.map gain).sum
            + ((push.map w).sum + (K.map w).sum + (tr.map cost).sum) := add_le_add_right ih _
        _ = (ev.toList.map gain).sum + (push.map w).sum
            + ((K.map w).sum + (tr.map cost).sum) := by abel
        _ ≤ w i + (ev.toList.map cost).sum
            + ((K.map w).sum + (tr.map cost).sum) := add_le_add_left (hstep hs) _
        _ = _ := by abel

section Accounts

variable {M : Type*} [AddCancelCommMonoid M] {v : σ → M} {w : ι → M} {given : χ → M}
  {gain cost : ε → M}

/-- When every step balances what a choice gives and an event gains against what the event costs,
    the value of the state and the weights of the items, so does a run. -/
theorem run_accounts {xs : List χ}
    (hstep : ∀ {s i x ev s₁ push}, exec s i x = some (ev, s₁, push) →
      v s + (push.map w).sum + given x + (ev.toList.map gain).sum
        = v s₁ + w i + (ev.toList.map cost).sum)
    (h : run exec s K xs = some (tr, s', K')) :
    v s + (K'.map w).sum + (xs.map given).sum + (tr.map gain).sum
      = v s' + (K.map w).sum + (tr.map cost).sum := by
  induction xs generalizing s K tr with
  | nil =>
      simp only [run_nil, Option.some.injEq, Prod.mk.injEq] at h
      obtain ⟨rfl, rfl, rfl⟩ := h
      simp
  | cons x xs ih =>
      cases K with
      | nil => simp [run] at h
      | cons i K =>
          cases hs : exec s i x with
          | none => simp [run, hs] at h
          | some r =>
              obtain ⟨ev, s₁, push⟩ := r
              rw [run_cons hs, Option.map_eq_some_iff] at h
              obtain ⟨⟨tr₁, s₂, K₂⟩, hrest, heq⟩ := h
              obtain ⟨rfl, rfl, rfl⟩ : ev.toList ++ tr₁ = tr ∧ s₂ = s' ∧ K₂ = K' := by
                simpa using heq
              have hone := hstep hs
              have hmore := ih hrest
              simp only [List.map_append, List.sum_append, List.map_cons, List.sum_cons] at hmore ⊢
              -- what the step leaves behind is what the rest of the run starts from
              refine add_right_cancel (b := v s₁ + (push.map w).sum) ?_
              calc _ = (v s + (push.map w).sum + given x + (ev.toList.map gain).sum)
                    + (v s₁ + (K₂.map w).sum + (xs.map given).sum + (tr₁.map gain).sum) := by abel
                _ = (v s₁ + w i + (ev.toList.map cost).sum)
                    + (v s₂ + ((push.map w).sum + (K.map w).sum) + (tr₁.map cost).sum) := by
                  rw [hone, hmore]
                _ = _ := by abel

end Accounts

/-! ## Simulation -/

/-- If every step of a machine is a run of a second one over the mapped state, so is every run. -/
theorem Run.simulate {σ' χ' ε' : Type*} {exec' : Exec σ' ι χ' ε'} {f : σ → σ'} {g : ε → ε'}
    (h : Run exec s K tr s' K')
    (hstep : ∀ {s i x ev s₁ push}, exec s i x = some (ev, s₁, push) →
      Run exec' (f s) [i] (ev.map g).toList (f s₁) push) :
    Run exec' (f s) K (tr.map g) (f s') K' := by
  induction h with
  | refl => exact .refl _ _
  | @step s s₁ s' i x ev push K K' tr hs _ ih =>
      have hone := (hstep hs).frame K
      have hev : (ev.toList ++ tr).map g = (ev.map g).toList ++ tr.map g := by
        cases ev <;> simp
      rw [hev]
      exact hone.trans ih

section Refinement

variable {σ' ι' χ' ε' : Type*} (exec' : Exec σ' ι' χ' ε')

/-- A second machine answers a run when it answers every step of it with steps of its own, up to a
    relation `R` between the states and stacks of the two. How their traces are related is up to
    `E`, which goes along with joining traces. -/
theorem Run.answer (E : List ε → List ε' → Prop) (hnil : E [] [])
    (happend : ∀ {a b c d}, E a c → E b d → E (a ++ b) (c ++ d))
    (R : σ → List ι → σ' → List ι' → Prop) (h : Run exec s K tr s' K')
    (hstep : ∀ {s i x ev s₁ push K t M}, exec s i x = some (ev, s₁, push) → R s (i :: K) t M →
      ∃ tr₁ t₁ M₁, Run exec' t M tr₁ t₁ M₁ ∧ E ev.toList tr₁ ∧ R s₁ (push ++ K) t₁ M₁)
    {t : σ'} {M : List ι'} (hR : R s K t M) :
    ∃ tr' t' M', Run exec' t M tr' t' M' ∧ E tr tr' ∧ R s' K' t' M' := by
  induction h generalizing t M with
  | refl => exact ⟨[], t, M, .refl t M, hnil, hR⟩
  | step hs _ ih =>
      obtain ⟨tr₁, t₁, M₁, hone, hE, hR₁⟩ := hstep hs hR
      obtain ⟨tr₂, t', M', hrest, hE', hR'⟩ := ih hR₁
      exact ⟨tr₁ ++ tr₂, t', M', hone.trans hrest, happend hE hE', hR'⟩

/-- A second machine follows a run when it follows every step of it; `g` says which of its events
    it emits for an event of the first. -/
theorem Run.follow (g : ε → Option ε') (R : σ → List ι → σ' → List ι' → Prop)
    (h : Run exec s K tr s' K')
    (hstep : ∀ {s i x ev s₁ push K t M}, exec s i x = some (ev, s₁, push) → R s (i :: K) t M →
      ∃ t₁ M₁, Run exec' t M (ev.bind g).toList t₁ M₁ ∧ R s₁ (push ++ K) t₁ M₁)
    {t : σ'} {M : List ι'} (hR : R s K t M) :
    ∃ t' M', Run exec' t M (tr.filterMap g) t' M' ∧ R s' K' t' M' := by
  have hev : ∀ ev : Option ε, ev.toList.filterMap g = (ev.bind g).toList := by
    intro ev
    cases ev with
    | none => rfl
    | some e => cases hg : g e <;> simp [hg]
  obtain ⟨_, t', M', hrun, rfl, hR'⟩ := h.answer exec' (fun a c => c = a.filterMap g) rfl
    (fun ha hb => by rw [ha, hb, List.filterMap_append]) R
    (fun hs hR => by
      obtain ⟨t₁, M₁, hone, hR₁⟩ := hstep hs hR
      exact ⟨_, t₁, M₁, hone, (hev _).symm, hR₁⟩) hR
  exact ⟨t', M', hrun, hR'⟩

/-- A second machine refines a run when it answers every step of it with related events. -/
theorem Run.refine (E : ε → ε' → Prop) (R : σ → List ι → σ' → List ι' → Prop)
    (h : Run exec s K tr s' K')
    (hstep : ∀ {s i x ev s₁ push K t M}, exec s i x = some (ev, s₁, push) → R s (i :: K) t M →
      ∃ tr₁ t₁ M₁, Run exec' t M tr₁ t₁ M₁ ∧ List.Forall₂ E ev.toList tr₁ ∧ R s₁ (push ++ K) t₁ M₁)
    (t : σ') (M : List ι') (hR : R s K t M) :
    ∃ tr' t' M', Run exec' t M tr' t' M' ∧ List.Forall₂ E tr tr' ∧ R s' K' t' M' :=
  h.answer exec' (List.Forall₂ E) .nil (fun ha hb => List.rel_append ha hb) R hstep hR

end Refinement

end WorkStack
