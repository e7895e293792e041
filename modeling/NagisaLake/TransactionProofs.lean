import Mathlib.Data.List.Forall2

/-! # Transactions — what succeeds is committed, what fails is rolled back

A transaction on a state is a computation that may fail; its result is the
new state and an answer.  `commit` is the state afterwards: the new one, or
the old one when the computation failed.  An invariant therefore only has
to be shown of the successful results (`inv_commit`), and a successful
result is taken apart bind by bind (`bind_eq_ok`).

A service answers one call after another from a state of its own.  Two
services whose states stay related call by call cannot be told apart by
their answers (`answers_related`). -/

namespace Transactions

open List

variable {ε α β S : Type}

variable {x : Except ε α}

/-- A sequence succeeds when both parts do. -/
theorem bind_eq_ok {f : α → Except ε β} {b : β} (h : x.bind f = .ok b) :
    ∃ a, x = .ok a ∧ f a = .ok b := by
  cases x with
  | error e => cases h
  | ok a => exact ⟨a, rfl, h⟩

/-- A check succeeds when its condition holds. -/
theorem check_eq_ok {p : Prop} [Decidable p] {e : ε} {a : α}
    (h : (if p then .error e else x) = .ok a) : ¬ p ∧ x = .ok a := by
  by_cases hp : p
  · rw [if_pos hp] at h
    cases h
  · rw [if_neg hp] at h
    exact ⟨hp, h⟩

/-- Renaming an error does not make a success. -/
theorem mapError_eq_ok {δ : Type} {f : ε → δ} {a : α} (h : x.mapError f = .ok a) : x = .ok a := by
  cases x with
  | error e => cases h
  | ok b => exact congrArg Except.ok (Except.ok.inj h)

/-- A mapped success is one of the original. -/
theorem map_eq_ok {f : α → β} {b : β} (h : x.map f = .ok b) : ∃ a, x = .ok a ∧ f a = b := by
  cases x with
  | error e => cases h
  | ok a => exact ⟨a, rfl, Except.ok.inj h⟩

/-- A computation that succeeds on every element succeeds on the list. -/
theorem mapM_eq_ok {f : α → Except ε β} : ∀ {l : List α}, (∀ a ∈ l, ∃ b, f a = .ok b) →
      l.mapM f = .ok (l.filterMap fun a => (f a).toOption) := by
  intro l
  induction l with
  | nil => exact fun _ => rfl
  | cons a l ih =>
    intro h
    obtain ⟨b, hb⟩ := h a mem_cons_self
    have hrest := ih fun c hc => h c (mem_cons_of_mem _ hc)
    rw [mapM_cons, hb, hrest, filterMap_cons, hb]
    rfl

/-- The state after a transaction. -/
def commit (s : S) : Except ε (S × α) → S
  | .ok (t, _) => t
  | .error _ => s

/-- What every successful result keeps, the transaction keeps. -/
theorem inv_commit {I : S → Prop} {s : S} {x : Except ε (S × α)} (hs : I s)
    (h : ∀ t a, x = .ok (t, a) → I t) : I (commit s x) := by
  cases x with
  | error e => exact hs
  | ok r => exact h r.1 r.2 rfl

/-- The same of a statement that may match no row. -/
theorem inv_getD {I : S → Prop} {s : S} {x : Option S} (hs : I s) (h : ∀ t, x = some t → I t) :
    I (x.getD s) := by
  cases x with
  | none => exact hs
  | some t => exact h t rfl

/-! ## Services -/

variable {T Req Res Res' : Type}

/-- The answers a service gives to one request after another. -/
def answers (call : S → Req → Res × S) : S → List Req → List Res
  | _, [] => []
  | s, request :: requests =>
    (call s request).1 :: answers call (call s request).2 requests

/-- **SIMULATION**: two services whose states stay related, call by call, give
    related answers to every sequence of requests. -/
theorem answers_related {callS : S → Req → Res × S}
    {callT : T → Req → Res' × T} {ok : Req → Prop} {R : S → T → Prop}
    {Same : Res → Res' → Prop}
    (hcall : ∀ s t request, ok request → R s t → Same (callS s request).1 (callT t request).1
        ∧ R (callS s request).2 (callT t request).2) :
    ∀ (requests : List Req) (s : S) (t : T), (∀ r ∈ requests, ok r) → R s t →
      List.Forall₂ Same (answers callS s requests) (answers callT t requests) := by
  intro requests
  induction requests with
  | nil => exact fun _ _ _ _ => List.Forall₂.nil
  | cons request requests ih =>
    intro s t hok hR
    obtain ⟨hsame, hnext⟩ :=
      hcall s t request (hok request mem_cons_self) hR
    refine List.Forall₂.cons hsame (ih _ _ ?_ hnext)
    exact fun r hr => hok r (mem_cons_of_mem _ hr)

end Transactions
