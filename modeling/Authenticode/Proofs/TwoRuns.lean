import Authenticode.Proofs.Steps

/-!
# Two runs side by side

A step that is run from two states related to each other has related outcomes when it
gives the same value or fails in the same way, and leaves related states. Sequences of
such steps are again of this kind, the values that both runs go on with being the same.
-/
namespace Authenticode.Step

universe u

variable {ε σ α β : Type u} {P P' : σ → σ → Prop} {Q Q' : α → σ → σ → Prop}
  {R : β → σ → σ → Prop} {E E' : σ → σ → Prop} {x y : EStateM ε σ α} {f g : α → EStateM ε σ β}

/-- Two outcomes with one value and states related by `Q`, or with one error and states related by
`E`. -/
def Alike (Q : α → σ → σ → Prop) (E : σ → σ → Prop) (r r' : EStateM.Result ε σ α) : Prop :=
  (∃ a s t, r = .ok a s ∧ r' = .ok a t ∧ Q a s t) ∨ ∃ e s t, r = .error e s ∧ r' = .error e t ∧ E s t

theorem alike_ok {a : α} {s t : σ} (h : Q a s t) :
    Alike (ε := ε) Q E (.ok a s) (.ok a t) := .inl ⟨a, s, t, rfl, rfl, h⟩

theorem alike_error {e : ε} {s t : σ} (h : E s t) : Alike Q E (.error e s) (.error e t) :=
  .inr ⟨e, s, t, rfl, rfl, h⟩

/-- What a step gives, apart from the state. -/
def outcome : EStateM.Result ε σ α → Except ε α
  | .ok a _ => .ok a
  | .error e _ => .error e

/-- The outcomes themselves are equal, and the states are related in one of the two ways. -/
theorem Alike.outcome_eq {r r' : EStateM.Result ε σ α} (h : Alike Q E r r') :
    outcome r = outcome r' ∧ ((∃ a, Q a (stateOf r) (stateOf r')) ∨ E (stateOf r) (stateOf r')) := by
  rcases h with ⟨a, s, t, rfl, rfl, hQ⟩ | ⟨e, s, t, rfl, rfl, hE⟩
  · exact ⟨rfl, .inl ⟨a, hQ⟩⟩
  · exact ⟨rfl, .inr hE⟩

/-- From states related by `P`, the two steps have outcomes that are alike. -/
def Paired (P : σ → σ → Prop) (x y : EStateM ε σ α) (Q : α → σ → σ → Prop) (E : σ → σ → Prop) :
    Prop :=
  ∀ s t, P s t → Alike Q E (x s) (y t)

/-- A step that neither looks at the state nor changes it. -/
def Stateless (x : EStateM ε σ α) : Prop := (∃ a, x = pure a) ∨ ∃ e, x = throw e

theorem stateless_ofExcept (r : Except ε α) : Stateless (ofExcept r : EStateM ε σ α) := by
  cases r with
  | error e => exact .inr ⟨e, rfl⟩
  | ok a => exact .inl ⟨a, rfl⟩

namespace Paired

theorem bind (hx : Paired P x y Q E) (hf : ∀ a, Paired (Q a) (f a) (g a) R E) :
    Paired P (x >>= f) (y >>= g) R E := by
  intro s t h
  rcases hx s t h with ⟨a, s', t', hs, ht, hQ⟩ | ⟨e, s', t', hs, ht, hE⟩
  · rw [bind_of_ok hs, bind_of_ok ht]
    exact hf a s' t' hQ
  · rw [bind_of_error hs, bind_of_error ht]
    exact alike_error hE

theorem mono (h : Paired P x y Q E) (hP : ∀ s t, P' s t → P s t) (hQ : ∀ a s t, Q a s t → Q' a s t)
    (hE : ∀ s t, E s t → E' s t) : Paired P' x y Q' E' := by
  intro s t hst
  rcases h s t (hP s t hst) with ⟨a, s', t', hs, ht, hok⟩ | ⟨e, s', t', hs, ht, herror⟩
  · exact .inl ⟨a, s', t', hs, ht, hQ a s' t' hok⟩
  · exact .inr ⟨e, s', t', hs, ht, hE s' t' herror⟩

theorem pure (a : α) (h : ∀ s t, P s t → Q a s t) :
    Paired P (pure a : EStateM ε σ α) (Pure.pure a) Q E :=
  fun s t hst => alike_ok (h s t hst)

theorem throw (e : ε) (h : ∀ s t, P s t → E s t) :
    Paired P (throw e : EStateM ε σ α) (MonadExcept.throw e) Q E :=
  fun s t hst => alike_error (h s t hst)

theorem modify {f g : σ → σ} {Q : PUnit → σ → σ → Prop}
    (h : ∀ s t, P s t → Q ⟨⟩ (f s) (g t)) :
    Paired P (modify f : EStateM ε σ PUnit) (modifyThe σ g) Q E :=
  fun s t hst => alike_ok (h s t hst)

theorem get_bind {f g : σ → EStateM ε σ β}
    (h : ∀ s t, P s t → Paired (fun s' t' => s' = s ∧ t' = t) (f s) (g t) R E) :
    Paired P (get >>= f) (get >>= g) R E :=
  fun s t hst => h s t hst s t ⟨rfl, rfl⟩

theorem stateless (hx : Stateless x) (hE : ∀ s t, P s t → E s t) :
    Paired P x x (fun _ => P) E := by
  rcases hx with ⟨a, rfl⟩ | ⟨e, rfl⟩
  · exact .pure a fun _ _ h => h
  · exact .throw e hE

theorem ite {c : Prop} [Decidable c] {x' y' : EStateM ε σ α} (h : Paired P x y Q E)
    (h' : Paired P x' y' Q E) :
    Paired P (if c then x else x') (if c then y else y') Q E := by
  split
  · exact h
  · exact h'

theorem discard (h : Paired P x y Q E) :
    Paired P (discard x : EStateM ε σ PUnit) (Functor.discard y) (fun _ s t => ∃ a, Q a s t) E := by
  intro s t hst
  rcases h s t hst with ⟨a, s', t', hs, ht, hQ⟩ | ⟨e, s', t', hs, ht, hE⟩
  · rw [discard_of_ok hs, discard_of_ok ht]
    exact alike_ok ⟨a, hQ⟩
  · rw [discard_of_error hs, discard_of_error ht]
    exact alike_error hE

end Paired

end Authenticode.Step
