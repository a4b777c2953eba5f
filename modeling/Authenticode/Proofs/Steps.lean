import Mathlib.Tactic

/-!
# Steps that may fail

A step takes a state to a value and a new state, or to a failure and the state it
left behind. A sequence of steps succeeds exactly when each of them does, and a
property of the state that every step keeps, also where it fails, is kept by the
whole sequence.
-/
namespace Authenticode

universe u

variable {ε σ α β : Type u}

theorem guard_eq_some_iff {p : Prop} [Decidable p] {u : Unit} :
    (guard p : Option Unit) = some u ↔ p := by
  by_cases h : p
  · simp [guard, h]
  · simp [guard, h]

theorem Except.bind_eq_ok_iff {x : Except ε α} {f : α → Except ε β} {b : β} :
    x >>= f = .ok b ↔ ∃ a, x = .ok a ∧ f a = .ok b := by
  cases x with
  | error e => exact ⟨nofun, fun ⟨_, h, _⟩ => nomatch h⟩
  | ok a => exact ⟨fun h => ⟨a, rfl, h⟩, fun ⟨_, h, h'⟩ => by cases h; exact h'⟩

theorem Except.map_eq_ok_iff {x : Except ε α} {f : α → β} {b : β} :
    x.map f = .ok b ↔ ∃ a, x = .ok a ∧ f a = b := by
  cases x with
  | error e => exact ⟨nofun, fun ⟨_, h, _⟩ => nomatch h⟩
  | ok a => exact ⟨fun h => ⟨a, rfl, by cases h; rfl⟩, fun ⟨_, h, h'⟩ => by cases h; rw [← h']; rfl⟩

theorem Except.toOption_eq_some_iff {x : Except ε α} {a : α} :
    x.toOption = some a ↔ x = .ok a := by
  cases x with
  | error e => exact ⟨nofun, nofun⟩
  | ok b => exact ⟨fun h => by cases h; rfl, fun h => by cases h; rfl⟩

theorem Except.mapM_eq_ok_iff {f : α → Except ε β} {list : List α} {bs : List β} :
    list.mapM f = .ok bs ↔ list.map f = bs.map .ok := by
  induction list generalizing bs with
  | nil =>
    rw [List.mapM_nil, List.map_nil]
    change Except.ok [] = Except.ok bs ↔ _
    rw [Except.ok.injEq, eq_comm, eq_comm (a := []), List.map_eq_nil_iff]
  | cons a rest ih =>
    simp only [List.mapM_cons, bind_eq_ok_iff, ih, List.map_cons]
    constructor
    · rintro ⟨b, hb, bs', hrest, h⟩
      cases h
      rw [hb, hrest, List.map_cons]
    · intro h
      cases bs with
      | nil => cases h
      | cons b bs' =>
        rw [List.map_cons, List.cons.injEq] at h
        exact ⟨b, h.1, bs', h.2, rfl⟩

/-- A loop whose body never stops it ends exactly when the body never fails. -/
theorem Except.forIn_eq_ok_iff {list : List α} {body : α → Except ε (ForInStep PUnit.{u + 1})}
    (hbody : ∀ a r, body a = .ok r → r = .yield ⟨⟩) :
    (forIn list PUnit.unit fun a _ => body a) = .ok ⟨⟩
      ↔ ∀ a ∈ list, body a = .ok (.yield ⟨⟩) := by
  induction list with
  | nil => exact iff_of_true rfl nofun
  | cons a rest ih =>
    rw [List.forIn_cons, Except.bind_eq_ok_iff, List.forall_mem_cons, ← ih]
    constructor
    · rintro ⟨r, ha, hrest⟩
      cases hbody a r ha
      exact ⟨ha, hrest⟩
    · rintro ⟨ha, hrest⟩
      exact ⟨_, ha, hrest⟩

namespace Step

variable {x : EStateM ε σ α} {f : α → EStateM ε σ β} {s s' t : σ} {a a' : α} {b : β} {e : ε}

theorem bind_of_ok (h : x s = .ok a t) : (x >>= f) s = f a t := by
  change EStateM.bind x f s = _
  rw [EStateM.bind, h]

theorem bind_of_error (h : x s = .error e t) : (x >>= f) s = .error e t := by
  change EStateM.bind x f s = _
  rw [EStateM.bind, h]

theorem discard_of_ok (h : x s = .ok a t) : (discard x : EStateM ε σ PUnit) s = .ok ⟨⟩ t :=
  bind_of_ok h

theorem discard_of_error (h : x s = .error e t) :
    (discard x : EStateM ε σ PUnit) s = .error e t :=
  bind_of_error h

theorem get_bind {f : σ → EStateM ε σ β} : (get >>= f) s = f s s := rfl

theorem modify_bind {g : σ → σ} {f : PUnit → EStateM ε σ β} :
    (modify g >>= f) s = f ⟨⟩ (g s) := rfl

theorem throw_bind {f : α → EStateM ε σ β} : (throw e >>= f) s = .error e s := rfl

theorem throw_apply : (throw e : EStateM ε σ α) s = .error e s := rfl

theorem ofExcept_ok : (ofExcept (Except.ok a : Except ε α) : EStateM ε σ α) s = .ok a s := rfl

theorem ofExcept_error : (ofExcept (Except.error e : Except ε α) : EStateM ε σ α) s = .error e s :=
  rfl

def isOk : EStateM.Result ε σ α → Bool
  | .ok _ _ => true
  | .error _ _ => false

def stateOf : EStateM.Result ε σ α → σ
  | .ok _ t | .error _ t => t

theorem stateOf_discard : stateOf ((discard x : EStateM ε σ PUnit) s) = stateOf (x s) := by
  cases h : x s with
  | ok a t => rw [discard_of_ok h]; rfl
  | error e t => rw [discard_of_error h]; rfl

theorem eq_ok_of_isOk {r : EStateM.Result ε σ PUnit} (h : isOk r = true) :
    r = .ok ⟨⟩ (stateOf r) := by
  cases r with
  | ok a t => rfl
  | error f t => cases h

theorem exists_error_of_isOk {r : EStateM.Result ε σ α} (h : isOk r = false) :
    ∃ e, r = .error e (stateOf r) := by
  cases r with
  | ok a t => cases h
  | error e t => exact ⟨e, rfl⟩

theorem bind_eq_ok_iff :
    (x >>= f) s = .ok b s' ↔ ∃ a t, x s = .ok a t ∧ f a t = .ok b s' := by
  change EStateM.bind x f s = _ ↔ _
  unfold EStateM.bind
  cases h : x s with
  | error e t => exact ⟨nofun, fun ⟨_, _, h', _⟩ => nomatch h'⟩
  | ok a t =>
    constructor
    · intro h'
      exact ⟨a, t, rfl, h'⟩
    · rintro ⟨_, _, h', h''⟩
      cases h'
      exact h''

theorem pure_eq_ok_iff : (pure a : EStateM ε σ α) s = .ok a' s' ↔ a = a' ∧ s = s' := by
  change EStateM.Result.ok a s = _ ↔ _
  rw [EStateM.Result.ok.injEq]

theorem get_eq_ok_iff : (get : EStateM ε σ σ) s = .ok t s' ↔ s = t ∧ s = s' := by
  change EStateM.Result.ok s s = _ ↔ _
  rw [EStateM.Result.ok.injEq]

theorem modify_eq_ok_iff {g : σ → σ} {u : PUnit} :
    (modify g : EStateM ε σ PUnit) s = .ok u s' ↔ g s = s' := by
  change EStateM.Result.ok PUnit.unit (g s) = _ ↔ _
  rw [EStateM.Result.ok.injEq]
  exact ⟨And.right, fun h => ⟨rfl, h⟩⟩

theorem ofExcept_eq_ok_iff {r : Except ε α} :
    (ofExcept r : EStateM ε σ α) s = .ok a s' ↔ r = .ok a ∧ s = s' := by
  cases r with
  | error e => exact ⟨nofun, nofun⟩
  | ok c =>
    change EStateM.Result.ok c s = _ ↔ _
    rw [EStateM.Result.ok.injEq, Except.ok.injEq]

theorem discard_eq_ok_iff {u : PUnit} :
    (discard x : EStateM ε σ PUnit) s = .ok u s' ↔ ∃ a, x s = .ok a s' := by
  constructor
  · intro h
    obtain ⟨a, t, hx, h⟩ := bind_eq_ok_iff.1 h
    cases h
    exact ⟨a, hx⟩
  · rintro ⟨a, hx⟩
    exact discard_of_ok hx

theorem ofExcept_bind_eq_ok_iff {r : Except ε α} :
    ((ofExcept r : EStateM ε σ α) >>= f) s = .ok b s' ↔ ∃ a, r = .ok a ∧ f a s = .ok b s' := by
  rw [bind_eq_ok_iff]
  constructor
  · rintro ⟨a, t, hr, h⟩
    obtain ⟨ha, rfl⟩ := ofExcept_eq_ok_iff.1 hr
    exact ⟨a, ha, h⟩
  · rintro ⟨a, ha, h⟩
    exact ⟨a, s, ofExcept_eq_ok_iff.2 ⟨ha, rfl⟩, h⟩

theorem bind_eq_error_iff :
    (x >>= f) s = .error e s' ↔
      x s = .error e s' ∨ ∃ a t, x s = .ok a t ∧ f a t = .error e s' := by
  cases h : x s with
  | error g t =>
    rw [bind_of_error h]
    simp
  | ok a t =>
    rw [bind_of_ok h]
    simp

theorem discard_eq_error_iff :
    (discard x : EStateM ε σ PUnit) s = .error e s' ↔ x s = .error e s' := by
  cases h : x s with
  | ok a t =>
    rw [discard_of_ok h]
    exact ⟨nofun, nofun⟩
  | error g t => rw [discard_of_error h, EStateM.Result.error.injEq, EStateM.Result.error.injEq]

theorem ofExcept_bind_eq_error_iff {r : Except ε α} :
    ((ofExcept r : EStateM ε σ α) >>= f) s = .error e s' ↔
      r = .error e ∧ s = s' ∨ ∃ a, r = .ok a ∧ f a s = .error e s' := by
  cases r with
  | error g =>
    rw [bind_of_error ofExcept_error]
    simp
  | ok a =>
    rw [bind_of_ok ofExcept_ok]
    simp

/-- Whatever comes of a step, the state it leaves is related to the one before. -/
def Respects (R : σ → σ → Prop) (x : EStateM ε σ α) : Prop := ∀ s, R s (stateOf (x s))

/-- From a state with `P`, a step that succeeds ends with `Q`, and one that fails leaves `E`. -/
def Triple (P : σ → Prop) (x : EStateM ε σ α) (Q : α → σ → Prop) (E : σ → Prop) : Prop :=
  ∀ s, P s → match x s with
    | .ok a t => Q a t
    | .error _ t => E t

theorem Respects.ite {R : σ → σ → Prop} {c : Prop} [Decidable c] {y : EStateM ε σ α}
    (hx : Respects R x) (hy : Respects R y) : Respects R (if c then x else y) := by
  split
  · exact hx
  · exact hy

theorem Respects.discard {R : σ → σ → Prop} (hx : Respects R x) :
    Respects R (Functor.discard x : EStateM ε σ PUnit) := by
  intro s
  have hs := hx s
  cases h : x s with
  | error e t =>
    rw [h] at hs
    rw [discard_of_error h]
    exact hs
  | ok a t =>
    rw [h] at hs
    rw [discard_of_ok h]
    exact hs

section

variable {R : σ → σ → Prop} [IsPreorder σ R]

theorem Respects.bind (hx : Respects R x) (hf : ∀ a, Respects R (f a)) : Respects R (x >>= f) := by
  intro s
  have hs := hx s
  cases h : x s with
  | error e t =>
    rw [h] at hs
    rw [bind_of_error h]
    exact hs
  | ok a t =>
    rw [h] at hs
    rw [bind_of_ok h]
    exact IsTrans.trans _ _ _ hs (hf a t)

theorem respects_pure (a : α) : Respects R (pure a : EStateM ε σ α) := fun s => refl s

theorem respects_throw (e : ε) : Respects R (throw e : EStateM ε σ α) := fun s => refl s

theorem respects_get : Respects R (get : EStateM ε σ σ) := fun s => refl s

theorem respects_ofExcept (r : Except ε α) : Respects R (ofExcept r : EStateM ε σ α) := by
  intro s
  cases r with
  | error e => exact refl s
  | ok a => exact refl s

end

namespace Triple

variable {P P' : σ → Prop} {Q Q' : α → σ → Prop} {Q₂ : β → σ → Prop} {E E' : σ → Prop}

theorem bind (hx : Triple P x Q E) (hf : ∀ a, Triple (Q a) (f a) Q₂ E) :
    Triple P (x >>= f) Q₂ E := by
  intro s hs
  have hx := hx s hs
  cases h : x s with
  | error e t =>
    rw [h] at hx
    rw [bind_of_error h]
    exact hx
  | ok a t =>
    rw [h] at hx
    rw [bind_of_ok h]
    exact hf a t hx

theorem mono (h : Triple P x Q E) (hP : ∀ s, P' s → P s) (hQ : ∀ a s, Q a s → Q' a s)
    (hE : ∀ s, E s → E' s) : Triple P' x Q' E' := by
  intro s hs
  have hx := h s (hP s hs)
  cases hrun : x s with
  | error e t =>
    rw [hrun] at hx
    exact hE t hx
  | ok a t =>
    rw [hrun] at hx
    exact hQ a t hx

theorem ite {c : Prop} [Decidable c] {y : EStateM ε σ α} (hx : Triple P x Q E)
    (hy : Triple P y Q E) : Triple P (if c then x else y) Q E := by
  split
  · exact hx
  · exact hy

theorem throw_of (hE : ∀ s, P s → E s) : Triple P (throw e : EStateM ε σ α) Q E := hE

theorem get_bind {f : σ → EStateM ε σ β} (h : ∀ s, P s → Triple (· = s) (f s) Q₂ E) :
    Triple P (get >>= f) Q₂ E :=
  fun s hs => h s hs s rfl

theorem ofExcept_bind {r : Except ε α} (hE : ∀ s, P s → E s)
    (h : ∀ a, r = .ok a → Triple P (f a) Q₂ E) : Triple P (ofExcept r >>= f) Q₂ E := by
  cases r with
  | error e => exact hE
  | ok a => exact h a rfl

/-- What a relation keeps holds after every step that respects it. -/
theorem of_respects {R : σ → σ → Prop} (hx : Respects R x) (hP : ∀ s t, R s t → P s → P t) :
    Triple P x (fun _ => P) P := by
  intro s hs
  have hR := hx s
  cases h : x s with
  | error e t =>
    rw [h] at hR
    exact hP s t hR hs
  | ok a t =>
    rw [h] at hR
    exact hP s t hR hs

end Triple

end Step

end Authenticode
