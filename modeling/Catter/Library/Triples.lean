import Mathlib.Tactic

/-! Programs with a state that an exception does not undo, and triples about them:
what holds before, after a value, and after an exception. -/

namespace Catter.Library.Triples

variable {ε σ α β : Type}

/-- A run gives a value or an exception, and the state in both cases. -/
abbrev Program (ε σ α : Type) := ExceptT ε (StateM σ) α

def throwing (e : Except ε α) : Program ε σ α := fun s => (e, s)

def update (f : σ → σ) : Program ε σ Unit := fun s => (.ok (), f s)

def Triple (P : σ → Prop) (m : Program ε σ α) (Q : α → σ → Prop) (E : σ → Prop) : Prop :=
  ∀ s, P s →
    match m s with
    | (.ok a, t) => Q a t
    | (.error _, t) => E t

lemma bind_run (m : Program ε σ α) (f : α → Program ε σ β) (s : σ) :
    (m >>= f) s =
      match m s with
      | (.ok a, t) => f a t
      | (.error e, t) => (.error e, t) := by
  change (do
    let r ← m s
    (ExceptT.bindCont f r.1 : StateM σ (Except ε β)) r.2 : Id (Except ε β × σ)) = _
  match m s with
  | (.ok a, t) => rfl
  | (.error e, t) => rfl

lemma bind_ok {m : Program ε σ α} {f : α → Program ε σ β} {s t : σ} {a : α} (h : m s = (.ok a, t)) :
    (m >>= f) s = f a t := by
  rw [bind_run, h]

lemma bind_error {m : Program ε σ α} {f : α → Program ε σ β} {s t : σ} {e : ε}
    (h : m s = (.error e, t)) :
    (m >>= f) s = (.error e, t) := by
  rw [bind_run, h]

lemma update_bind (g : σ → σ) (f : Unit → Program ε σ β) (s : σ) :
    (update g >>= f) s = f () (g s) :=
  bind_ok rfl

lemma throwing_bind (a : α) (f : α → Program ε σ β) (s : σ) : (throwing (.ok a) >>= f) s = f a s :=
  bind_ok rfl

lemma bind_keeps {γ : Type} (part : σ → γ) {m : Program ε σ α} {f : α → Program ε σ β}
    (h : ∀ a t, part (f a t).2 = part t) (s : σ) : part ((m >>= f) s).2 = part (m s).2 := by
  rw [bind_run]
  match m s with
  | (.ok a, t) => exact h a t
  | (.error e, t) => rfl

variable {P P' : σ → Prop} {Q Q' : α → σ → Prop} {E : σ → Prop}

namespace Triple

lemma pure {a : α} (h : ∀ s, P s → Q a s) : Triple P (Pure.pure a : Program ε σ α) Q E := h

lemma bind {m : Program ε σ α} {f : α → Program ε σ β} {R : β → σ → Prop} (hm : Triple P m Q E)
    (hf : ∀ a, Triple (Q a) (f a) R E) : Triple P (m >>= f) R E := by
  intro s hs
  have hfirst := hm s hs
  rw [bind_run]
  match hrun : m s with
  | (.ok a, t) =>
    rw [hrun] at hfirst
    exact hf a t hfirst
  | (.error e, t) =>
    rw [hrun] at hfirst
    exact hfirst

lemma weaken {m : Program ε σ α} (h : Triple P m Q E) (hpre : ∀ s, P' s → P s)
    (hpost : ∀ a s, Q a s → Q' a s) :
    Triple P' m Q' E := by
  intro s hs
  have hrun := h s (hpre s hs)
  match hm : m s with
  | (.ok a, t) =>
    rw [hm] at hrun
    exact hpost a t hrun
  | (.error e, t) =>
    rw [hm] at hrun
    exact hrun

lemma throwing {e : Except ε α} (hok : ∀ a s, e = .ok a → P s → Q a s) (herror : ∀ s, P s → E s) :
    Triple P (throwing e : Program ε σ α) Q E := by
  intro s hs
  match e with
  | .ok a => exact hok a s rfl hs
  | .error e => exact herror s hs

lemma update {f : σ → σ} {Q : Unit → σ → Prop} (h : ∀ s, P s → Q () (f s)) :
    Triple P (update f : Program ε σ Unit) Q E := h

end Triple

def Gives (P : σ → Prop) (m : Program ε σ α) (e : Except ε α) (Q E : σ → Prop) : Prop :=
  ∀ s, P s → (m s).1 = e ∧
    match e with
    | .ok _ => Q (m s).2
    | .error _ => E (m s).2

namespace Gives

variable {Q R : σ → Prop}

lemma pure {a : α} : Gives P (Pure.pure a : Program ε σ α) (.ok a) P E := fun _ hs => ⟨rfl, hs⟩

lemma throwing (e : Except ε α) (h : ∀ s, P s → E s) : Gives P (throwing e) e P E := by
  intro s hs
  cases e with
  | ok a => exact ⟨rfl, hs⟩
  | error e => exact ⟨rfl, h s hs⟩

lemma bind {m : Program ε σ α} {e : Except ε α} {f : α → Program ε σ β} {g : α → Except ε β}
    (hm : Gives P m e Q E) (hf : ∀ a, Gives Q (f a) (g a) R E) :
    Gives P (m >>= f) (e >>= g) R E := by
  intro s hs
  obtain ⟨hfirst, hstate⟩ := hm s hs
  rw [bind_run]
  match hrun : m s with
  | (.ok a, t) =>
    rw [hrun] at hfirst hstate
    subst hfirst
    exact hf a t hstate
  | (.error e', t) =>
    rw [hrun] at hfirst hstate
    subst hfirst
    exact ⟨rfl, hstate⟩

lemma state {m : Program ε σ α} {e : Except ε α} (h : Gives P m e Q E) (hok : ∀ s, Q s → R s)
    (herror : ∀ s, E s → R s)
    {s : σ} (hs : P s) : R (m s).2 := by
  obtain ⟨-, hstate⟩ := h s hs
  cases e with
  | ok a => exact hok _ hstate
  | error e => exact herror _ hstate

lemma update_bind {f : σ → σ} {m : Unit → Program ε σ α} {e : Except ε α} (h : ∀ s, P s → Q (f s))
    (hm : Gives Q (m ()) e R E) : Gives P (update f >>= m) e R E :=
  fun s hs => hm (f s) (h s hs)

end Gives

end Catter.Library.Triples
