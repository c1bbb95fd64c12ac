import Mathlib.Tactic

/-! Computations that ask their environment and go on with its answers. -/

namespace Catter.Library

inductive Interaction (O A B : Type*)
  | done (b : B)
  | ask (o : O) (k : A → Interaction O A B)

namespace Interaction

variable {O A B C D : Type*}

def bind : Interaction O A B → (B → Interaction O A C) → Interaction O A C
  | done b, f => f b
  | ask o k, f => ask o fun a => (k a).bind f

@[simp] lemma done_bind (b : B) (f : B → Interaction O A C) : (done b).bind f = f b := rfl

@[simp] lemma ask_bind (o : O) (k : A → Interaction O A B) (f : B → Interaction O A C) :
    (ask o k).bind f = ask o fun a => (k a).bind f := rfl

lemma bind_done (t : Interaction O A B) : t.bind done = t := by
  induction t with
  | done b => rfl
  | ask o k ih =>
    rw [ask_bind]
    congr 1
    funext a
    exact ih a

lemma bind_assoc (t : Interaction O A B) (f : B → Interaction O A C) (g : C → Interaction O A D) :
    (t.bind f).bind g = t.bind fun b => (f b).bind g := by
  induction t with
  | done b => rfl
  | ask o k ih =>
    simp only [ask_bind]
    congr 1
    funext a
    exact ih a

def after : Interaction O A B → List A → Interaction O A B
  | done b, _ => done b
  | ask o k, [] => ask o k
  | ask _ k, a :: as => (k a).after as

def asked : Interaction O A B → List A → List O
  | done _, _ => []
  | ask o _, [] => [o]
  | ask o k, a :: as => o :: (k a).asked as

def result : Interaction O A B → Option B
  | done b => some b
  | ask _ _ => none

end Interaction

end Catter.Library
