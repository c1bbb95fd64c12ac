import Mathlib.Data.List.Induction

/-! Runs of a system that takes one event after the other; `none` where an event
cannot happen. -/

namespace Catter.Library.Runs

variable {S E : Type*} {step : S → E → Option S}

def run (step : S → E → Option S) (s : S) (es : List E) : Option S := es.foldlM step s

@[simp] lemma run_nil (s : S) : run step s [] = some s := rfl

lemma run_cons (s : S) (e : E) (es : List E) :
    run step s (e :: es) = (step s e).bind fun t => run step t es := by
  simp only [run, List.foldlM_cons]
  rfl

lemma run_append (s : S) (es ds : List E) :
    run step s (es ++ ds) = (run step s es).bind fun t => run step t ds := by
  simp only [run, List.foldlM_append]
  rfl

lemma run_concat_eq_some {s u : S} {es : List E} {e : E} :
    run step s (es ++ [e]) = some u ↔ ∃ t, run step s es = some t ∧ step t e = some u := by
  simp [run_append, run_cons, Option.bind_eq_some_iff]

/-- What holds at the start and is kept by every event holds after every run;
the property may speak about the events that led to the state. -/
lemma run_induction {s : S} {P : List E → S → Prop} (start : P [] s)
    (keep : ∀ es t e u, run step s es = some t → P es t → step t e = some u → P (es ++ [e]) u)
    {es : List E} {t : S} (h : run step s es = some t) : P es t := by
  induction es using List.reverseRecOn generalizing t with
  | nil =>
    cases h
    exact start
  | append_singleton es e ih =>
    obtain ⟨mid, hmid, hstep⟩ := run_concat_eq_some.mp h
    exact keep es mid e t hmid (ih hmid) hstep

end Catter.Library.Runs
