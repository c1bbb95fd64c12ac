import Mathlib.Algebra.BigOperators.Fin
import Mathlib.Tactic
import Catter.Library.Runs

/-! Components side by side: an event brings a new one or is an event of one of
them. Each runs as it would alone. -/

namespace Catter.Library.Parallel

open Runs

variable {S E : Type*}

inductive Event (S E : Type*)
  | join (s : S)
  | member (i : ℕ) (e : E)

def step (stepOne : S → E → Option S) (ss : List S) : Event S E → Option (List S)
  | .join s => some (ss ++ [s])
  | .member i e => do
    let s ← ss[i]?
    let t ← stepOne s e
    return ss.set i t

def Event.own (i : ℕ) : Event S E → Option E
  | .join _ => none
  | .member j e => if j = i then some e else none

def own (i : ℕ) (es : List (Event S E)) : List E := es.filterMap (Event.own i)

variable {stepOne : S → E → Option S} {es : List (Event S E)} {ss : List S} {s : S} {i : ℕ}

lemma own_concat (i : ℕ) (es : List (Event S E)) (e : Event S E) :
    own i (es ++ [e]) = own i es ++ (e.own i).toList := by
  rw [own, List.filterMap_append, own, List.append_cancel_left_eq]
  cases h : e.own i <;> simp [h]

lemma own_join (i : ℕ) (es : List (Event S E)) (s : S) : own i (es ++ [.join s]) = own i es := by
  rw [own_concat, Event.own, Option.toList_none, List.append_nil]

lemma own_member (i j : ℕ) (es : List (Event S E)) (e : E) :
    own j (es ++ [.member i e]) = own j es ++ if i = j then [e] else [] := by
  rw [own_concat, Event.own]
  split_ifs <;> rfl

lemma mem_own {e : E} : e ∈ own i es ↔ .member i e ∈ es := by
  rw [own, List.mem_filterMap]
  constructor
  · rintro ⟨s | ⟨j, e'⟩, hmem, hown⟩
    · exact nomatch hown
    · simp only [Event.own, Option.ite_none_right_eq_some, Option.some.injEq] at hown
      obtain ⟨rfl, rfl⟩ := hown
      exact hmem
  · intro hmem
    exact ⟨_, hmem, if_pos rfl⟩

lemma member_cases {e : E} {ts : List S} (h : step stepOne ss (.member i e) = some ts) :
    ∃ s t, ss[i]? = some s ∧ stepOne s e = some t ∧ ts = ss.set i t := by
  simp only [step, Option.bind_eq_bind, Option.bind_eq_some_iff, Option.pure_def,
    Option.some.injEq] at h
  obtain ⟨s, hs, t, ht, rfl⟩ := h
  exact ⟨s, t, hs, ht, rfl⟩

lemma member_isSome {e : E} (hs : ss[i]? = some s) (h : (stepOne s e).isSome = true) :
    (step stepOne ss (.member i e)).isSome = true := by
  obtain ⟨t, ht⟩ := Option.isSome_iff_exists.mp h
  simp [step, hs, ht]

structure Alone (stepOne : S → E → Option S) (es : List (Event S E)) (ss : List S) : Prop where
  fresh : ∀ i, ss.length ≤ i → own i es = []
  alone : ∀ i s, ss[i]? = some s → ∃ s₀, .join s₀ ∈ es ∧ run stepOne s₀ (own i es) = some s
  count : es.length = ss.length + ∑ i ∈ Finset.range ss.length, (own i es).length

lemma alone_join (h : Alone stepOne es ss) (s : S) :
    Alone stepOne (es ++ [.join s]) (ss ++ [s]) where
  fresh i hi := by
    rw [List.length_append] at hi
    rw [own_join, h.fresh i (by omega)]
  alone i t ht := by
    rw [own_join]
    rcases lt_or_ge i ss.length with hlt | hge
    · rw [List.getElem?_append_left hlt] at ht
      obtain ⟨s₀, hjoin, hrun⟩ := h.alone i t ht
      exact ⟨s₀, List.mem_append_left _ hjoin, hrun⟩
    · rw [List.getElem?_append_right hge, List.getElem?_singleton] at ht
      split_ifs at ht with hzero
      cases ht
      refine ⟨s, List.mem_append_right _ (List.mem_singleton.mpr rfl), ?_⟩
      rw [h.fresh i hge, run_nil]
  count := by
    have hcount := h.count
    simp only [own_join, List.length_append, List.length_singleton]
    rw [Finset.sum_range_succ, h.fresh _ le_rfl, List.length_nil]
    omega

lemma alone_member {e : E} {ts : List S} (h : Alone stepOne es ss)
    (hstep : step stepOne ss (.member i e) = some ts) :
    Alone stepOne (es ++ [.member i e]) ts := by
  obtain ⟨s, t, hs, ht, rfl⟩ := member_cases hstep
  have hi : i < ss.length := (List.getElem?_eq_some_iff.mp hs).1
  refine ⟨?_, ?_, ?_⟩
  · intro j hj
    rw [List.length_set] at hj
    rw [own_member, h.fresh j hj, if_neg (by omega), List.append_nil]
  · intro j u hu
    rw [own_member]
    by_cases hij : i = j
    · subst hij
      rw [List.getElem?_set_self hi, Option.some.injEq] at hu
      subst hu
      obtain ⟨s₀, hjoin, hrun⟩ := h.alone i s hs
      refine ⟨s₀, List.mem_append_left _ hjoin, ?_⟩
      rw [if_pos rfl, run_concat_eq_some]
      exact ⟨s, hrun, ht⟩
    · rw [List.getElem?_set_ne hij] at hu
      obtain ⟨s₀, hjoin, hrun⟩ := h.alone j u hu
      refine ⟨s₀, List.mem_append_left _ hjoin, ?_⟩
      rwa [if_neg hij, List.append_nil]
  · have hcount := h.count
    have hlength : ∀ j, (own j (es ++ [.member i e])).length = (own j es).length + if i = j then 1
        else 0 := by
      intro j
      rw [own_member, List.length_append]
      split_ifs <;> rfl
    simp only [hlength, List.length_append, List.length_singleton, List.length_set]
    rw [Finset.sum_add_distrib, Finset.sum_ite_eq, if_pos (Finset.mem_range.mpr hi)]
    omega

lemma run_alone (h : run (step stepOne) [] es = some ss) : Alone stepOne es ss := by
  apply run_induction ?_ ?_ h
  · exact ⟨fun i _ => rfl, fun i s hs => by simp at hs, rfl⟩
  · intro es ss e ts _ h hstep
    cases e with
    | join s =>
      simp only [step, Option.some.injEq] at hstep
      subst hstep
      exact alone_join h s
    | member i e => exact alone_member h hstep

lemma length_le (h : Alone stepOne es ss) {f : S → ℕ}
    (hf : ∀ i s, ss[i]? = some s → (own i es).length ≤ f s) :
    es.length ≤ (ss.map fun s => f s + 1).sum := by
  have hown : ∑ i ∈ Finset.range ss.length, (own i es).length ≤ (ss.map f).sum := by
    rw [Finset.sum_range]
    calc ∑ i : Fin ss.length, (own i es).length
        ≤ ∑ i : Fin ss.length, f ss[i.1] :=
          Finset.sum_le_sum fun i _ => hf i _ (List.getElem?_eq_getElem i.isLt)
      _ = (ss.map f).sum := Fin.sum_univ_fun_getElem ss f
  have hcount := h.count
  rw [List.sum_map_add]
  simp only [List.map_const', List.sum_replicate, smul_eq_mul, mul_one]
  omega

end Catter.Library.Parallel
