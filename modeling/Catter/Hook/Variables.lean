import Catter.Hook.Run

/-! What `hook::run` does to the variables that are not its own. -/

namespace Catter.Hook

open Text Library.Decimal

-- The name ends at the first equal sign; an entry without one is a name alone.
def variableName (envEntry : Str) : Str := envEntry.takeWhile (· ≠ 61)

def ownNames (p : Platform) : List Str :=
  [(keyPreload p).bytes, keyCommandId.bytes, keyProxyPath.bytes, catterProxyEnvKey.bytes]

def users (p : Platform) (env : List Str) : List Str :=
  env.filter fun envEntry => variableName envEntry ∉ ownNames p

structure KeepsUsers (p : Platform) (inst : Installation) (env : List Str) (id : ℤ) : Prop where
  kept : users p (hookRun p inst env id) = users p env
  removed : ∀ envEntry ∈ hookRun p inst env id, variableName envEntry ≠ catterProxyEnvKey.bytes

lemma variableName_entry {key : Str} (hkey : 61 ∉ key) (value : Str) :
    variableName (entry key value) = key := by
  rw [variableName, entry, List.takeWhile_append_of_pos]
  · simp
  · intro c hc
    rw [decide_eq_true_eq]
    rintro rfl
    exact hkey hc

lemma prefix_variableName {key : Str} (hkey : 61 ∉ key) {envEntry : Str} :
    key <+: variableName envEntry ↔ key <+: envEntry := by
  constructor
  · intro h
    exact h.trans (List.takeWhile_prefix _)
  · rintro ⟨rest, rfl⟩
    rw [variableName, List.takeWhile_append_of_pos]
    · exact List.prefix_append _ _
    · intro c hc
      rw [decide_eq_true_eq]
      rintro rfl
      exact hkey hc

variable (p : Platform) (inst : Installation)

lemma equal_notMem_ownNames : ∀ name ∈ ownNames p, 61 ∉ name := by
  cases p <;> decide

lemma eq_of_prefix_ownNames : ∀ name ∈ ownNames p, catterProxyEnvKey.bytes <+: name →
    name = catterProxyEnvKey.bytes := by
  cases p <;> decide

lemma users_appended (id : ℤ) : users p (appended p inst id) = [] := by
  have hnames := equal_notMem_ownNames p
  rw [users, List.filter_eq_nil_iff]
  intro envEntry hmem
  rw [decide_eq_true_eq, not_not]
  simp only [appended, List.mem_cons, List.not_mem_nil, or_false] at hmem
  rcases hmem with rfl | rfl | rfl
  all_goals
    rw [variableName_entry (hnames _ (by simp [ownNames]))]
    simp [ownNames]

lemma users_hookRun (env : List Str) (id : ℤ) :
    users p (hookRun p inst env id) = (users p env).filter fun envEntry =>
      ! catterProxyEnvKey.bytes.isPrefixOf envEntry := by
  rw [users, hookRun, List.filter_comm, List.filter_append]
  change (users p env ++ users p (appended p inst id)).filter _ = _
  rw [users_appended, List.append_nil]

theorem keeps_users_iff (env : List Str) (id : ℤ) :
    KeepsUsers p inst env id ↔
      ∀ envEntry ∈ env, catterProxyEnvKey.bytes <+: variableName envEntry →
        variableName envEntry = catterProxyEnvKey.bytes := by
  have hkey : 61 ∉ catterProxyEnvKey.bytes := by decide
  constructor
  · intro h envEntry hmem hprefix
    by_cases hown : variableName envEntry ∈ ownNames p
    · exact eq_of_prefix_ownNames p _ hown hprefix
    · have huser : envEntry ∈ users p env := List.mem_filter.mpr ⟨hmem, decide_eq_true hown⟩
      rw [← h.kept, users_hookRun] at huser
      have hpresent := (List.mem_filter.mp huser).2
      rw [List.isPrefixOf_iff_prefix.mpr ((prefix_variableName hkey).mp hprefix)] at hpresent
      exact absurd hpresent Bool.false_ne_true
  · intro h
    constructor
    · rw [users_hookRun, List.filter_eq_self]
      intro envEntry huser
      obtain ⟨hmem, hown⟩ := List.mem_filter.mp huser
      rw [Bool.not_eq_true', ← Bool.not_eq_true,
        List.isPrefixOf_iff_prefix, ← prefix_variableName hkey]
      intro hprefix
      apply of_decide_eq_true hown
      rw [h envEntry hmem hprefix]
      simp [ownNames]
    · intro envEntry hmem hname
      have hpresent := (List.mem_filter.mp hmem).2
      rw [Bool.not_eq_true', ← Bool.not_eq_true,
        List.isPrefixOf_iff_prefix, ← prefix_variableName hkey, hname]
        at hpresent
      exact hpresent (List.prefix_refl _)

theorem longer_name_is_dropped :
    ¬ KeepsUsers .linux ⟨cStr (lit "/opt/catter-proxy"), cStr (lit "/opt/libcatter-hook-unix.so"),
      by decide⟩
      [lit "exec_is_catter_proxy_v1_mode=1"] 7 := by
  intro h
  exact absurd h.kept (by decide)

end Catter.Hook
