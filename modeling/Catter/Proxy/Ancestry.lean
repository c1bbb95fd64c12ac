import Mathlib.Data.List.Chain
import Catter.Proxy.ProcessTree

/-! What the environment of a program says about the proxies above it: all of them,
from the root on. -/

namespace Catter.Proxy

open Text Library.Decimal Hook

def valuesOf (key : CString) (environ : List CString) : List Str :=
  environ.filterMap fun current =>
    if isEntryOf key current then some (current.drop (key.bytes.length + 1)).bytes else none

def unmarked (environ : List CString) : List CString :=
  environ.filter fun current => ! catterProxyEnvKey.bytes.isPrefixOf current.bytes

-- `a` launched the process whose exec became `b`
def Launches (t : Tree) (a b : ℤ) : Prop :=
  a < b ∧ ∃ proxy ∈ t.created, proxy.id = b ∧ proxy.launcher = some a

section

variable (p : Platform) (inst : Installation)

/-- `chain` holds the ids from the root's down to the launcher's. -/
structure Descends (environ : List CString) (t : Tree) (own : List CString) (launcher : ℤ)
    (depth : ℕ)
    (chain : List ℤ) : Prop where
  environ : own = unmarked environ ++ chain.flatMap fun id => envpPtrs (appended p inst id)
  root : chain.head? = some 1
  last : chain.getLast? = some launcher
  line : chain.IsChain (Launches t)
  depth : chain.length = depth + 1

inductive Born (environ : List CString) (t : Tree) : ProxyProcess → Prop
  | root {argv : List CString} : Born environ t ⟨environ, argv, 1, none, 0⟩
  | nested {own argv : List CString} {id launcher : ℤ} {depth : ℕ} {chain : List ℤ}
      (h : Descends p inst environ t own launcher depth chain) (hid : launcher < id) :
      Born environ t ⟨own, argv, id, some launcher, depth + 1⟩

structure Genealogy (environ : List CString) (t : Tree) : Prop where
  ids : ∀ proxy ∈ t.connected, proxy.id ≤ t.idGenerator
  distinct : (t.connected.map ProxyProcess.id).Nodup
  connected : ∀ proxy ∈ t.connected, Born p inst environ t proxy
  created : ∀ proxy ∈ t.created, proxy ∈ t.connected
  programs : ∀ program ∈ t.programs, program.launcher ≤ t.idGenerator ∧
    ∃ chain, Descends p inst environ t program.environ program.launcher program.depth chain

end

variable {p : Platform} {inst : Installation} {environ : List CString} {t u : Tree}

/-! The environment that one proxy hands on. -/

lemma appended_unmarked (id : ℤ) :
    (appended p inst id).filter (fun envEntry => ! catterProxyEnvKey.bytes.isPrefixOf envEntry) =
      appended p inst id := by
  rw [List.filter_eq_self]
  intro envEntry hmem
  have hother : ∀ (key : CString) (value : Str) (c : UInt8), key.bytes.head? = some c → c ≠ 101 →
      catterProxyEnvKey.bytes.isPrefixOf (entry key.bytes value) = false := by
    intro key value c hkey hc
    rw [← Bool.not_eq_true, List.isPrefixOf_iff_prefix]
    rintro ⟨rest, hrest⟩
    have hhead := congrArg List.head? hrest
    have hfirst : catterProxyEnvKey.bytes.head? = some 101 := rfl
    rw [List.head?_append, hfirst, Option.some_or, entry, List.head?_append, hkey, Option.some_or,
      Option.some.injEq] at hhead
    exact hc hhead.symm
  have hpreload : ∃ c, (keyPreload p).bytes.head? = some c ∧ c ≠ 101 := by
    cases p with
    | linux => exact ⟨76, by decide, by decide⟩
    | mac => exact ⟨68, by decide, by decide⟩
  obtain ⟨c, hkey, hc⟩ := hpreload
  simp only [appended, List.mem_cons, List.not_mem_nil, or_false] at hmem
  rcases hmem with rfl | rfl | rfl
  · rw [hother _ _ c hkey hc, Bool.not_false]
  · rw [hother _ _ 95 rfl (by decide), Bool.not_false]
  · rw [hother _ _ 95 rfl (by decide), Bool.not_false]

lemma inject_environ (environ : List CString) (id : ℤ) :
    envpPtrs (hookRun p inst (markedEnviron environ) id) =
      unmarked environ ++ envpPtrs (appended p inst id) := by
  have hmark : catterProxyEnvKey.bytes.isPrefixOf (entry catterProxyEnvKey.bytes (lit "v1")) =
      true := by
    rw [List.isPrefixOf_iff_prefix, entry]
    exact List.prefix_append _ _
  have hmarked : (markedEnviron environ).filter
      (fun envEntry => ! catterProxyEnvKey.bytes.isPrefixOf envEntry) =
        (unmarked environ).map CString.bytes := by
    rw [markedEnviron, List.filter_append, List.filter_map, unmarked]
    split_ifs
    · rw [List.filter_nil, List.append_nil]
      rfl
    · simp only [List.filter_singleton, hmark, Bool.not_true, cond_false, List.append_nil]
      rfl
  rw [hookRun, List.filter_append, hmarked, appended_unmarked, envpPtrs, List.map_append,
    List.map_map, envpPtrs]
  congr 1
  exact List.map_id'' cStr_bytes _

lemma unmarked_envpPtrs {env : List Str}
    (h : ∀ envEntry ∈ env, catterProxyEnvKey.bytes.isPrefixOf envEntry = false) :
    unmarked (envpPtrs env) = envpPtrs env := by
  rw [unmarked, List.filter_eq_self]
  intro current hmem
  obtain ⟨envEntry, hentry, rfl⟩ := List.mem_map.mp hmem
  rw [Bool.not_eq_true', ← Bool.not_eq_true, List.isPrefixOf_iff_prefix]
  intro hstarts
  have hwhole := List.isPrefixOf_iff_prefix.mpr (hstarts.trans (List.takeWhile_prefix _))
  rw [h envEntry hentry] at hwhole
  exact Bool.false_ne_true hwhole

lemma unmarked_appended (id : ℤ) : unmarked (envpPtrs (appended p inst id)) =
    envpPtrs (appended p inst id) := by
  apply unmarked_envpPtrs
  intro envEntry hmem
  rw [← appended_unmarked, List.mem_filter] at hmem
  simpa using hmem.2

lemma unmarked_append (xs ys : List CString) : unmarked (xs ++ ys) = unmarked xs ++ unmarked ys :=
  List.filter_append ..

lemma unmarked_idem (xs : List CString) : unmarked (unmarked xs) = unmarked xs := by
  rw [unmarked, unmarked, List.filter_filter]
  simp only [Bool.and_self]

lemma unmarked_chain (chain : List ℤ) :
    unmarked (chain.flatMap fun id => envpPtrs (appended p inst id)) =
      chain.flatMap fun id => envpPtrs (appended p inst id) := by
  induction chain with
  | nil => rfl
  | cons id chain ih => rw [List.flatMap_cons, unmarked_append, unmarked_appended, ih]

/-! The chain grows by the proxy that launches the program. -/

lemma Launches.mono {a b : ℤ} (h : Launches t a b) (hsub : t.created ⊆ u.created) :
    Launches u a b := by
  obtain ⟨hlt, proxy, hproxy, hid, hlauncher⟩ := h
  exact ⟨hlt, proxy, hsub hproxy, hid, hlauncher⟩

lemma Descends.mono {own : List CString} {launcher : ℤ} {depth : ℕ} {chain : List ℤ}
    (h : Descends p inst environ t own launcher depth chain) (hsub : t.created ⊆ u.created) :
    Descends p inst environ u own launcher depth chain where
  environ := h.environ
  root := h.root
  last := h.last
  line := h.line.imp fun _ _ hlaunches => hlaunches.mono hsub
  depth := h.depth

lemma Born.mono {proxy : ProxyProcess} (h : Born p inst environ t proxy)
    (hsub : t.created ⊆ u.created) :
    Born p inst environ u proxy := by
  cases h with
  | root => exact .root
  | nested h hid => exact .nested (h.mono hsub) hid

lemma descends_root (t : Tree) :
    Descends p inst environ t (envpPtrs (hookRun p inst (markedEnviron environ) 1)) 1 0 [1] where
  environ := by rw [inject_environ, List.flatMap_singleton]
  root := rfl
  last := rfl
  line := List.isChain_singleton 1
  depth := rfl

lemma Descends.next {own : List CString} {launcher id : ℤ} {depth : ℕ} {chain : List ℤ}
    (h : Descends p inst environ t own launcher depth chain) (hlaunches : Launches t launcher id) :
    Descends p inst environ t (envpPtrs (hookRun p inst (markedEnviron own) id)) id (depth + 1)
      (chain ++ [id]) where
  environ := by
    rw [inject_environ, h.environ, unmarked_append, unmarked_idem, unmarked_chain,
      List.flatMap_append,
      List.flatMap_singleton, List.append_assoc]
  root := by rw [List.head?_append, h.root, Option.some_or]
  last := List.getLast?_concat
  line := by
    refine List.isChain_append.mpr ⟨h.line, List.isChain_singleton id, ?_⟩
    intro a ha b hb
    rw [h.last, Option.mem_some_iff] at ha
    rw [List.head?_cons, Option.mem_some_iff] at hb
    rwa [← ha, ← hb]
  depth := by rw [List.length_append, h.depth, List.length_singleton]

lemma Born.inject {proxy : ProxyProcess} (h : Born p inst environ t proxy)
    (hcreated : proxy ∈ t.created) :
    ∃ chain, Descends p inst environ t (proxy.inject p inst).environ (proxy.inject p inst).launcher
      (proxy.inject p inst).depth chain := by
  cases h with
  | root => exact ⟨[1], descends_root t⟩
  | @nested own argv id launcher depth chain h hid =>
    exact ⟨chain ++ [id], h.next ⟨hid, _, hcreated, rfl, rfl⟩⟩

lemma genealogy_start (target : List CString) :
    Genealogy p inst environ (start inst environ target) where
  ids proxy hproxy := by
    obtain rfl := List.mem_singleton.mp hproxy
    exact le_rfl
  distinct := List.nodup_singleton 1
  connected proxy hproxy := by
    obtain rfl := List.mem_singleton.mp hproxy
    exact .root
  created proxy hproxy := absurd hproxy List.not_mem_nil
  programs program hprogram := absurd hprogram List.not_mem_nil

lemma Step.genealogy (hstep : Step p inst t u) (h : Genealogy p inst environ t) :
    Genealogy p inst environ u := by
  cases hstep with
  | exec hprogram hhooked hstarts hid =>
    obtain ⟨hlauncher, chain, hchain⟩ := h.programs _ hprogram
    refine ⟨?_, ?_, ?_, ?_, ?_⟩
    · intro proxy hproxy
      rcases List.mem_cons.mp hproxy with rfl | hproxy
      · exact le_rfl
      · exact (h.ids proxy hproxy).trans (by simp)
    · rw [List.map_cons, List.nodup_cons]
      refine ⟨?_, h.distinct⟩
      intro hmem
      obtain ⟨proxy, hproxy, hsame⟩ := List.mem_map.mp hmem
      have hle := h.ids proxy hproxy
      simp only at hsame
      omega
    · intro proxy hproxy
      rcases List.mem_cons.mp hproxy with rfl | hproxy
      · exact .nested (hchain.mono (List.Subset.refl _)) (by omega)
      · exact (h.connected proxy hproxy).mono (List.Subset.refl _)
    · intro proxy hproxy
      exact List.mem_cons_of_mem _ (h.created proxy hproxy)
    · intro program hprogram
      obtain ⟨hle, chain, hchain⟩ := h.programs program hprogram
      exact ⟨hle.trans (by simp), chain, hchain.mono (List.Subset.refl _)⟩
  | @create proxy hproxy hparent =>
    have hsub : t.created ⊆ proxy :: t.created := List.subset_cons_self _ _
    refine ⟨h.ids, h.distinct, fun proxy hproxy => (h.connected proxy hproxy).mono hsub, ?_, ?_⟩
    · intro proxy hmem
      rcases List.mem_cons.mp hmem with rfl | hmem
      · exact hproxy
      · exact h.created proxy hmem
    · intro program hprogram
      obtain ⟨hle, chain, hchain⟩ := h.programs program hprogram
      exact ⟨hle, chain, hchain.mono hsub⟩
  | inject hproxy hcommand =>
    have hsub : t.created ⊆ t.created := List.Subset.refl _
    refine ⟨h.ids, h.distinct, fun proxy hproxy => (h.connected proxy hproxy).mono hsub,
      h.created, ?_⟩
    intro program hmem
    rcases List.mem_cons.mp hmem with rfl | hmem
    · obtain ⟨chain, hchain⟩ := (h.connected _ (h.created _ hproxy)).inject hproxy
      exact ⟨h.ids _ (h.created _ hproxy), chain, hchain.mono hsub⟩
    · obtain ⟨hle, chain, hchain⟩ := h.programs program hmem
      exact ⟨hle, chain, hchain.mono hsub⟩

lemma Reachable.genealogy {target : List CString} (h : Reachable p inst environ target t) :
    Genealogy p inst environ t := by
  induction h with
  | refl => exact genealogy_start target
  | tail _ hstep ih => exact hstep.genealogy ih

/-! The ids in an environment. -/

lemma valuesOf_append (key : CString) (xs ys : List CString) :
    valuesOf key (xs ++ ys) = valuesOf key xs ++ valuesOf key ys := List.filterMap_append ..

lemma valuesOf_eq_nil {key : CString} {environ : List CString}
    (h : getEnvValue environ key = none) :
    valuesOf key environ = [] := by
  rw [getEnvValue, Option.map_eq_none_iff, getEnvEntry, List.find?_eq_none] at h
  rw [valuesOf, List.filterMap_eq_nil_iff]
  intro current hmem
  rw [if_neg (h current hmem)]

lemma valuesOf_unmarked {key : CString} (h : valuesOf key environ = []) :
    valuesOf key (unmarked environ) = [] := by
  rw [valuesOf, List.filterMap_eq_nil_iff] at h ⊢
  intro current hmem
  exact h current (List.mem_of_mem_filter hmem)

lemma valuesOf_appended (id : ℤ) : valuesOf keyCommandId (envpPtrs (appended p inst id)) =
    [formatInt id] := by
  have hpreload := isEntryOf_preload p inst keyCommandId rfl
  have hid := isEntryOf_cStr_entry keyCommandId (formatInt_no_nul id)
  have hpath : isEntryOf keyCommandId (cStr (entry keyProxyPath.bytes inst.exe.bytes)) = false :=
    isEntryOf_other 13 inst.exe.no_nul (by decide) (by decide) (by decide)
  have hvalue := drop_entry (cStr_entry keyCommandId (formatInt_no_nul id))
  simp only [valuesOf, envpPtrs, appended, List.map_cons, List.map_nil, List.filterMap_cons,
    List.filterMap_nil,
    hpreload, hid, hpath, if_true, hvalue, Bool.false_eq_true, if_false]

lemma valuesOf_chain (chain : List ℤ) :
    valuesOf keyCommandId (chain.flatMap fun id => envpPtrs (appended p inst id)) =
      chain.map formatInt := by
  induction chain with
  | nil => rfl
  | cons id chain ih =>
    rw [List.flatMap_cons, valuesOf_append, valuesOf_appended, ih]
    rfl

/-- In every build: no two proxies have one id, and the command ids in the environment of a program
are those of the proxies above it, from the root to the one that launched it. -/
theorem environment_names_ancestors {target : List CString} (hclean : Clean environ)
    (hreach : Reachable p inst environ target t) :
    (t.connected.map ProxyProcess.id).Nodup ∧
      ∀ program ∈ t.programs, ∃ chain,
        Descends p inst environ t program.environ program.launcher program.depth chain ∧
        valuesOf keyCommandId program.environ = chain.map formatInt := by
  have hgenealogy := hreach.genealogy
  refine ⟨hgenealogy.distinct, ?_⟩
  intro program hprogram
  obtain ⟨-, chain, hchain⟩ := hgenealogy.programs program hprogram
  refine ⟨chain, hchain, ?_⟩
  rw [hchain.environ, valuesOf_append, valuesOf_unmarked (valuesOf_eq_nil hclean.2), valuesOf_chain,
    List.nil_append]

theorem environment_names_ancestors_nested_make :
    ∃ t : Tree, Reachable .linux optInstallation [binPath] [binMake] t ∧
      ∃ program ∈ t.programs, program.depth = 1 ∧
        valuesOf keyCommandId program.environ = [formatInt 1, formatInt 2] := by
  have hclean : Clean [binPath] := ⟨by decide, by decide⟩
  obtain ⟨t, program, hprogram, hreach, hlauncher, hdepth, -⟩ :=
    program_at_depth hclean binMake_room 1 (by decide)
  obtain ⟨-, hprograms⟩ := environment_names_ancestors hclean hreach
  obtain ⟨chain, hchain, hvalues⟩ := hprograms program hprogram
  have hlength := hchain.depth
  have hroot := hchain.root
  have hlast := hchain.last
  rw [hdepth] at hlength
  obtain ⟨a, b, rfl⟩ := List.length_eq_two.mp hlength
  rw [List.head?_cons, Option.some.injEq] at hroot
  rw [List.getLast?_cons_cons, List.getLast?_singleton, Option.some.injEq, hlauncher] at hlast
  refine ⟨t, hreach, program, hprogram, hdepth, ?_⟩
  rw [hvalues, hroot, hlast]
  rfl

end Catter.Proxy
