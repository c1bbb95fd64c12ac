import Catter.Hook.Session
import Catter.Library.Decimal

/-! `hook::run`: the environment with which catter-proxy starts the injected command. -/

namespace Catter.Hook

open Text Library.Decimal

def keyPreload : Platform → CString
  | .linux => ⟨lit "LD_PRELOAD", by decide⟩
  | .mac => ⟨lit "DYLD_INSERT_LIBRARIES", by decide⟩

-- The paths of catter-proxy and of the hook library; the first is read into 1024 bytes.
structure Installation where
  exe : CString
  lib : CString
  exe_short : exe.bytes.length < 1024 := by decide

variable (p : Platform) (inst : Installation)

def appended (id : ℤ) : List Str :=
  [entry (keyPreload p).bytes inst.lib.bytes, entry keyCommandId.bytes (formatInt id),
    entry keyProxyPath.bytes inst.exe.bytes]

def hookRun (env : List Str) (id : ℤ) : List Str :=
  (env ++ appended p inst id).filter fun envEntry => ! catterProxyEnvKey.bytes.isPrefixOf envEntry

-- The pointers that `posix_spawn` gets.
def envpPtrs (env : List Str) : List CString := env.map cStr

def FirstHolds (env : List Str) (key : CString) (value : Str) : Prop :=
  ∀ current ∈ (envpPtrs env).find? (isEntryOf key), current.bytes = entry key.bytes value

def YieldsAppended (env : List Str) (id : ℤ) (key : CString) (value : Str) : Prop :=
  (getEnvValue (envpPtrs (hookRun p inst env id)) key).map CString.bytes = some value

/-! What the lookup finds. -/

lemma formatInt_no_nul (v : ℤ) : 0 ∉ formatInt v := by
  have hdigits : (0 : UInt8) ∉ decimal v.natAbs := by
    intro h
    exact absurd (isDigit_of_mem_decimal h) (by decide)
  unfold formatInt
  split_ifs
  · rw [List.mem_cons, not_or]
    exact ⟨by decide, hdigits⟩
  · exact hdigits

lemma cStr_entry (key : CString) {value : Str} (hvalue : 0 ∉ value) :
    (cStr (entry key.bytes value)).bytes = entry key.bytes value := by
  apply cStr_of_no_nul
  rw [entry, List.mem_append, List.mem_cons, not_or, not_or]
  exact ⟨key.no_nul, by decide, hvalue⟩

lemma isEntryOf_cStr_entry (key : CString) {value : Str} (hvalue : 0 ∉ value) :
    isEntryOf key (cStr (entry key.bytes value)) = true := by
  rw [isEntryOf_iff]
  exact ⟨value, cStr_entry key hvalue⟩

lemma head?_of_isEntryOf {key : CString} {str : Str} {c : UInt8} (hkey : key.bytes.head? = some c)
    (h : isEntryOf key (cStr str) = true) : str.head? = some c := by
  obtain ⟨value, hvalue⟩ := isEntryOf_iff.mp h
  have hhead : (cStr str).bytes.head? = some c := by
    rw [hvalue, entry, List.head?_append, hkey, Option.some_or]
  change (str.takeWhile (· ≠ 0)).head? = some c at hhead
  rw [List.head?_takeWhile, Option.filter_eq_some_iff] at hhead
  exact hhead.1

lemma isEntryOf_other (k : ℕ) {key key' : CString} {value : Str} (hvalue : 0 ∉ value)
    (hk : k < key.bytes.length) (hk' : k < key'.bytes.length)
    (hne : key.bytes[k]? ≠ key'.bytes[k]?) :
    isEntryOf key (cStr (entry key'.bytes value)) = false := by
  rw [← Bool.not_eq_true, isEntryOf_iff, cStr_entry key' hvalue]
  rintro ⟨value', h⟩
  apply hne
  have hplace := congrArg (fun str => str[k]?) h
  simp only [entry, List.getElem?_append_left hk, List.getElem?_append_left hk'] at hplace
  exact hplace.symm

lemma isEntryOf_preload (key : CString) (hkey : key.bytes.head? = some 95) :
    isEntryOf key (cStr (entry (keyPreload p).bytes inst.lib.bytes)) = false := by
  rw [← Bool.not_eq_true]
  intro h
  have hhead := head?_of_isEntryOf hkey h
  have hfirst : (keyPreload p).bytes.head? = some 76 ∨ (keyPreload p).bytes.head? = some 68 := by
    cases p <;> decide
  rw [entry, List.head?_append] at hhead
  rcases hfirst with hfirst | hfirst <;> simp [hfirst] at hhead

lemma find?_appended_commandId (id : ℤ) :
    (envpPtrs (appended p inst id)).find? (isEntryOf keyCommandId) =
    some (cStr (entry keyCommandId.bytes (formatInt id))) := by
  have hpreload := isEntryOf_preload p inst keyCommandId rfl
  have hid := isEntryOf_cStr_entry keyCommandId (formatInt_no_nul id)
  simp only [envpPtrs, appended, List.map_cons, List.find?_cons, hpreload, hid]

lemma find?_appended_proxyPath (id : ℤ) :
    (envpPtrs (appended p inst id)).find? (isEntryOf keyProxyPath) =
    some (cStr (entry keyProxyPath.bytes inst.exe.bytes)) := by
  have hpreload := isEntryOf_preload p inst keyProxyPath rfl
  have hid : isEntryOf keyProxyPath (cStr (entry keyCommandId.bytes (formatInt id))) = false :=
    isEntryOf_other 13 (formatInt_no_nul id) (by decide) (by decide) (by decide)
  have hpath := isEntryOf_cStr_entry keyProxyPath inst.exe.no_nul
  simp only [envpPtrs, appended, List.map_cons, List.find?_cons, hpreload, hid, hpath]

lemma not_removed {key : CString} {str : Str} (hkey : key.bytes.head? = some 95)
    (h : isEntryOf key (cStr str) = true) : catterProxyEnvKey.bytes.isPrefixOf str = false := by
  rw [← Bool.not_eq_true, List.isPrefixOf_iff_prefix]
  rintro ⟨rest, rfl⟩
  have hhead := head?_of_isEntryOf hkey h
  have hfirst : catterProxyEnvKey.bytes.head? = some 101 := rfl
  rw [List.head?_append, hfirst, Option.some_or] at hhead
  exact absurd hhead (by decide)

lemma getEnvEntry_hookRun {key : CString} {value : Str} (env : List Str) (id : ℤ)
    (hkey : key.bytes.head? = some 95)
    (happended : (envpPtrs (appended p inst id)).find? (isEntryOf key) =
      some (cStr (entry key.bytes value))) :
    getEnvEntry (envpPtrs (hookRun p inst env id)) key =
      (getEnvEntry (envpPtrs env) key).or (some (cStr (entry key.bytes value))) := by
  have hkept : (fun str => decide ((! catterProxyEnvKey.bytes.isPrefixOf str) = true ∧
      (isEntryOf key ∘ cStr) str = true)) = isEntryOf key ∘ cStr := by
    funext str
    rw [Bool.eq_iff_iff, decide_eq_true_eq, and_iff_right_iff_imp]
    intro h
    rw [not_removed hkey h]
    rfl
  rw [getEnvEntry, getEnvEntry, ← happended]
  simp only [envpPtrs, hookRun, List.find?_map, List.find?_filter, hkept, List.find?_append,
    Option.map_or]

lemma getEnvValue_hookRun {key value : CString} (env : List Str) (id : ℤ)
    (hkey : key.bytes.head? = some 95)
    (happended : (envpPtrs (appended p inst id)).find? (isEntryOf key) =
      some (cStr (entry key.bytes value.bytes))) :
    getEnvValue (envpPtrs (hookRun p inst env id)) key =
      (getEnvValue (envpPtrs env) key).or (some value) := by
  have hdrop : (cStr (entry key.bytes value.bytes)).drop (key.bytes.length + 1) = value :=
    CString.ext (drop_entry (cStr_entry key value.no_nul))
  rw [getEnvValue, getEnvEntry_hookRun p inst env id hkey happended, Option.map_or, getEnvValue,
    Option.map_some,
    hdrop]

lemma proxyPath_hookRun (env : List Str) (id : ℤ) :
    getEnvValue (envpPtrs (hookRun p inst env id)) keyProxyPath =
      (getEnvValue (envpPtrs env) keyProxyPath).or (some inst.exe) :=
  getEnvValue_hookRun p inst env id (by decide) (find?_appended_proxyPath p inst id)

lemma commandId_hookRun (env : List Str) (id : ℤ) :
    getEnvValue (envpPtrs (hookRun p inst env id)) keyCommandId =
      (getEnvValue (envpPtrs env) keyCommandId).or (some (cStr (formatInt id))) := by
  apply getEnvValue_hookRun p inst env id (by decide)
  rw [cStr_of_no_nul (formatInt_no_nul id)]
  exact find?_appended_commandId p inst id

lemma yieldsAppended_iff {key : CString} {value : Str} (env : List Str) (id : ℤ)
    (hvalue : 0 ∉ value)
    (hkey : key.bytes.head? = some 95)
    (happended : (envpPtrs (appended p inst id)).find? (isEntryOf key) =
      some (cStr (entry key.bytes value))) :
    YieldsAppended p inst env id key value ↔ FirstHolds env key value := by
  rw [YieldsAppended, FirstHolds, getEnvValue, getEnvEntry_hookRun p inst env id hkey happended,
    getEnvEntry]
  cases hfound : (envpPtrs env).find? (isEntryOf key) with
  | none =>
    simp only [Option.none_or, Option.map_some, drop_entry (cStr_entry key hvalue), Option.mem_def,
      reduceCtorEq,
      false_implies, implies_true]
  | some current =>
    obtain ⟨held, hheld⟩ := isEntryOf_iff.mp (List.find?_some hfound)
    simp only [Option.some_or, Option.map_some, drop_entry hheld, Option.some.injEq, Option.mem_def,
      forall_eq',
      hheld, entry, List.append_cancel_left_eq, List.cons.injEq, true_and]

lemma inProxy_hookRun (env : List Str) (id : ℤ) :
    inProxy (envpPtrs (hookRun p inst env id)) = false := by
  have hnone : getEnvEntry (envpPtrs (hookRun p inst env id)) catterProxyEnvKey = none := by
    rw [getEnvEntry, List.find?_eq_none]
    intro current hcurrent hentry
    obtain ⟨str, hstr, rfl⟩ := List.mem_map.mp hcurrent
    have hpresent := (List.mem_filter.mp hstr).2
    obtain ⟨value, hvalue⟩ := isEntryOf_iff.mp hentry
    have hprefix : catterProxyEnvKey.bytes <+: str := by
      apply List.IsPrefix.trans _ (List.takeWhile_prefix (· ≠ 0))
      change catterProxyEnvKey.bytes <+: (cStr str).bytes
      rw [hvalue]
      exact List.prefix_append _ _
    rw [List.isPrefixOf_iff_prefix.mpr hprefix] at hpresent
    exact absurd hpresent (by decide)
  rw [inProxy, getEnvValue, hnone]
  rfl

end Catter.Hook
