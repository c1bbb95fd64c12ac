import Catter.Hook.Builder
import Catter.Proxy.Main

/-! The command that the hook builds and the one that catter-proxy reads from it. -/

namespace Catter.Proxy

open Text Library.Region Hook Hook.CmdBuilder

def IsVector (b : CmdBuilder) (strs : List CString) : Prop :=
  (∀ k (h : k < strs.length), ∃ off, b.argv k = some off ∧ Holds b.area off strs[k].stored) ∧
    b.argv strs.length = none

def readVector (strs : List CString) : Launch := readArguments (strs.map CString.bytes)

def withParent (selfId : CString) (launch : ℤ → Launch) : Launch :=
  match stoi selfId.bytes with
  | .error why => .badParent why
  | .ok parent => launch parent

-- The builder was `fresh`, has become `b` by earlier calls and is `b'` after the call.
structure AllOrNothing (p : Platform) (proxy selfId path : CString) (args : List CString)
    (fresh b b' : CmdBuilder) (result : Command) : Prop where
  earlier : Keeps p fresh b
  keeps : Keeps p b b'
  own : result = .own (some 0)
  executable : Holds b'.area 0 proxy.stored
  whole : Room p proxy selfId path args →
    IsVector b' ([proxy, parentFlag, selfId, commandMark, path] ++ args) ∧
      readVector ([proxy, parentFlag, selfId, commandMark, path] ++ args) =
        withParent selfId fun parent => .command parent path.bytes (args.map CString.bytes)
  nothing : ¬ Room p proxy selfId path args →
    ∃ msg : CString, errorPrefix.bytes <+: msg.bytes ∧
      IsVector b' [proxy, parentFlag, selfId, msg] ∧
      readVector [proxy, parentFlag, selfId, msg] = withParent selfId fun parent =>
        .hookError parent msg.bytes

lemma isVector_of_laid {b : CmdBuilder} {strs : List CString} (h : Laid b.area b.argv 0 0 strs)
    (hnull : b.argv strs.length = none) : IsVector b strs := by
  refine ⟨?_, hnull⟩
  intro k hk
  have hget := h.get k hk
  rwa [Nat.zero_add] at hget

lemma readVector_command (proxy selfId path : CString) (args : List CString) :
    readVector ([proxy, parentFlag, selfId, commandMark, path] ++ args) =
      withParent selfId fun parent => .command parent path.bytes (args.map CString.bytes) := by
  simp only [readVector, withParent, List.cons_append, List.nil_append, List.map_cons,
    readArguments]
  rw [if_neg (by decide)]
  cases stoi selfId.bytes with
  | error why => rfl
  | ok parent =>
    simp only
    rw [if_neg (by decide)]
    rfl

lemma readVector_error (proxy selfId : CString) {msg : CString}
    (h : errorPrefix.bytes <+: msg.bytes) :
    readVector [proxy, parentFlag, selfId, msg] =
      withParent selfId fun parent => .hookError parent msg.bytes := by
  have hmark : msg.bytes ≠ lit "--" := by
    intro he
    rw [he] at h
    exact absurd h (by decide)
  simp only [readVector, withParent, List.map_cons, List.map_nil, readArguments]
  rw [if_neg (by decide)]
  cases stoi selfId.bytes with
  | error why => rfl
  | ok parent =>
    simp only
    rw [if_pos hmark]

lemma flatMap_no_nul (strs : List CString) : 0 ∉ strs.flatMap CString.bytes := by
  intro h
  obtain ⟨s, -, hs⟩ := List.mem_flatMap.mp h
  exact s.no_nul hs

lemma proxyStr_isVector {p : Platform} {proxy selfId : CString} {b : CmdBuilder}
    (hb : Built proxy selfId b)
    (path : CString) (argvIn : List CString) (hroom : Room p proxy selfId path argvIn.tail) :
    ∃ b', proxyStr p b path argvIn = (b', .own b.executablePathPtr) ∧ Keeps p b b' ∧
      IsVector b' ([proxy, parentFlag, selfId, commandMark, path] ++ argvIn.tail) := by
  obtain ⟨b', hproxy, hkeeps, hlaid, hnull⟩ := proxyStr_fits hb path argvIn hroom
  have hb' := hb.keeps hkeeps
  refine ⟨b', hproxy, hkeeps, ?_⟩
  apply isVector_of_laid
  · rw [hb.append] at hlaid
    change Laid b'.area b'.argv 0 0 (baseArgs proxy selfId ++ commandMark :: path :: argvIn.tail)
    apply laid_append hb'.args
    rwa [Nat.zero_add, Nat.zero_add]
  · rw [← hnull, List.length_append]
    rfl

lemma proxyStr_reports {p : Platform} {proxy selfId : CString} {b : CmdBuilder}
    (hb : Built proxy selfId b)
    (hfits : Fits p proxy selfId) (path : CString) (argvIn : List CString)
    (hpath : path.bytes.length < p.pathMax)
    (hroom : ¬ Room p proxy selfId path argvIn.tail) :
    ∃ (b' : CmdBuilder) (msg : CString), proxyStr p b path argvIn = (b', .own b.executablePathPtr) ∧
      errorPrefix.bytes <+: msg.bytes ∧ IsVector b' [proxy, parentFlag, selfId, msg] := by
  have hkeeps := proxyStr_keeps hb hfits path argvIn
  obtain ⟨b', hproxy, hslot, hnull, hholds⟩ := proxyStr_overflows hb hfits path argvIn hpath hroom
  rw [hproxy] at hkeeps
  let msg : CString := ⟨(errorTexts overflowMsg path none).flatMap CString.bytes, flatMap_no_nul _⟩
  refine ⟨b', msg, hproxy, List.prefix_append _ _, ?_⟩
  apply isVector_of_laid
  · change Laid b'.area b'.argv 0 0 (baseArgs proxy selfId ++ [msg])
    apply laid_append (hb.keeps hkeeps).args
    rw [hb.append] at hslot hholds
    rw [Nat.zero_add, Nat.zero_add]
    exact ⟨hslot, hholds, trivial⟩
  · exact hnull

lemma IsVector.unique {b : CmdBuilder} {strs strs' : List CString} (h : IsVector b strs)
    (h' : IsVector b strs') :
    strs = strs' := by
  have hnot {strs strs' : List CString} (h : IsVector b strs) (h' : IsVector b strs') :
      ¬ strs.length < strs'.length := by
    intro hlt
    obtain ⟨off, hslot, -⟩ := h'.1 strs.length hlt
    rw [h.2] at hslot
    exact absurd hslot (by simp)
  apply List.ext_getElem
  · exact le_antisymm (not_lt.mp (hnot h' h)) (not_lt.mp (hnot h h'))
  · intro k hk hk'
    obtain ⟨off, hslot, hholds⟩ := h.1 k hk
    obtain ⟨off', hslot', hholds'⟩ := h'.1 k hk'
    rw [hslot, Option.some.injEq] at hslot'
    subst hslot'
    exact CString.ext (hholds.unique hholds' strs[k].no_nul strs'[k].no_nul)

theorem proxy_str_all_or_nothing (p : Platform) (outside : Memory) (outsideSlots : ℕ → Option ℕ)
    (proxy selfId : CString) (hfits : Fits p proxy selfId) (history : List Call) (path : CString)
    (hpath : path.bytes.length < p.pathMax) (arg0 : CString) (args : List CString) :
    AllOrNothing p proxy selfId path args
      (construct p outside outsideSlots (some proxy) (some selfId))
      (runAll p (construct p outside outsideSlots (some proxy) (some selfId)) history)
      (proxyStr p (runAll p (construct p outside outsideSlots (some proxy) (some selfId)) history)
        path
        (arg0 :: args)).1
      (proxyStr p (runAll p (construct p outside outsideSlots (some proxy) (some selfId)) history)
        path
        (arg0 :: args)).2 := by
  have hfresh := construct_built outside outsideSlots hfits
  generalize construct p outside outsideSlots (some proxy) (some selfId) = fresh at hfresh ⊢
  have hearlier := runAll_keeps hfresh hfits history
  generalize runAll p fresh history = b at hearlier ⊢
  have hb := hfresh.keeps hearlier
  have hkeeps := proxyStr_keeps hb hfits path (arg0 :: args)
  have hb' := hb.keeps hkeeps
  constructor
  · exact hearlier
  · exact hkeeps
  · by_cases hroom : Room p proxy selfId path args
    · obtain ⟨b', hproxy, -⟩ := proxyStr_fits hb path (arg0 :: args) hroom
      rw [hproxy, hb.path]
    · obtain ⟨b', hproxy, -⟩ := proxyStr_overflows hb hfits path (arg0 :: args) hpath hroom
      rw [hproxy, hb.path]
  · exact hb'.args.2.1
  · intro hroom
    refine ⟨?_, readVector_command proxy selfId path args⟩
    obtain ⟨b', hproxy, -, hvector⟩ := proxyStr_isVector hb path (arg0 :: args) hroom
    rw [hproxy]
    exact hvector
  · intro hroom
    obtain ⟨b', msg, hproxy, hprefix, hvector⟩ :=
      proxyStr_reports hb hfits path (arg0 :: args) hpath hroom
    rw [hproxy]
    exact ⟨msg, hprefix, hvector, readVector_error proxy selfId hprefix⟩

theorem proxy_str_all_or_nothing_linux :
    AllOrNothing .linux ⟨lit "/opt/catter-proxy", by decide⟩ ⟨lit "7", by decide⟩
      ⟨lit "/bin/cc", by decide⟩
      [⟨lit "-c", by decide⟩]
      (construct .linux (fun _ => 1) (fun _ => none) (some ⟨lit "/opt/catter-proxy", by decide⟩)
        (some ⟨lit "7", by decide⟩))
      (runAll .linux (construct .linux (fun _ => 1)
        (fun _ => none) (some ⟨lit "/opt/catter-proxy", by decide⟩)
        (some ⟨lit "7", by decide⟩)) [.error overflowMsg blank none])
      (proxyStr .linux (runAll .linux (construct .linux (fun _ => 1) (fun _ => none)
        (some ⟨lit "/opt/catter-proxy", by decide⟩) (some ⟨lit "7", by decide⟩))
          [.error overflowMsg blank none])
        ⟨lit "/bin/cc", by decide⟩ [⟨lit "cc", by decide⟩, ⟨lit "-c", by decide⟩]).1
      (proxyStr .linux (runAll .linux (construct .linux (fun _ => 1) (fun _ => none)
        (some ⟨lit "/opt/catter-proxy", by decide⟩) (some ⟨lit "7", by decide⟩))
          [.error overflowMsg blank none])
        ⟨lit "/bin/cc", by decide⟩ [⟨lit "cc", by decide⟩, ⟨lit "-c", by decide⟩]).2 :=
  proxy_str_all_or_nothing .linux (fun _ => 1) (fun _ => none) ⟨lit "/opt/catter-proxy", by decide⟩
    ⟨lit "7", by decide⟩ (by unfold Fits; decide) [.error overflowMsg blank none]
      ⟨lit "/bin/cc", by decide⟩
    (by decide) ⟨lit "cc", by decide⟩ [⟨lit "-c", by decide⟩]

end Catter.Proxy
