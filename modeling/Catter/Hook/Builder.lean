import Catter.Hook.Vector

/-! The invariant of a builder: its first three arguments stay, whatever was built before. -/

namespace Catter.Hook

open Text Library.Region

namespace CmdBuilder

variable (p : Platform)

def textSize (strs : List CString) : ℕ := (strs.map fun s => s.bytes.length).sum

lemma pushAll_fits (buf : Buffer) (area : Memory) (strs : List CString)
    (hroom : buf.top + textSize strs ≤ buf.end_) :
    ∃ area', pushAll buf area strs = (area', { buf with top := buf.top + textSize strs }) ∧
      Holds area' buf.top (strs.flatMap CString.bytes) ∧
      SameOutside buf.top (buf.top + textSize strs) area area' := by
  induction strs generalizing buf area with
  | nil => exact ⟨area, rfl, holds_nil _ _, SameOutside.refl _ _ _⟩
  | cons s strs ih =>
    have hsize : textSize (s :: strs) = s.bytes.length + textSize strs := by simp [textSize]
    rw [hsize] at hroom
    obtain ⟨area', hpush, hholds, hsame⟩ := Buffer.push_fits (b := buf) s area (by omega)
    obtain ⟨area'', hrest, hheld, hsame'⟩ :=
      ih { buf with top := buf.top + s.bytes.length } area' (by simp only; omega)
    simp only at hrest hheld hsame'
    refine ⟨area'', ?_, ?_, ?_⟩
    · rw [pushAll, hpush, hsize, ← Nat.add_assoc]
      exact hrest
    · rw [List.flatMap_cons, holds_append]
      exact ⟨hholds.frame hsame' (Or.inl le_rfl), hheld⟩
    · rw [hsize]
      apply SameOutside.trans (hsame.mono le_rfl (by omega))
      exact hsame'.mono (by omega) (by omega)

lemma pushAll_frame (buf : Buffer) (area : Memory) (strs : List CString)
    (hle : buf.top ≤ buf.end_) :
    ∃ area' top, pushAll buf area strs = (area', { buf with top }) ∧ buf.top ≤ top ∧
      top ≤ buf.end_ ∧
      SameOutside buf.top buf.end_ area area' := by
  induction strs generalizing buf area with
  | nil => exact ⟨area, buf.top, rfl, le_rfl, hle, SameOutside.refl _ _ _⟩
  | cons s strs ih =>
    by_cases hfits : buf.top + s.bytes.length ≤ buf.end_
    · obtain ⟨area', hpush, -, hsame⟩ := Buffer.push_fits s area hfits
      obtain ⟨area'', top, hrest, hlow, hhigh, hsame'⟩ :=
        ih { buf with top := buf.top + s.bytes.length } area' hfits
      simp only at hrest hlow hhigh hsame'
      refine ⟨area'', top, ?_, by omega, hhigh, ?_⟩
      · rw [pushAll, hpush]
        exact hrest
      · apply SameOutside.trans (hsame.mono le_rfl hfits)
        exact hsame'.mono (by omega) le_rfl
    · obtain ⟨area', hpush, hsame⟩ := Buffer.push_overflows s area hle (by omega)
      obtain ⟨area'', top, hrest, hlow, hhigh, hsame'⟩ := ih buf area' hle
      refine ⟨area'', top, ?_, hlow, hhigh, hsame.trans hsame'⟩
      rw [pushAll, hpush]
      exact hrest

/-! The invariant. -/

def baseArgs (proxy selfId : CString) : List CString := [proxy, parentFlag, selfId]

structure Built (proxy selfId : CString) (b : CmdBuilder) : Prop where
  append : b.appendPtr = size (baseArgs proxy selfId)
  slots : b.appendArgvPtr = 3
  path : b.executablePathPtr = some 0
  args : Laid b.area b.argv 0 0 (baseArgs proxy selfId)

variable {p}

lemma Built.keeps {proxy selfId : CString} {b b' : CmdBuilder} (hb : Built proxy selfId b)
    (h : Keeps p b b') :
    Built proxy selfId b' := by
  constructor
  · rw [h.appendPtr, hb.append]
  · rw [h.appendArgvPtr, hb.slots]
  · rw [h.executablePathPtr, hb.path]
  · apply hb.args.frame h.area h.argv
    · rw [hb.append, Nat.zero_add]
    · exact hb.slots.ge

-- What `session::persist` has room for.
def Fits (p : Platform) (proxy selfId : CString) : Prop :=
  proxy.stored.length + selfId.stored.length ≤ 2 * p.pathMax

lemma pathMax_ge (p : Platform) : 1024 ≤ p.pathMax := by
  cases p <;> decide

lemma construct_built (outside : Memory) (outsideSlots : ℕ → Option ℕ) {proxy selfId : CString}
    (hfits : Fits p proxy selfId) :
    Built proxy selfId (construct p outside outsideSlots (some proxy) (some selfId)) := by
  have hmax := pathMax_ge p
  have hflag : parentFlag.stored.length = 3 := rfl
  have hempty : emptyText.stored.length = 1 := rfl
  have hbuf : p.bufSize = p.pathMax * 100 := rfl
  have hargc : p.maxArgc = p.pathMax := rfl
  have hsize : size (baseArgs proxy selfId) =
      proxy.stored.length + parentFlag.stored.length + selfId.stored.length := by
    simp [baseArgs, Nat.add_assoc]
  have hlength : (baseArgs proxy selfId).length = 3 := rfl
  unfold Fits at hfits
  let fresh : CmdBuilder :=
    { area := fun k => if k < p.bufSize then 0 else outside k
      argv := fun k => if k < p.maxArgc then none else outsideSlots k
      appendPtr := 0
      appendArgvPtr := 0
      executablePathPtr := none }
  have hslot : fresh.appendArgvPtr = 0 := rfl
  obtain ⟨area, argv, hstore, hlaid, hsame, -⟩ :=
    storeArgs_fits p fresh ⟨0, p.bufSize⟩ (baseArgs proxy selfId)
    (by omega) (by simp only; omega)
  obtain ⟨area', hend, hheld, hsame'⟩ := Buffer.store_fits emptyText area
    (b := ⟨0 + size (baseArgs proxy selfId), p.bufSize⟩) (by simp only; omega)
  obtain ⟨b₁, buf₁, hfirst, hrest⟩ := storeArgs_cons p hstore
  obtain ⟨b₂, buf₂, hsecond, hrest⟩ := storeArgs_cons p hrest
  obtain ⟨b₃, buf₃, hthird, hrest⟩ := storeArgs_cons p hrest
  rw [storeArgs, Prod.mk.injEq, Prod.mk.injEq] at hrest
  obtain ⟨rfl, rfl, -⟩ := hrest
  have hbuilt : construct p outside outsideSlots (some proxy) (some selfId) =
      { fresh with area := area', argv, appendPtr := 0 + size (baseArgs proxy selfId),
                   appendArgvPtr := fresh.appendArgvPtr + (baseArgs proxy selfId).length,
                   executablePathPtr := some 0 } := by
    simp only [construct, constructArgs, fresh] at hfirst ⊢
    rw [hfirst]
    simp only
    rw [hsecond]
    simp only
    rw [hthird]
    simp only [hend]
    rfl
  rw [hbuilt]
  refine ⟨Nat.zero_add _, rfl, rfl, ?_⟩
  apply hlaid.frame hsame' (SameOutside.refl 3 3 argv)
  · exact le_rfl
  · exact le_rfl

lemma Built.append_le {proxy selfId : CString} {b : CmdBuilder} (hb : Built proxy selfId b)
    (hfits : Fits p proxy selfId) : b.appendPtr ≤ 2 * p.pathMax + 3 := by
  have hflag : parentFlag.stored.length = 3 := rfl
  have hsize : size (baseArgs proxy selfId) =
      proxy.stored.length + (parentFlag.stored.length + selfId.stored.length) := by
    simp [baseArgs]
  unfold Fits at hfits
  rw [hb.append, hsize]
  omega

section Calls

variable {proxy selfId : CString} {b : CmdBuilder} (hb : Built proxy selfId b)
    (hfits : Fits p proxy selfId)
include hb hfits

lemma Built.append_le_bufSize : b.appendPtr ≤ p.bufSize := by
  have hle := hb.append_le hfits
  have hmax := pathMax_ge p
  have hbuf : p.bufSize = p.pathMax * 100 := rfl
  omega

/-! The error command. -/

lemma errorStr_keeps (msg path : CString) (argvIn : Option (List CString)) :
    Keeps p b (errorStr p b msg path argvIn).1 := by
  have hmax := pathMax_ge p
  have hargc : p.maxArgc = p.pathMax := rfl
  have hslots := hb.slots
  obtain ⟨area, top, hpush, hlow, hhigh, hsame⟩ :=
    pushAll_frame ⟨b.appendPtr, p.bufSize⟩ b.area (errorTexts msg path argvIn)
      (hb.append_le_bufSize hfits)
  simp only at hlow hhigh hsame
  by_cases hroom : top + emptyText.stored.length ≤ p.bufSize
  · obtain ⟨area', hstore, -, hsame'⟩ :=
      Buffer.store_fits (b := ⟨top, p.bufSize⟩) emptyText area hroom
    rw [errorStr, hpush]
    simp only [hstore]
    refine ⟨hsame.trans (hsame'.mono hlow hroom), ?_, rfl, rfl, rfl⟩
    apply (sameOutside_update b.argv _ le_rfl (by omega)).trans
    exact sameOutside_update _ _ (by omega) (by omega)
  · obtain ⟨area', hstore, hsame'⟩ :=
      Buffer.store_overflows (b := ⟨top, p.bufSize⟩) emptyText area hhigh (by simp only; omega)
    rw [errorStr, hpush]
    simp only [hstore]
    exact ⟨hsame.trans (hsame'.mono hlow le_rfl), SameOutside.refl _ _ _, rfl, rfl, rfl⟩

omit hfits in
lemma errorStr_fits (msg path : CString) (argvIn : Option (List CString))
    (hroom : b.appendPtr + textSize (errorTexts msg path argvIn) + 1 ≤ p.bufSize) :
    ∃ b', errorStr p b msg path argvIn = (b', .own b.executablePathPtr) ∧
      b'.argv 3 = some b.appendPtr ∧
      b'.argv 4 = none ∧
      Holds b'.area b.appendPtr ((errorTexts msg path argvIn).flatMap CString.bytes ++ [0]) := by
  have hslots := hb.slots
  have hlength : ((errorTexts msg path argvIn).flatMap CString.bytes).length =
      textSize (errorTexts msg path argvIn) := by
    rw [List.length_flatMap, textSize]
  obtain ⟨area, hpush, hholds, -⟩ :=
    pushAll_fits ⟨b.appendPtr, p.bufSize⟩ b.area (errorTexts msg path argvIn) (by simp only; omega)
  obtain ⟨area', hstore, hend, hsame⟩ :=
    Buffer.store_fits (b := ⟨b.appendPtr + textSize (errorTexts msg path argvIn), p.bufSize⟩)
      emptyText area hroom
  simp only at hholds hend hsame
  let argv := Function.update (Function.update b.argv b.appendArgvPtr (some b.appendPtr))
    (b.appendArgvPtr + 1) none
  have herror : errorStr p b msg path argvIn =
      ({ b with area := area', argv }, .own b.executablePathPtr) := by
    rw [errorStr, hpush]
    simp only [hstore]
    rfl
  refine ⟨_, herror, ?_, ?_, ?_⟩
  · simp [argv, hslots]
  · simp [argv, hslots]
  · rw [holds_append, hlength]
    exact ⟨hholds.frame hsame (Or.inl (by rw [hlength])), hend⟩

/-! The proxy command. -/

def Room (p : Platform) (proxy selfId path : CString) (args : List CString) : Prop :=
  5 + args.length ≤ p.maxArgc - 1 ∧
    size (baseArgs proxy selfId ++ commandMark :: path :: args) ≤ p.bufSize

omit hb hfits in
lemma room_iff (hb : Built proxy selfId b) (path : CString) (args : List CString) :
    Room p proxy selfId path args ↔
      b.appendArgvPtr + (commandMark :: path :: args).length ≤ p.maxArgc - 1 ∧
        b.appendPtr + size (commandMark :: path :: args) ≤ p.bufSize := by
  rw [Room, size_append, hb.append, hb.slots, List.length_cons, List.length_cons]
  omega

omit hfits in
lemma proxyStr_fits (path : CString) (argvIn : List CString)
    (hroom : Room p proxy selfId path argvIn.tail) :
    ∃ b', proxyStr p b path argvIn = (b', .own b.executablePathPtr) ∧ Keeps p b b' ∧
      Laid b'.area b'.argv 3 b.appendPtr (commandMark :: path :: argvIn.tail) ∧
      b'.argv (5 + argvIn.tail.length) = none := by
  have hslots := hb.slots
  have hlength : (commandMark :: path :: argvIn.tail).length = argvIn.tail.length + 2 := rfl
  have hargc : 1 ≤ p.maxArgc := by
    have hmax := pathMax_ge p
    have hargc : p.maxArgc = p.pathMax := rfl
    omega
  obtain ⟨hpointers, htexts⟩ := (room_iff hb path argvIn.tail).mp hroom
  obtain ⟨area, argv, hstore, hlaid, harea, hargv⟩ :=
    storeArgs_fits p b ⟨b.appendPtr, p.bufSize⟩ (commandMark :: path :: argvIn.tail)
      hpointers htexts
  simp only at hlaid harea
  have hend : b.appendArgvPtr + (commandMark :: path :: argvIn.tail).length =
    5 + argvIn.tail.length := by omega
  let argv' := Function.update argv (5 + argvIn.tail.length) none
  have hnull : SameOutside (5 + argvIn.tail.length) (6 + argvIn.tail.length) argv argv' :=
    sameOutside_update argv none le_rfl (by omega)
  have hproxy : proxyStr p b path argvIn =
      ({ b with area, argv := argv' }, .own b.executablePathPtr) := by
    rw [proxyStr, hstore]
    simp only [hend]
    rfl
  refine ⟨_, hproxy, ⟨harea.mono le_rfl htexts, ?_, rfl, rfl, rfl⟩, ?_, Function.update_self _ _ _⟩
  · apply (hargv.mono le_rfl (by omega)).trans
    exact hnull.mono (by omega) (by omega)
  · rw [hslots] at hlaid
    apply hlaid.frame (SameOutside.refl (b.appendPtr + size _) 0 area) hnull le_rfl
    omega

lemma proxyStr_rolls_back (path : CString) (argvIn : List CString)
    (hroom : ¬ Room p proxy selfId path argvIn.tail) :
    ∃ area argv, proxyStr p b path argvIn = errorStr p { b with area, argv } overflowMsg path none ∧
      Keeps p b { b with area, argv } := by
  have hmax := pathMax_ge p
  have hargc : p.maxArgc = p.pathMax := rfl
  have hslots := hb.slots
  rw [room_iff hb] at hroom
  obtain ⟨area, argv, slot, buf', hstore, harea, hargv⟩ :=
    storeArgs_overflows p b ⟨b.appendPtr, p.bufSize⟩ (commandMark :: path :: argvIn.tail)
      (hb.append_le_bufSize hfits) hroom (by omega)
  refine ⟨area, argv, ?_, harea, hargv, rfl, rfl, rfl⟩
  rw [proxyStr, hstore]

lemma proxyStr_overflows (path : CString) (argvIn : List CString)
    (hpath : path.bytes.length < p.pathMax)
    (hroom : ¬ Room p proxy selfId path argvIn.tail) :
    ∃ b', proxyStr p b path argvIn = (b', .own b.executablePathPtr) ∧
      b'.argv 3 = some b.appendPtr ∧ b'.argv 4 = none ∧
      Holds b'.area b.appendPtr ((errorTexts overflowMsg path none).flatMap CString.bytes ++
        [0]) := by
  have hmax := pathMax_ge p
  have hbuf : p.bufSize = p.pathMax * 100 := rfl
  have hle := hb.append_le hfits
  have hfixed : textSize [errorPrefix, blank, overflowMsg, inExecuting] ≤ 100 := by decide
  have htexts : textSize (errorTexts overflowMsg path none) =
      textSize [errorPrefix, blank, overflowMsg, inExecuting] + path.bytes.length := by
    simp [textSize, errorTexts, Nat.add_assoc]
  obtain ⟨area, argv, hrolled, hkept⟩ := proxyStr_rolls_back hb hfits path argvIn hroom
  rw [hrolled]
  apply errorStr_fits (p := p) (hb.keeps hkept) overflowMsg path none
  simp only
  omega

lemma proxyStr_keeps (path : CString) (argvIn : List CString) :
    Keeps p b (proxyStr p b path argvIn).1 := by
  by_cases hroom : Room p proxy selfId path argvIn.tail
  · obtain ⟨b', hproxy, hkeeps, -⟩ := proxyStr_fits hb path argvIn hroom
    rw [hproxy]
    exact hkeeps
  · obtain ⟨area, argv, hrolled, hkept⟩ := proxyStr_rolls_back hb hfits path argvIn hroom
    rw [hrolled]
    exact hkept.trans (errorStr_keeps (hb.keeps hkept) hfits overflowMsg path none)

lemma run_keeps (call : Call) : Keeps p b (run p b call).1 := by
  cases call with
  | proxy path argvIn => exact proxyStr_keeps hb hfits path argvIn
  | error msg path argvIn => exact errorStr_keeps hb hfits msg path argvIn

lemma runAll_keeps (history : List Call) : Keeps p b (runAll p b history) := by
  induction history generalizing b with
  | nil => exact Keeps.refl p b
  | cons call history ih =>
    have hkeeps := run_keeps hb hfits call
    exact hkeeps.trans (ih (hb.keeps hkeeps))

end Calls

end CmdBuilder

end Catter.Hook
