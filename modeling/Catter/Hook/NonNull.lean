import Catter.Hook.Executor

/-! When the command that the executor hands over has a path and two arguments. -/

namespace Catter.Hook

open Text Library.Region

-- A text of `n` bytes moves the mark if there is room for it, and is left out if not.
def fill (end_ top n : ℕ) : ℕ := if top + n ≤ end_ then top + n else top

def fillAll (end_ top : ℕ) (lengths : List ℕ) : ℕ := lengths.foldl (fill end_) top

lemma fillAll_cons (end_ top n : ℕ) (lengths : List ℕ) :
    fillAll end_ top (n :: lengths) = fillAll end_ (fill end_ top n) lengths := rfl

lemma fillAll_append (end_ top : ℕ) (lengths lengths' : List ℕ) :
    fillAll end_ top (lengths ++ lengths') = fillAll end_ (fillAll end_ top lengths) lengths' :=
  List.foldl_append

lemma fill_le {end_ top : ℕ} (n : ℕ) (h : top ≤ end_) : fill end_ top n ≤ end_ := by
  unfold fill
  split_ifs <;> omega

lemma fillAll_le {end_ top : ℕ} (lengths : List ℕ) (h : top ≤ end_) :
    fillAll end_ top lengths ≤ end_ := by
  induction lengths generalizing top with
  | nil => exact h
  | cons n lengths ih => exact ih (fill_le n h)

lemma fillAll_le_sum (end_ top : ℕ) (lengths : List ℕ) :
    fillAll end_ top lengths ≤ top + lengths.sum := by
  induction lengths generalizing top with
  | nil => exact le_rfl
  | cons n lengths ih =>
    have hfirst : fill end_ top n ≤ top + n := by
      unfold fill
      split_ifs <;> omega
    have hrest := ih (fill end_ top n)
    rw [fillAll_cons, List.sum_cons]
    omega

namespace CmdBuilder

variable (p : Platform)

-- Where the constructor sets `append_ptr`, unless nothing is left there.
def startOf (proxyPath selfId : Option CString) : ℕ :=
  fillAll p.bufSize 0 ((proxyPath.toList ++ [parentFlag] ++ selfId.toList).map fun s =>
    s.stored.length)

def errorEnd (proxyPath selfId : Option CString) (path : CString) (argv : Argv) : ℕ :=
  fillAll p.bufSize (startOf p proxyPath selfId)
    ((errorTexts invalidSession path (some argv.read)).map fun s => s.bytes.length)

def SlotsFilled (b : CmdBuilder) : Prop := ∀ k < b.appendArgvPtr, (b.argv k).isSome

structure Stores (b b' : CmdBuilder) (buf buf' : Buffer) (str : Option CString)
    (stored : Option ℕ) : Prop where
  top : buf'.top = fillAll buf.end_ buf.top (str.toList.map fun s => s.stored.length)
  end_ : buf'.end_ = buf.end_
  slots : b'.appendArgvPtr = b.appendArgvPtr + if stored.isSome then 1 else 0
  filled : SlotsFilled b → SlotsFilled b'
  stored_iff : stored.isSome ↔ ∃ s ∈ str, buf.top + s.stored.length ≤ buf.end_

lemma storeArg_stores (b : CmdBuilder) (buf : Buffer) (str : Option CString)
    (hle : buf.top ≤ buf.end_)
    (hslot : b.appendArgvPtr < p.maxArgc - 1) :
    ∃ b' buf' stored, storeArg p b buf str = (b', buf', stored) ∧
      Stores b b' buf buf' str stored := by
  cases str with
  | none =>
    refine ⟨b, buf, none, ?_, rfl, rfl, rfl, id, by simp⟩
    rw [storeArg, if_neg (by omega)]
    rfl
  | some s =>
    by_cases hroom : buf.top + s.stored.length ≤ buf.end_
    · obtain ⟨area, hstore, -, -⟩ := storeArg_fits p b buf s hslot hroom
      refine ⟨_, _, _, hstore, ?_, rfl, rfl, ?_, by simpa using hroom⟩
      · exact (if_pos hroom).symm
      · intro hfilled k hk
        by_cases hlast : k = b.appendArgvPtr
        · simp only [hlast, Function.update_self, Option.isSome_some]
        · simp only [ne_eq, hlast, not_false_eq_true, Function.update_of_ne]
          apply hfilled k
          simp only at hk
          omega
    · obtain ⟨area, hstore, -⟩ := storeArg_overflows p b buf s hle fun h => hroom h.2
      refine ⟨_, _, _, hstore, ?_, rfl, rfl, id, by simpa using hroom⟩
      exact (if_neg hroom).symm

/-! The constructor. -/

structure Constructed (proxyPath selfId : Option CString) (b : CmdBuilder) : Prop where
  append : b.appendPtr = startOf p proxyPath selfId
  filled : SlotsFilled b
  slots : b.executablePathPtr.isSome → 1 ≤ b.appendArgvPtr
  path_iff : b.executablePathPtr.isSome ↔ ∃ proxy ∈ proxyPath, proxy.stored.length ≤ p.bufSize

lemma constructArgs_stores (outside : Memory) (outsideSlots : ℕ → Option ℕ)
    (proxyPath selfId : Option CString) :
    ∃ b top stored, constructArgs p outside outsideSlots proxyPath selfId =
      (b, ⟨top, p.bufSize⟩, stored) ∧
      top = startOf p proxyPath selfId ∧ SlotsFilled b ∧ (stored.isSome → 1 ≤ b.appendArgvPtr) ∧
      (stored.isSome ↔ ∃ proxy ∈ proxyPath, proxy.stored.length ≤ p.bufSize) := by
  have hmax := pathMax_ge p
  have hargc : p.maxArgc = p.pathMax := rfl
  let fresh : CmdBuilder :=
    { area := fun k => if k < p.bufSize then 0 else outside k
      argv := fun k => if k < p.maxArgc then none else outsideSlots k
      appendPtr := 0
      appendArgvPtr := 0
      executablePathPtr := none }
  have hfresh : fresh.appendArgvPtr = 0 := rfl
  have hslot (stored : Option ℕ) : (if stored.isSome then 1 else 0) ≤ 1 := by split_ifs <;> omega
  obtain ⟨b₁, buf₁, stored₁, hstore₁, h₁⟩ :=
    storeArg_stores p fresh ⟨0, p.bufSize⟩ proxyPath (Nat.zero_le _) (by omega)
  have hle₁ : buf₁.top ≤ buf₁.end_ := by
    rw [h₁.top, h₁.end_]
    exact fillAll_le _ (Nat.zero_le _)
  have hslots₁ := h₁.slots
  have hstored₁ := hslot stored₁
  obtain ⟨b₂, buf₂, stored₂, hstore₂, h₂⟩ :=
    storeArg_stores p b₁ buf₁ (some parentFlag) hle₁ (by omega)
  have hle₂ : buf₂.top ≤ buf₂.end_ := by
    rw [h₂.top, h₂.end_]
    exact fillAll_le _ hle₁
  have hslots₂ := h₂.slots
  have hstored₂ := hslot stored₂
  obtain ⟨b₃, buf₃, stored₃, hstore₃, h₃⟩ := storeArg_stores p b₂ buf₂ selfId hle₂ (by omega)
  have hslots₃ := h₃.slots
  refine ⟨b₃, buf₃.top, stored₁, ?_, ?_, ?_, ?_, ?_⟩
  · have hend : buf₃ = ⟨buf₃.top, p.bufSize⟩ := by
      have : buf₃.end_ = p.bufSize := by rw [h₃.end_, h₂.end_, h₁.end_]
      rw [← this]
    simp only [constructArgs, fresh] at hstore₁ ⊢
    rw [hstore₁]
    simp only
    rw [hstore₂]
    simp only
    rw [hstore₃, ← hend]
  · rw [h₃.top, h₂.top, h₁.top, h₂.end_, h₁.end_, startOf, List.map_append, List.map_append,
      fillAll_append,
      fillAll_append]
    rfl
  · apply h₃.filled
    apply h₂.filled
    apply h₁.filled
    intro k hk
    exact absurd hk (Nat.not_lt_zero k)
  · intro hsome
    rw [if_pos hsome] at hslots₁
    omega
  · rw [h₁.stored_iff]
    simp only [Nat.zero_add]

lemma construct_constructed (outside : Memory) (outsideSlots : ℕ → Option ℕ)
    (proxyPath selfId : Option CString) :
    appendNull p outside outsideSlots proxyPath selfId = true ∧
      p.bufSize ≤ startOf p proxyPath selfId ∨
      appendNull p outside outsideSlots proxyPath selfId = false ∧ startOf p proxyPath selfId <
        p.bufSize ∧
        Constructed p proxyPath selfId (construct p outside outsideSlots proxyPath selfId) := by
  obtain ⟨b, top, stored, hargs, rfl, hfilled, hslots, hstored⟩ :=
    constructArgs_stores p outside outsideSlots proxyPath selfId
  have hle : startOf p proxyPath selfId ≤ p.bufSize := fillAll_le _ (Nat.zero_le _)
  have hempty : emptyText.stored.length = 1 := rfl
  by_cases hroom : startOf p proxyPath selfId < p.bufSize
  · obtain ⟨area, hend, -, -⟩ :=
      Buffer.store_fits (b := ⟨startOf p proxyPath selfId, p.bufSize⟩) emptyText b.area
        (by simp only; omega)
    refine Or.inr ⟨?_, hroom, ?_⟩
    · rw [appendNull, hargs]
      simp only [hend, Option.isNone_some]
    · rw [construct, hargs]
      simp only [hend]
      exact ⟨rfl, hfilled, hslots, hstored⟩
  · obtain ⟨area, hend, -⟩ :=
      Buffer.store_overflows (b := ⟨startOf p proxyPath selfId, p.bufSize⟩) emptyText b.area hle
        (by simp only; omega)
    refine Or.inl ⟨?_, by omega⟩
    rw [appendNull, hargs]
    simp only [hend, Option.isNone_none]

lemma appendNull_of_room {proxyPath selfId : Option CString}
    (h : startOf p proxyPath selfId < p.bufSize)
    (outside : Memory) (outsideSlots : ℕ → Option ℕ) :
    appendNull p outside outsideSlots proxyPath selfId = false := by
  rcases construct_constructed p outside outsideSlots proxyPath selfId with ⟨-, hfull⟩
    | ⟨hnull, -, -⟩
  · omega
  · exact hnull

/-! The commands of any builder. -/

lemma pushAll_fillAll (buf : Buffer) (area : Memory) (strs : List CString)
    (hle : buf.top ≤ buf.end_) :
    ∃ area', pushAll buf area strs =
      (area', { buf with top := fillAll buf.end_ buf.top (strs.map fun s => s.bytes.length) }) := by
  induction strs generalizing buf area with
  | nil => exact ⟨area, rfl⟩
  | cons s strs ih =>
    rw [List.map_cons, fillAll_cons, fill]
    split_ifs with hroom
    · obtain ⟨area', hpush, -, -⟩ := Buffer.push_fits s area hroom
      obtain ⟨area'', hrest⟩ := ih { buf with top := buf.top + s.bytes.length } area' hroom
      refine ⟨area'', ?_⟩
      rw [pushAll, hpush]
      exact hrest
    · obtain ⟨area', hpush, -⟩ := Buffer.push_overflows s area hle (by omega)
      obtain ⟨area'', hrest⟩ := ih buf area' hle
      refine ⟨area'', ?_⟩
      rw [pushAll, hpush]
      exact hrest

lemma errorStr_cases (b : CmdBuilder) (msg path : CString) (argvIn : Option (List CString))
    (hle : b.appendPtr ≤ p.bufSize) {last : ℕ}
    (hlast : fillAll p.bufSize b.appendPtr ((errorTexts msg path argvIn).map fun s =>
      s.bytes.length) = last) :
    (last < p.bufSize ∧ ∃ area, errorStr p b msg path argvIn =
        ({ b with
            area
            argv := Function.update (Function.update b.argv b.appendArgvPtr (some b.appendPtr))
              (b.appendArgvPtr + 1) none }, .own b.executablePathPtr)) ∨
      p.bufSize ≤ last ∧ ∃ area, errorStr p b msg path argvIn =
        ({ b with area }, .given path argvIn) := by
  have hempty : emptyText.stored.length = 1 := rfl
  obtain ⟨area, hpush⟩ :=
    pushAll_fillAll ⟨b.appendPtr, p.bufSize⟩ b.area (errorTexts msg path argvIn) hle
  simp only [hlast] at hpush
  by_cases hroom : last < p.bufSize
  · obtain ⟨area', hstore, -, -⟩ :=
      Buffer.store_fits (b := ⟨last, p.bufSize⟩) emptyText area (by simp only; omega)
    refine Or.inl ⟨hroom, area', ?_⟩
    rw [errorStr, hpush]
    simp only [hstore]
  · have hle' : last ≤ p.bufSize := by
      rw [← hlast]
      exact fillAll_le _ hle
    obtain ⟨area', hstore, -⟩ :=
      Buffer.store_overflows (b := ⟨last, p.bufSize⟩) emptyText area hle' (by simp only; omega)
    refine Or.inr ⟨by omega, area', ?_⟩
    rw [errorStr, hpush]
    simp only [hstore]

lemma errorStr_command (b : CmdBuilder) (msg path : CString) (argvIn : Option (List CString)) :
    (errorStr p b msg path argvIn).2 = .own b.executablePathPtr ∨
      (errorStr p b msg path argvIn).2 = .given path argvIn := by
  simp only [errorStr]
  split
  · exact Or.inr rfl
  · exact Or.inl rfl

lemma storeArg_executablePathPtr (b : CmdBuilder) (buf : Buffer) (str : Option CString) :
    (storeArg p b buf str).1.executablePathPtr = b.executablePathPtr := by
  rw [storeArg]
  split_ifs
  · rfl
  · split <;> rfl

lemma storeArgs_executablePathPtr (b : CmdBuilder) (buf : Buffer) (strs : List CString) :
    (storeArgs p b buf strs).1.executablePathPtr = b.executablePathPtr := by
  induction strs generalizing b buf with
  | nil => rfl
  | cons s strs ih =>
    have hfirst := storeArg_executablePathPtr p b buf (some s)
    rw [storeArgs]
    split
    next b' buf' hstore =>
      rw [hstore] at hfirst
      exact hfirst
    next b' buf' stored hstore =>
      rw [hstore] at hfirst
      rw [ih b' buf']
      exact hfirst

lemma proxyStr_command (b : CmdBuilder) (path : CString) (argvIn : List CString) :
    (proxyStr p b path argvIn).2 = .own b.executablePathPtr ∨ (proxyStr p b path argvIn).2 =
      .given path none := by
  have hpath := storeArgs_executablePathPtr p b
    ⟨b.appendPtr, p.bufSize⟩ (commandMark :: path :: argvIn.tail)
  rw [proxyStr]
  split
  next b' buf' hstore =>
    rw [hstore] at hpath
    exact Or.inl (congrArg Command.own hpath)
  next b' buf' hstore =>
    rw [hstore] at hpath
    rw [← hpath]
    exact errorStr_command p _ overflowMsg path none

end CmdBuilder

/-! What the linker is given. -/

def Handed.entry (handed : Handed) (argv : Argv) (k : ℕ) : Bool :=
  match handed.command with
  | .own _ => (handed.builder.argv k).isSome
  | .given _ none => false
  | .given _ (some _) => k < argv.strs.length

structure Handed.NonNull (argv : Argv) (handed : Handed) : Prop where
  path : handed.command.valid = true
  arg0 : handed.entry argv 0 = true
  arg1 : handed.entry argv 1 = true

def Outcome.HandsOver (good : Handed → Prop) : Outcome → Prop
  | failed _ | crash => False
  | linked handed _ => good handed

namespace Session

lemma storeText_some {buf buf' : Buffer} {mem mem' : Memory} {text : Option CString} {s : CString}
    (h : storeText buf mem text = (mem', buf', some s)) (hle : buf.top ≤ buf.end_) :
    text = some s ∧ buf' = { buf with top := buf.top + s.stored.length } ∧
      buf.top + s.stored.length ≤ buf.end_ := by
  cases text with
  | none => simp [storeText, Buffer.store] at h
  | some s' =>
    by_cases hroom : buf.top + s'.stored.length ≤ buf.end_
    · obtain ⟨mem'', hstore⟩ := storeText_fits buf mem s' hroom
      rw [hstore, Prod.mk.injEq, Prod.mk.injEq, Option.some.injEq] at h
      obtain ⟨-, rfl, rfl⟩ := h
      exact ⟨rfl, rfl, hroom⟩
    · obtain ⟨mem'', hstore, -⟩ := Buffer.store_overflows s' mem hle (by omega)
      simp [storeText, hstore] at h

lemma onLoad_fits {p : Platform} {environment : List CString} {proxy selfId : CString}
    (hproxy : (onLoad p environment).proxyPath = some proxy)
    (hself : (onLoad p environment).selfId = some selfId) :
    CmdBuilder.Fits p proxy selfId := by
  rw [onLoad, persist] at hproxy hself
  split_ifs at hproxy hself with hvalid
  · generalize hfirst : storeText ⟨0, p.pathMax * 2⟩ (fun _ => 0) (fromEnv environment).proxyPath =
      first at hproxy hself
    obtain ⟨mem, buf, stored⟩ := first
    simp only at hproxy hself
    subst hproxy
    generalize hsecond : storeText buf mem (fromEnv environment).selfId = second at hself
    obtain ⟨mem', buf', stored'⟩ := second
    simp only at hself
    subst hself
    obtain ⟨-, rfl, hroom⟩ := storeText_some hfirst (Nat.zero_le _)
    obtain ⟨-, -, hroom'⟩ := storeText_some hsecond hroom
    simp only at hroom'
    unfold CmdBuilder.Fits
    omega
  · rw [isValid, hproxy, hself] at hvalid
    simp at hvalid

end Session

namespace Executor

variable {p : Platform} {e : Executor p}

lemma call_handsOver {good : Handed → Prop} {entry : Entry} {argv : Argv} {envp : List CString}
    {path : CString}
    (executable : Resolved p) (hpath : entry.path = some path)
    (hresolved : entry.resolve e.resolver envp path = .ok executable) :
    (e.call entry argv envp).HandsOver good ↔
      CmdBuilder.appendNull p e.outside e.outsideSlots e.session.proxyPath e.session.selfId =
        false ∧
        good ⟨entry.linkerCall, (e.finalCmdOrError path executable.path argv).1,
          (e.finalCmdOrError path executable.path argv).2, envp⟩ := by
  rw [call_eq, hpath]
  simp only [intercept]
  cases hnull :
    CmdBuilder.appendNull p e.outside e.outsideSlots e.session.proxyPath e.session.selfId with
  | true => simp [Outcome.HandsOver]
  | false => simp [hresolved, link, Outcome.HandsOver]

lemma valid_builder {environment : List CString} {proxy selfId : CString}
    (hsession : e.session = Session.onLoad p environment)
    (hproxy : e.session.proxyPath = some proxy)
    (hself : e.session.selfId = some selfId) :
    CmdBuilder.appendNull p e.outside e.outsideSlots e.session.proxyPath e.session.selfId = false ∧
      CmdBuilder.Fits p proxy selfId ∧ CmdBuilder.Built proxy selfId e.cmdBuilder ∧
      ∀ path executable argv, e.finalCmdOrError path executable argv =
        e.cmdBuilder.proxyStr p executable argv.read := by
  have hfits : CmdBuilder.Fits p proxy selfId := by
    rw [hsession] at hproxy hself
    exact Session.onLoad_fits hproxy hself
  have hvalid : e.session.isValid = true := by
    rw [Session.isValid, hproxy, hself]
    rfl
  refine ⟨?_, hfits, ?_, ?_⟩
  · have hmax := CmdBuilder.pathMax_ge p
    have hbuf : p.bufSize = p.pathMax * 100 := rfl
    have hflag : parentFlag.stored.length = 3 := rfl
    have hstart := fillAll_le_sum p.bufSize 0 (([proxy] ++ [parentFlag] ++ [selfId]).map fun s =>
      s.stored.length)
    have hsum : (([proxy] ++ [parentFlag] ++ [selfId]).map fun s => s.stored.length).sum =
        proxy.stored.length + (3 + selfId.stored.length) := by
      simp [hflag]
    rw [hsum] at hstart
    unfold CmdBuilder.Fits at hfits
    rcases CmdBuilder.construct_constructed p e.outside e.outsideSlots e.session.proxyPath
      e.session.selfId with
      ⟨-, hfull⟩ | ⟨hnull, -⟩
    · rw [hproxy, hself, CmdBuilder.startOf] at hfull
      simp only [Option.toList_some] at hfull
      omega
    · exact hnull
  · rw [cmdBuilder, hproxy, hself]
    exact CmdBuilder.construct_built e.outside e.outsideSlots hfits
  · intro path executable argv
    rw [finalCmdOrError, if_pos hvalid]

lemma proxyStr_nonNull {proxy selfId : CString} {b : CmdBuilder}
    (hb : CmdBuilder.Built proxy selfId b)
    (hfits : CmdBuilder.Fits p proxy selfId) (executable : Resolved p) (argvIn : List CString)
    (call : LinkerCall)
    (argv : Argv) (envp : List CString) :
    Handed.NonNull argv ⟨call, (b.proxyStr p executable.path argvIn).1,
      (b.proxyStr p executable.path argvIn).2, envp⟩ := by
  have hown : (b.proxyStr p executable.path argvIn).2 = .own (some 0) := by
    by_cases hroom : CmdBuilder.Room p proxy selfId executable.path argvIn.tail
    · obtain ⟨b', hbuilt, -⟩ := CmdBuilder.proxyStr_fits hb executable.path argvIn hroom
      rw [hbuilt, hb.path]
    · obtain ⟨b', hbuilt, -⟩ :=
        CmdBuilder.proxyStr_overflows hb hfits executable.path argvIn executable.short hroom
      rw [hbuilt, hb.path]
  have hargs := (hb.keeps (CmdBuilder.proxyStr_keeps hb hfits executable.path argvIn)).args
  have hfilled (k : ℕ) (hk : k < 3) : ((b.proxyStr p executable.path argvIn).1.argv k).isSome =
      true := by
    obtain ⟨o, hslot, -⟩ := hargs.get k hk
    rw [Nat.zero_add] at hslot
    rw [hslot, Option.isSome_some]
  constructor
  · simp only [hown]
    rfl
  · simp only [Handed.entry, hown]
    exact hfilled 0 (by decide)
  · simp only [Handed.entry, hown]
    exact hfilled 1 (by decide)

-- An invalid session has its error text told by the proxy, or leaves the command as it is.
def Speaks (e : Executor p) (path : CString) (argv : Argv) : Prop :=
  e.session.isValid = true ∨
    CmdBuilder.startOf p e.session.proxyPath e.session.selfId < p.bufSize ∧
      if CmdBuilder.errorEnd p e.session.proxyPath e.session.selfId path argv < p.bufSize then
        ∃ proxy ∈ e.session.proxyPath, proxy.stored.length ≤ p.bufSize
      else 2 ≤ argv.strs.length

lemma speaks_iff_of_room {path : CString} {argv : Argv}
    (hroom : ((e.session.proxyPath.toList ++ [parentFlag] ++ e.session.selfId.toList).map fun s =>
      s.stored.length).sum +
      ((CmdBuilder.errorTexts invalidSession path (some argv.read)).map fun s =>
        s.bytes.length).sum < p.bufSize) :
    e.Speaks path argv ↔ e.session.proxyPath.isSome = true := by
  have hstart : CmdBuilder.startOf p e.session.proxyPath e.session.selfId ≤ _ :=
    fillAll_le_sum p.bufSize 0 _
  have hend : CmdBuilder.errorEnd p e.session.proxyPath e.session.selfId path argv ≤ _ :=
    fillAll_le_sum p.bufSize (CmdBuilder.startOf p e.session.proxyPath e.session.selfId) _
  rw [Speaks, if_pos (by omega), Session.isValid]
  cases hproxy : e.session.proxyPath with
  | none => simp
  | some proxy =>
    rw [hproxy] at hroom hstart
    simp only [Option.toList_some, List.cons_append, List.map_cons, List.sum_cons] at hroom hstart
    simp only [Option.isSome_some, Option.mem_def, Option.some.injEq, exists_eq_left', iff_true]
    exact Or.inr ⟨by omega, by omega⟩

lemma not_nonNull_proxyStr {b : CmdBuilder} (hpath : b.executablePathPtr = none) (call : LinkerCall)
    (executable : CString) (argvIn : List CString) (argv : Argv) (envp : List CString) :
    ¬ Handed.NonNull argv ⟨call, (b.proxyStr p executable argvIn).1,
      (b.proxyStr p executable argvIn).2, envp⟩ := by
  intro hnon
  have hvalid := hnon.path
  have harg := hnon.arg0
  rcases CmdBuilder.proxyStr_command p b executable argvIn with hown | hgiven
  · simp [hown, hpath, Command.valid] at hvalid
  · simp [Handed.entry, hgiven] at harg

lemma invalid_nonNull_iff (hvalid : e.session.isValid = false)
    (hbuilt : CmdBuilder.Constructed p e.session.proxyPath e.session.selfId e.cmdBuilder)
    (call : LinkerCall)
    (path executable : CString) (argv : Argv) (envp : List CString) :
    Handed.NonNull argv ⟨call, (e.finalCmdOrError path executable argv).1,
        (e.finalCmdOrError path executable argv).2, envp⟩ ↔
      if CmdBuilder.errorEnd p e.session.proxyPath e.session.selfId path argv < p.bufSize then
        ∃ proxy ∈ e.session.proxyPath, proxy.stored.length ≤ p.bufSize
      else 2 ≤ argv.strs.length := by
  have hle : e.cmdBuilder.appendPtr ≤ p.bufSize := by
    rw [hbuilt.append]
    exact fillAll_le _ (Nat.zero_le _)
  have hend : fillAll p.bufSize e.cmdBuilder.appendPtr
      ((CmdBuilder.errorTexts invalidSession path (some argv.read)).map fun s => s.bytes.length) =
        CmdBuilder.errorEnd p e.session.proxyPath e.session.selfId path argv := by
    rw [CmdBuilder.errorEnd, hbuilt.append]
  rw [← hbuilt.path_iff, finalCmdOrError, hvalid]
  simp only [Bool.false_eq_true, if_false]
  rcases CmdBuilder.errorStr_cases p e.cmdBuilder invalidSession path (some argv.read) hle hend with
    ⟨hstored, area, herror⟩ | ⟨hfull, area, herror⟩
  · rw [if_pos hstored, herror]
    cases hexec : e.cmdBuilder.executablePathPtr with
    | none =>
      simp only [Command.valid, Option.isSome_none, Bool.false_eq_true, if_false, iff_false]
      exact not_nonNull_proxyStr rfl call executable argv.read argv envp
    | some exec =>
      simp only [Command.valid, Option.isSome_some, if_true, iff_true]
      have hslots := hbuilt.slots (by rw [hexec, Option.isSome_some])
      have hfilled (k : ℕ) (hk : k ≤ e.cmdBuilder.appendArgvPtr) :
          (Function.update (Function.update e.cmdBuilder.argv e.cmdBuilder.appendArgvPtr
            (some e.cmdBuilder.appendPtr))
            (e.cmdBuilder.appendArgvPtr + 1) none k).isSome = true := by
        rw [Function.update_of_ne (by omega)]
        rcases hk.eq_or_lt with rfl | hlt
        · rw [Function.update_self, Option.isSome_some]
        · rw [Function.update_of_ne hlt.ne]
          exact hbuilt.filled k hlt
      exact ⟨rfl, hfilled 0 (Nat.zero_le _), hfilled 1 hslots⟩
  · have hfull : ¬ CmdBuilder.errorEnd p e.session.proxyPath e.session.selfId path argv <
        p.bufSize := by omega
    rw [if_neg hfull, herror]
    simp only [Command.valid, if_true]
    constructor
    · intro hnon
      exact of_decide_eq_true hnon.arg1
    · intro hlength
      refine ⟨rfl, decide_eq_true ?_, decide_eq_true ?_⟩
      · omega
      · omega

theorem command_non_null_iff (e : Executor p) (environment : List CString)
    (hsession : e.session = Session.onLoad p environment) (entry : Entry) (argv : Argv)
    (envp : List CString)
    (path : CString) (executable : Resolved p) (hpath : entry.path = some path)
    (hresolved : entry.resolve e.resolver envp path = .ok executable) :
    (e.call entry argv envp).HandsOver (Handed.NonNull argv) ↔ e.Speaks path argv := by
  rw [call_handsOver executable hpath hresolved, Speaks]
  cases hvalid : e.session.isValid with
  | true =>
    rw [Session.isValid, Bool.and_eq_true, Option.isSome_iff_exists, Option.isSome_iff_exists]
      at hvalid
    obtain ⟨⟨proxy, hproxy⟩, selfId, hself⟩ := hvalid
    obtain ⟨hnull, hfits, hbuilt, hfinal⟩ := valid_builder hsession hproxy hself
    refine iff_of_true ⟨hnull, ?_⟩ (Or.inl rfl)
    rw [hfinal]
    exact proxyStr_nonNull hbuilt hfits executable argv.read entry.linkerCall argv envp
  | false =>
    simp only [Bool.false_eq_true, false_or]
    rcases CmdBuilder.construct_constructed p e.outside e.outsideSlots e.session.proxyPath
      e.session.selfId with
      ⟨hnull, hfull⟩ | ⟨hnull, hroom, hbuilt⟩
    · apply iff_of_false
      · rw [hnull]
        simp
      · intro h
        omega
    · rw [invalid_nonNull_iff hvalid hbuilt]
      simp only [hnull, hroom, true_and]

end Executor

def Resolver.everyPath (p : Platform) : Resolver p :=
  let found (path : CString) : Except ℤ (Resolved p) :=
    if short : path.bytes.length < p.pathMax then .ok ⟨path, short⟩ else .error 2
  { fromCurrentDirectory := found
    fromPath := fun file _ => found file
    fromSearchPath := fun file _ => found file }

def Executor.sample (environment : List CString) : Executor .linux :=
  { linker := fun _ => .replaced
    session := Session.onLoad .linux environment
    resolver := .everyPath .linux
    outside := fun _ => 0
    outsideSlots := fun _ => none }

theorem Executor.command_non_null_sample :
    ((Executor.sample [cStr (lit "__key_catter_proxy_path_v1=/opt/catter-proxy")]).call
      (.posixSpawn (some (cStr (lit "/bin/cc")))) ⟨[cStr (lit "cc")], []⟩ []).HandsOver
        (Handed.NonNull ⟨[cStr (lit "cc")], []⟩) := by
  rw [command_non_null_iff _ [cStr (lit "__key_catter_proxy_path_v1=/opt/catter-proxy")] rfl _ _ _
    (cStr (lit "/bin/cc")) ⟨cStr (lit "/bin/cc"), by decide⟩ rfl rfl]
  refine Or.inr ⟨by decide, ?_⟩
  rw [if_pos (by decide)]
  exact ⟨cStr (lit "/opt/catter-proxy"), rfl, by decide⟩

theorem Executor.null_path_handed_over :
    ¬ ((Executor.sample []).call (.execve (some (cStr (lit "/bin/cc"))))
      ⟨[cStr (lit "cc"), cStr (lit "-c")], []⟩
      []).HandsOver (Handed.NonNull ⟨[cStr (lit "cc"), cStr (lit "-c")], []⟩) := by
  rw [call_handsOver ⟨cStr (lit "/bin/cc"), by decide⟩ rfl rfl]
  rintro ⟨-, hnon⟩
  rcases CmdBuilder.construct_constructed .linux (fun _ => 0) (fun _ => none) none none with
    ⟨-, hfull⟩ | ⟨-, -, hbuilt⟩
  · exact absurd hfull (by decide)
  · rw [invalid_nonNull_iff rfl hbuilt, if_pos (by decide)] at hnon
    obtain ⟨proxy, hproxy, -⟩ := hnon
    exact absurd hproxy (Option.not_mem_none proxy)

end Catter.Hook
