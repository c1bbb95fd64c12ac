import Catter.Hook.Run
import Catter.Proxy.HookCommand

/-! The processes of a build under catter: the server numbers the proxies, each proxy starts
its command with the hook, and each hooked program starts further proxies. -/

namespace Catter.Proxy

open Text Library.Region Library.Decimal Hook Hook.CmdBuilder

variable (p : Platform) (inst : Installation)

namespace Launch

-- What CREATE is sent with, if `main` comes so far.
def parent? : Launch → Option ℤ
  | insufficient | invalid | badParent _ => none
  | hookError parent _ | noCommand parent | command parent _ _ => some parent

end Launch

-- `setenv` with overwrite 0, and the strings of `get_environment`.
def markedEnviron (environ : List CString) : List Str :=
  environ.map CString.bytes ++ if inProxy environ then []
    else [entry catterProxyEnvKey.bytes (lit "v1")]

-- `launcher` is the id of the proxy that started the process which made the exec, and
-- `depth` counts the execs from the root proxy on.
structure ProxyProcess where
  environ : List CString
  argv : List CString
  id : ℤ
  launcher : Option ℤ
  depth : ℕ

structure Program where
  environ : List CString
  launcher : ℤ
  depth : ℕ

namespace ProxyProcess

variable (proxy : ProxyProcess)

def parent? : Option ℤ := (readVector proxy.argv).parent?

def inject : Program :=
  { environ := envpPtrs (hookRun p inst (markedEnviron proxy.environ) proxy.id)
    launcher := proxy.id
    depth := proxy.depth }

def RightParent : Prop := ∀ launcher ∈ proxy.launcher, proxy.parent? = some launcher

end ProxyProcess

-- Processes stay in the lists when they end.
structure Tree where
  idGenerator : ℤ
  connected : List ProxyProcess
  created : List ProxyProcess
  programs : List Program

def start (environ target : List CString) : Tree :=
  { idGenerator := 1
    connected :=
      [{ environ
         argv := [inst.exe, parentFlag, cStr (formatInt 0), commandMark] ++ target
         id := 1
         launcher := none
         depth := 0 }]
    created := []
    programs := [] }

def StartsProxy (environ argv : List CString) : Prop :=
  ∃ (outside : Memory) (outsideSlots : ℕ → Option ℕ) (path : CString) (resolved : Option CString)
    (arg0 : CString) (args : List CString) (b : CmdBuilder) (file : ℕ),
    execute p (Session.onLoad p environ) outside outsideSlots path resolved (arg0 :: args) =
        some (b, .own (some file)) ∧
      Holds b.area file inst.exe.stored ∧ IsVector b argv

-- The server answers every decision with INJECT and the command it got; its counter is an `int`.
inductive Step : Tree → Tree → Prop
  | exec {t : Tree} {program : Program} {argv : List CString} (hprogram : program ∈ t.programs)
      (hhooked : inProxy program.environ = false)
      (hstarts : StartsProxy p inst program.environ argv)
      (hid : t.idGenerator + 1 < 2 ^ 31) :
      Step t { t with
        idGenerator := t.idGenerator + 1
        connected := ⟨program.environ, argv, t.idGenerator + 1, some program.launcher,
          program.depth + 1⟩ ::
          t.connected }
  | create {t : Tree} {proxy : ProxyProcess} (hproxy : proxy ∈ t.connected)
      (hparent : proxy.parent?.isSome) :
      Step t { t with created := proxy :: t.created }
  | inject {t : Tree} {proxy : ProxyProcess} {parent : ℤ} {executable : Str} {args : List Str}
      (hproxy : proxy ∈ t.created) (hcommand : readVector proxy.argv =
        .command parent executable args) :
      Step t { t with programs := proxy.inject p inst :: t.programs }

def Reachable (environ target : List CString) (t : Tree) : Prop :=
  Relation.ReflTransGen (Step p inst) (start inst environ target) t

def Clean (environ : List CString) : Prop :=
  getEnvValue environ keyProxyPath = none ∧ getEnvValue environ keyCommandId = none

/-! The invariant: whoever launched a process, its environment names the first proxy. -/

structure Launched (environ : List CString) (launcher : ℤ) (depth : ℕ) : Prop where
  path : getEnvValue environ keyProxyPath = some inst.exe
  commandId : getEnvValue environ keyCommandId = some (cStr (formatInt 1))
  launcher_iff : launcher = 1 ↔ depth = 0
  hooked : inProxy environ = false

inductive Known : ProxyProcess → Prop
  | root {environ argv : List CString} (hclean : Clean environ) : Known ⟨environ, argv, 1, none, 0⟩
  | nested {environ argv : List CString} {id launcher : ℤ} {depth : ℕ} (hid : 1 < id)
      (hlaunched : Launched inst environ launcher depth)
      (hparent : ∀ parent, (readVector argv).parent? = some parent → parent = 1) :
      Known ⟨environ, argv, id, some launcher, depth + 1⟩

structure Invariant (t : Tree) : Prop where
  counter : 1 ≤ t.idGenerator
  connected : ∀ proxy ∈ t.connected, Known inst proxy
  created : ∀ proxy ∈ t.created, Known inst proxy ∧ proxy.parent?.isSome
  programs : ∀ program ∈ t.programs, Launched inst program.environ program.launcher program.depth

lemma getEnvValue_markedEnviron {key : CString} (hkey : key.bytes.head? = some 95)
    (environ : List CString) :
    getEnvValue (envpPtrs (markedEnviron environ)) key = getEnvValue environ key := by
  have hother : isEntryOf key (cStr (entry catterProxyEnvKey.bytes (lit "v1"))) = false := by
    rw [← Bool.not_eq_true]
    intro h
    have hhead := head?_of_isEntryOf hkey h
    exact absurd hhead (by decide)
  have hsame : (cStr ∘ CString.bytes : CString → CString) = id := by
    funext s
    exact cStr_bytes s
  rw [getEnvValue, getEnvValue, getEnvEntry, getEnvEntry, envpPtrs, markedEnviron]
  cases inProxy environ with
  | true => simp [hsame]
  | false => simp [hsame, hother]

lemma fits_installation : Fits p inst.exe (cStr (formatInt 1)) := by
  have hshort := inst.exe_short
  have hmax := pathMax_ge p
  have hid : (cStr (formatInt 1)).stored.length = 2 := rfl
  rw [Fits, CString.stored, List.length_append, List.length_singleton, hid]
  omega

variable {p inst}

lemma Known.inject {proxy : ProxyProcess} (h : Known inst proxy) :
    Launched inst (proxy.inject p inst).environ (proxy.inject p inst).launcher
      (proxy.inject p inst).depth := by
  have hpath := proxyPath_hookRun p inst (markedEnviron proxy.environ) proxy.id
  have hid := commandId_hookRun p inst (markedEnviron proxy.environ) proxy.id
  have hhooked := inProxy_hookRun p inst (markedEnviron proxy.environ) proxy.id
  rw [getEnvValue_markedEnviron (by decide)] at hpath hid
  cases h with
  | root hclean =>
    rw [hclean.1, Option.none_or] at hpath
    rw [hclean.2, Option.none_or] at hid
    exact ⟨hpath, hid, iff_of_true rfl rfl, hhooked⟩
  | nested hfresh hlaunched =>
    rw [hlaunched.path, Option.some_or] at hpath
    rw [hlaunched.commandId, Option.some_or] at hid
    exact ⟨hpath, hid, iff_of_false hfresh.ne' (Nat.succ_ne_zero _), hhooked⟩

lemma parent?_buildRawCmd (parent : ℤ) (rest : List Str) :
    (buildRawCmd parent rest).parent? = some parent := by
  cases rest <;> rfl

lemma text_of_parent? {strs : List Str} {parent : ℤ}
    (h : (readArguments strs).parent? = some parent) :
    ∃ text, strs[2]? = some text ∧ stoi text = .ok parent := by
  unfold readArguments at h
  split at h
  next exe flag text mark rest =>
    refine ⟨text, rfl, ?_⟩
    cases hstoi : stoi text with
    | error why =>
      rw [hstoi] at h
      split_ifs at h <;> simp [Launch.parent?] at h
    | ok parent' =>
      simp only [hstoi] at h
      split_ifs at h
      · simp [Launch.parent?] at h
      · rw [Launch.parent?, Option.some.injEq] at h
        rw [h]
      · rw [parent?_buildRawCmd, Option.some.injEq] at h
        rw [h]
  next => simp [Launch.parent?] at h

lemma parent_of_isVector {proxy selfId : CString} {b : CmdBuilder} {argv : List CString}
    {parent : ℤ}
    (hb : Built proxy selfId b) (hvector : IsVector b argv)
    (hparent : (readVector argv).parent? = some parent) :
    stoi selfId.bytes = .ok parent := by
  obtain ⟨text, htext, hstoi⟩ := text_of_parent? hparent
  rw [List.getElem?_map, Option.map_eq_some_iff] at htext
  obtain ⟨s, hs, rfl⟩ := htext
  obtain ⟨hlength, rfl⟩ := List.getElem?_eq_some_iff.mp hs
  obtain ⟨off, hslot, hheld⟩ := hvector.1 2 hlength
  obtain ⟨off', hslot', hheld'⟩ := hb.args.get 2 (by decide : 2 < 3)
  rw [Nat.zero_add, hslot, Option.some.injEq] at hslot'
  subst hslot'
  have hsame : argv[2].bytes = selfId.bytes := hheld.unique hheld' argv[2].no_nul selfId.no_nul
  rw [← hsame]
  exact hstoi

lemma Launched.execute {environ : List CString} {launcher : ℤ} {depth : ℕ}
    (h : Launched inst environ launcher depth)
    (outside : Memory) (outsideSlots : ℕ → Option ℕ) (path executable : CString)
    (argv : List CString) :
    Hook.execute p (Session.onLoad p environ) outside outsideSlots path (some executable) argv =
      some (proxyStr p (construct p outside outsideSlots (some inst.exe)
        (some (cStr (formatInt 1)))) executable
        argv) := by
  obtain ⟨hproxy, hself⟩ := onLoad_valid h.path h.commandId (fits_installation p inst)
  have hvalid : (Session.onLoad p environ).isValid = true := by
    rw [Session.isValid, hproxy, hself]
    rfl
  simp only [Hook.execute, hvalid, if_true, hproxy, hself]

lemma Launched.parent {environ argv : List CString} {launcher : ℤ} {depth : ℕ} {parent : ℤ}
    (h : Launched inst environ launcher depth) (hstarts : StartsProxy p inst environ argv)
    (hparent : (readVector argv).parent? = some parent) : parent = 1 := by
  obtain ⟨outside, outsideSlots, path, resolved, arg0, args, b, file, hexecute, -, hvector⟩ :=
    hstarts
  have hfits := fits_installation p inst
  have hfresh := construct_built outside outsideSlots hfits
  cases resolved with
  | none => simp [Hook.execute] at hexecute
  | some executable =>
    rw [h.execute, Option.some.injEq] at hexecute
    have hkeeps := proxyStr_keeps hfresh hfits executable (arg0 :: args)
    rw [hexecute] at hkeeps
    have hstoi := parent_of_isVector (hfresh.keeps hkeeps) hvector hparent
    have hone := stoi_formatInt (v := 1) (by decide) (by decide)
    rw [cStr_of_no_nul (formatInt_no_nul 1), hone, Except.ok.injEq] at hstoi
    exact hstoi.symm

lemma invariant_start {environ : List CString} (target : List CString) (hclean : Clean environ) :
    Invariant inst (start inst environ target) := by
  constructor
  · exact le_rfl
  · intro proxy hproxy
    obtain rfl := List.mem_singleton.mp hproxy
    exact Known.root hclean
  · intro proxy hproxy
    exact absurd hproxy List.not_mem_nil
  · intro program hprogram
    exact absurd hprogram List.not_mem_nil

lemma Step.invariant {t t' : Tree} (hstep : Step p inst t t') (h : Invariant inst t) :
    Invariant inst t' := by
  cases hstep with
  | exec hprogram hhooked hstarts hid =>
    have hlaunched := h.programs _ hprogram
    have hcounter := h.counter
    refine ⟨?_, ?_, h.created, h.programs⟩
    · simp only
      omega
    · intro proxy hproxy
      rcases List.mem_cons.mp hproxy with rfl | hproxy
      · apply Known.nested (by omega) hlaunched
        intro parent hparent
        exact hlaunched.parent hstarts hparent
      · exact h.connected proxy hproxy
  | create hproxy hparent =>
    refine ⟨h.counter, h.connected, ?_, h.programs⟩
    intro proxy hmem
    rcases List.mem_cons.mp hmem with rfl | hmem
    · exact ⟨h.connected _ hproxy, hparent⟩
    · exact h.created proxy hmem
  | inject hproxy hcommand =>
    refine ⟨h.counter, h.connected, h.created, ?_⟩
    intro program hmem
    rcases List.mem_cons.mp hmem with rfl | hmem
    · exact (h.created _ hproxy).1.inject
    · exact h.programs program hmem

lemma Reachable.invariant {environ target : List CString} {t : Tree}
    (h : Reachable p inst environ target t)
    (hclean : Clean environ) : Invariant inst t := by
  induction h with
  | refl => exact invariant_start target hclean
  | tail _ hstep ih => exact hstep.invariant ih

lemma Known.rightParent_iff {proxy : ProxyProcess} (h : Known inst proxy)
    (hcreated : proxy.parent?.isSome) :
    proxy.RightParent ↔ proxy.depth ≤ 1 := by
  cases h with
  | root hclean =>
    apply iff_of_true
    · intro launcher hlauncher
      exact absurd hlauncher (Option.not_mem_none launcher)
    · exact Nat.zero_le 1
  | nested hid hlaunched hparent =>
    obtain ⟨parent, hsome⟩ := Option.isSome_iff_exists.mp hcreated
    have hone := hparent parent hsome
    have hiff := hlaunched.launcher_iff
    simp only [ProxyProcess.RightParent, Option.mem_def, Option.some.injEq, forall_eq', hsome, hone]
    rw [eq_comm, hiff]
    omega

/-! Runs of every depth. -/

lemma Launched.startsProxy {environ : List CString} {launcher : ℤ} {depth : ℕ}
    (h : Launched inst environ launcher depth) {path : CString} {args : List CString}
    (hroom : Room p inst.exe (cStr (formatInt 1)) path args) :
    StartsProxy p inst environ ([inst.exe, parentFlag, cStr (formatInt 1), commandMark, path] ++
      args) := by
  have hfresh := construct_built (fun _ => 0) (fun _ => none) (fits_installation p inst)
  obtain ⟨b, hbuilt, hkeeps, hvector⟩ := proxyStr_isVector hfresh path (path :: args) hroom
  have hb := hfresh.keeps hkeeps
  refine ⟨fun _ => 0, fun _ => none, path, some path, path, args, b, 0, ?_, hb.args.2.1, hvector⟩
  rw [h.execute, hbuilt, hfresh.path]

lemma nested_proxy {environ target : List CString} {t : Tree}
    (h : Reachable p inst environ target t)
    (hclean : Clean environ) {program : Program} (hprogram : program ∈ t.programs)
    (hid : t.idGenerator + 1 < 2 ^ 31) {path : CString} {args : List CString}
    (hroom : Room p inst.exe (cStr (formatInt 1)) path args) :
    ∃ t' : Tree, ∃ proxy ∈ t'.created, Reachable p inst environ target t' ∧
      proxy.launcher = some program.launcher ∧ proxy.depth = program.depth + 1 ∧
      proxy.id = t.idGenerator + 1 ∧ proxy.parent? = some 1 ∧ proxy.inject p inst ∈ t'.programs ∧
      t'.idGenerator = t.idGenerator + 1 := by
  have hlaunched := (h.invariant hclean).programs program hprogram
  let argv := [inst.exe, parentFlag, cStr (formatInt 1), commandMark, path] ++ args
  let proxy : ProxyProcess :=
    ⟨program.environ, argv, t.idGenerator + 1, some program.launcher, program.depth + 1⟩
  have hread : readVector argv = .command 1 path.bytes (args.map CString.bytes) := by
    have hone := stoi_formatInt (v := 1) (by decide) (by decide)
    rw [readVector_command, withParent, cStr_of_no_nul (formatInt_no_nul 1), hone]
  have hparent : proxy.parent? = some 1 := by
    rw [ProxyProcess.parent?, hread]
    rfl
  let t₁ : Tree := { t with idGenerator := t.idGenerator + 1, connected := proxy :: t.connected }
  let t₂ : Tree := { t₁ with created := proxy :: t₁.created }
  let t₃ : Tree := { t₂ with programs := proxy.inject p inst :: t₂.programs }
  have hexec : Step p inst t t₁ :=
    Step.exec hprogram hlaunched.hooked (hlaunched.startsProxy hroom) hid
  have hcreate : Step p inst t₁ t₂ := by
    apply Step.create List.mem_cons_self
    rw [hparent]
    rfl
  have hinject : Step p inst t₂ t₃ := Step.inject List.mem_cons_self hread
  have hreach : Reachable p inst environ target t₃ := ((h.tail hexec).tail hcreate).tail hinject
  exact ⟨t₃, proxy, List.mem_cons_self, hreach, rfl, rfl, rfl, hparent, List.mem_cons_self, rfl⟩

lemma root_program {environ : List CString} {path : CString} {args : List CString} :
    ∃ t : Tree, ∃ program ∈ t.programs, Reachable p inst environ (path :: args) t ∧
      program.launcher = 1 ∧
      program.depth = 0 ∧ t.idGenerator = 1 := by
  let argv := [inst.exe, parentFlag, cStr (formatInt 0), commandMark, path] ++ args
  let root : ProxyProcess := ⟨environ, argv, 1, none, 0⟩
  have hread : readVector argv = .command 0 path.bytes (args.map CString.bytes) := by
    have hzero := stoi_formatInt (v := 0) (by decide) (by decide)
    rw [readVector_command, withParent, cStr_of_no_nul (formatInt_no_nul 0), hzero]
  let t₁ := start inst environ (path :: args)
  let t₂ : Tree := { t₁ with created := root :: t₁.created }
  let t₃ : Tree := { t₂ with programs := root.inject p inst :: t₂.programs }
  have hcreate : Step p inst t₁ t₂ := by
    apply Step.create List.mem_cons_self
    rw [ProxyProcess.parent?, hread]
    rfl
  have hinject : Step p inst t₂ t₃ := Step.inject List.mem_cons_self hread
  have hreach : Reachable p inst environ (path :: args) t₃ :=
    (Relation.ReflTransGen.single hcreate).tail hinject
  exact ⟨t₃, root.inject p inst, List.mem_cons_self, hreach, rfl, rfl, rfl⟩

lemma program_at_depth {environ : List CString} (hclean : Clean environ) {path : CString}
    {args : List CString}
    (hroom : Room p inst.exe (cStr (formatInt 1)) path args) (depth : ℕ)
    (hdepth : depth + 1 < 2 ^ 31) :
    ∃ t : Tree, ∃ program ∈ t.programs, Reachable p inst environ (path :: args) t ∧
      program.launcher = depth + 1 ∧ program.depth = depth ∧ t.idGenerator = depth + 1 := by
  induction depth with
  | zero => exact root_program
  | succ depth ih =>
    obtain ⟨t, program, hprogram, hreach, -, hprogramDepth, hcounter⟩ := ih (by omega)
    obtain ⟨t', proxy, -, hreach', -, hproxyDepth, hid, -, hinjected, hcounter'⟩ :=
      nested_proxy hreach hclean hprogram (by omega) hroom
    refine ⟨t', proxy.inject p inst, hinjected, hreach', ?_, ?_, ?_⟩
    · change proxy.id = _
      rw [hid, hcounter, Nat.cast_succ]
    · change proxy.depth = _
      rw [hproxyDepth, hprogramDepth]
    · rw [hcounter', hcounter, Nat.cast_succ]

variable (p inst) in
lemma nested_proxy_at_depth {environ : List CString} (hclean : Clean environ) {path : CString}
    {args : List CString} (hroom : Room p inst.exe (cStr (formatInt 1)) path args) (depth : ℕ)
    (hdepth : depth + 2 < 2 ^ 31) :
    ∃ t : Tree, ∃ proxy ∈ t.created, Reachable p inst environ (path :: args) t ∧
      proxy.depth = depth + 1 ∧
      proxy.launcher = some (depth + 1 : ℤ) ∧ proxy.parent? = some 1 := by
  obtain ⟨t, program, hprogram, hreach, hlauncher, hprogramDepth, hcounter⟩ :=
    program_at_depth hclean hroom depth (by omega)
  obtain ⟨t', proxy, hcreated, hreach', hproxyLauncher, hproxyDepth, -, hparent, -⟩ :=
    nested_proxy hreach hclean hprogram (by omega) hroom
  refine ⟨t', proxy, hcreated, hreach', ?_, ?_, hparent⟩
  · rw [hproxyDepth, hprogramDepth]
  · rw [hproxyLauncher, hlauncher]

/-! Which proxies get the parent that launched them: those of depth one. -/

theorem process_tree_identity_iff (p : Platform) (inst : Installation) :
    (∀ (env : List Str) (id : ℤ),
      (YieldsAppended p inst env id keyCommandId (formatInt id) ↔
        FirstHolds env keyCommandId (formatInt id)) ∧
      (YieldsAppended p inst env id keyProxyPath inst.exe.bytes ↔
        FirstHolds env keyProxyPath inst.exe.bytes)) ∧
    ∀ (environ target : List CString) (t : Tree), Clean environ →
      Reachable p inst environ target t →
      ∀ proxy ∈ t.created, proxy.RightParent ↔ proxy.depth ≤ 1 := by
  constructor
  · intro env id
    constructor
    · apply yieldsAppended_iff p inst env id (formatInt_no_nul id) (by decide)
      exact find?_appended_commandId p inst id
    · apply yieldsAppended_iff p inst env id inst.exe.no_nul (by decide)
      exact find?_appended_proxyPath p inst id
  · intro environ target t hclean hreach proxy hproxy
    obtain ⟨hknown, hcreated⟩ := (hreach.invariant hclean).created proxy hproxy
    exact hknown.rightParent_iff hcreated

def optInstallation : Installation where
  exe := ⟨lit "/opt/catter-proxy", by decide⟩
  lib := ⟨lit "/opt/libcatter-hook-unix.so", by decide⟩

def binPath : CString := ⟨lit "PATH=/bin", by decide⟩

def binMake : CString := ⟨lit "/bin/make", by decide⟩

lemma binMake_room : Room .linux optInstallation.exe (cStr (formatInt 1)) binMake [] :=
  ⟨by decide, by decide⟩

theorem process_tree_identity_first_make :
    YieldsAppended .linux optInstallation [binPath.bytes] 2 keyCommandId (formatInt 2) ∧
    ∃ t : Tree, Reachable .linux optInstallation [binPath] [binMake] t ∧
      ∃ proxy ∈ t.created, proxy.launcher = some 1 ∧ proxy.RightParent := by
  have hclean : Clean [binPath] := ⟨by decide, by decide⟩
  obtain ⟨t, proxy, hcreated, hreach, hdepth, hlauncher, -⟩ :=
    nested_proxy_at_depth .linux optInstallation hclean binMake_room 0 (by decide)
  obtain ⟨hlookup, hruns⟩ := process_tree_identity_iff .linux optInstallation
  constructor
  · apply (hlookup [binPath.bytes] 2).1.mpr
    unfold FirstHolds
    decide
  · refine ⟨t, hreach, proxy, hcreated, hlauncher, ?_⟩
    exact (hruns [binPath] [binMake] t hclean hreach proxy hcreated).mpr hdepth.le

theorem nested_make_gets_wrong_parent :
    ¬ YieldsAppended .linux optInstallation [lit "__key_catter_command_id_v1=1"] 2 keyCommandId
      (formatInt 2) ∧
    ∃ t : Tree, Reachable .linux optInstallation [binPath] [binMake] t ∧
      ∃ proxy ∈ t.created, proxy.launcher = some 2 ∧ proxy.parent? = some 1 ∧
        ¬ proxy.RightParent := by
  constructor
  · unfold YieldsAppended
    decide
  · have hclean : Clean [binPath] := ⟨by decide, by decide⟩
    obtain ⟨t, proxy, hcreated, hreach, -, hlauncher, hparent⟩ :=
      nested_proxy_at_depth .linux optInstallation hclean binMake_room 1 (by decide)
    refine ⟨t, hreach, proxy, hcreated, hlauncher, hparent, ?_⟩
    intro hright
    have hsame := hright _ hlauncher
    rw [hparent] at hsame
    exact absurd hsame (by decide)

end Catter.Proxy
