import Catter.Proxy.ProcessTree
import Catter.Win.EnvBlock

/-! The processes of a build under catter on Windows: each proxy writes its id over the one
that it was given, so the programs below it report the proxy nearest to them. -/

namespace Catter.Win

open Text Library Library.TerminatedWords Library.Decimal

/-! What the programs use of the system, in `char` and in `wchar_t`. -/

structure Api (Env α : Type) [CharT α] where
  getEnvironmentVariable : Env → List α → Option (CText α)
  environmentOf : List α → Env
  mainArgument : List α → Str

structure Kernel (Env : Type) where
  ansi : Api Env UInt8
  wide : Api Env UInt16
  getEnvironmentStrings : Env → List (Entry UInt8)
  setEnvironmentVariableA : Env → CText UInt8 → CText UInt8 → Env

def asciiLower (c : UInt8) : UInt8 := if 65 ≤ c ∧ c ≤ 90 then c + 32 else c

def hasName (name : Str) (e : Entry UInt8) : Bool :=
  (e.letters.take name.length).map asciiLower = name.map asciiLower ∧
    e.letters[name.length]? = some 61

/-- The first entry of the name is the one with that value. -/
def FirstIs (name value : CText UInt8) (entries : List (Entry UInt8)) : Prop :=
  (entries.find? (hasName name.text)).map Word.letters = some (name.text ++ 61 :: value.text)

def IsAscii (s : Str) : Prop := ∀ c ∈ s, c < 128

instance : DecidablePred IsAscii := fun s => inferInstanceAs (Decidable (∀ c ∈ s, c < 128))

structure Kernel.Lawful {Env : Type} (k : Kernel Env) : Prop where
  set_first : ∀ (env : Env) (name value : CText UInt8), name.text ≠ [] → 61 ∉ name.text →
    FirstIs name value (k.getEnvironmentStrings (k.setEnvironmentVariableA env name value))
  get_ansi : ∀ (entries : List (Entry UInt8)) (name value : CText UInt8),
    FirstIs name value entries →
    (k.ansi.getEnvironmentVariable (k.ansi.environmentOf (block charZero entries)) name.text).map
      CText.text =
      some value.text
  get_wide : ∀ (entries : List (Entry UInt8)) (name value : CText UInt8),
    FirstIs name value entries →
    IsAscii name.text → IsAscii value.text →
    (k.wide.getEnvironmentVariable (k.ansi.environmentOf (block charZero entries))
      (name.text.map CharT.ofOctet)).map CText.text = some (value.text.map CharT.ofOctet)
  argument_ansi : ∀ s : Str, IsAscii s → k.ansi.mainArgument (s.map CharT.ofOctet) = s
  argument_wide : ∀ s : Str, IsAscii s → k.wide.mainArgument (s.map CharT.ofOctet) = s

/-! The payload in a program. -/

section

variable {Env α : Type} [DecidableEq α] [CharT α]

-- A longer value does not fit the buffer, and leaves in it what was there.
def getRpcId (api : Api Env α) (environ : Env) : Option (CText α) :=
  (api.getEnvironmentVariable environ envVarRpcId).filter fun value => value.text.length < 64

structure Directory (α : Type) [DecidableEq α] [CharT α] where
  path : CText α
  no_blank : ∀ c ∈ path.text, CommandLine.Letters.isBlank c = false
  no_quote : CommandLine.Letters.quote ∉ path.text

def argvOf (api : Api Env α) (dir : Directory α) (environ : Env) (call : CreateProcess α) :
    Option (List Str) := do
  let rpcId ← getRpcId api environ
  let line := convertedCmdline (getCatterExePath dir.path.text) rpcId.text
    (call.applicationName.map CText.text) call.commandLine.text
  return (splitCommandLine line).map api.mainArgument

def fixed (api : Api Env α) (environ : Env) (entries : List (Entry α)) : Option Env := do
  let rpcId ← getRpcId api environ
  let envBlock ← fixEnvBlockHelper (block charZero entries) (rpcIdEntry rpcId).letters
  return api.environmentOf envBlock

end

structure Payload where
  dirA : Directory UInt8
  dirW : Directory UInt16

/-- `lpEnvironment`, and what `dwCreationFlags` say that it points to. -/
inductive EnvironmentBlock
  | inherited
  | ansi (entries : List (Entry UInt8))
  | unicode (entries : List (Entry UInt16))

inductive ProcessCall
  | createProcessA (call : CreateProcess UInt8)
  | createProcessW (call : CreateProcess UInt16)

section

variable {Env : Type} (k : Kernel Env) (payload : Payload)

def fixEnvBlock (environ : Env) : EnvironmentBlock → Option Env
  | .inherited => some environ
  | .ansi entries => fixed k.ansi environ entries
  | .unicode entries => fixed k.wide environ entries

def argumentsOf (environ : Env) : ProcessCall → Option (List Str)
  | .createProcessA call => argvOf k.ansi payload.dirA environ call
  | .createProcessW call => argvOf k.wide payload.dirW environ call

/-! catter-proxy, which starts the command with the payload in it. -/

def getEnvironment (current : List UInt8) : Option (List Str) :=
  match current with
  | [] => none
  | c :: cs =>
    if c = 0 then some []
    else match h : scanWord 0 (c :: cs) with
      | none => none
      | some (sv, rest) => (getEnvironment rest).map (sv :: ·)
termination_by current.length
decreasing_by exact scanWord_lt h

def envBlock (env : List Str) : List UInt8 := env.flatMap (· ++ [0]) ++ [0]

def rpcIdName : CText UInt8 := ⟨envVarRpcId, by decide⟩

def hookEnviron (environ : Env) (id : CText UInt8) : Option Env :=
  let own := k.setEnvironmentVariableA environ rpcIdName id
  (getEnvironment (block charZero (k.getEnvironmentStrings own))).map fun env =>
    k.ansi.environmentOf (envBlock env)

def idText (id : ℤ) : CText UInt8 := ⟨formatInt id, Hook.formatInt_no_nul id⟩

end

structure ProxyProcess (Env : Type) where
  environ : Env
  argv : List Str
  id : ℤ
  launcher : Option ℤ

def ProxyProcess.parent? {Env : Type} (proxy : ProxyProcess Env) : Option ℤ :=
  (Proxy.readArguments proxy.argv).parent?

structure Program (Env : Type) where
  environ : Env
  launcher : ℤ

-- Processes stay in the lists when they end.
structure Tree (Env : Type) where
  idGenerator : ℤ
  connected : List (ProxyProcess Env)
  created : List (ProxyProcess Env)
  programs : List (Program Env)

section

variable {Env : Type} (k : Kernel Env) (payload : Payload)

def start (environ : Env) (argv : List Str) : Tree Env :=
  { idGenerator := 1
    connected := [⟨environ, argv, 1, none⟩]
    created := []
    programs := [] }

def SameId (environ environ' : Env) : Prop :=
  getRpcId k.ansi environ' = getRpcId k.ansi environ ∧ getRpcId k.wide environ' =
    getRpcId k.wide environ

-- The server answers every decision with INJECT and the command it got; its counter is an `int`.
inductive Step : Tree Env → Tree Env → Prop
  | call {t : Tree Env} {program : Program Env} {call : ProcessCall} {lpEnvironment :
    EnvironmentBlock}
      {argv : List Str} {environ : Env} (hprogram : program ∈ t.programs)
      (hargv : argumentsOf k payload program.environ call = some argv)
      (henviron : fixEnvBlock k program.environ lpEnvironment = some environ)
      (hid : t.idGenerator + 1 < 2 ^ 31) :
      Step t { t with
        idGenerator := t.idGenerator + 1
        connected := ⟨environ, argv, t.idGenerator + 1, some program.launcher⟩ :: t.connected }
  | create {t : Tree Env} {proxy : ProxyProcess Env} (hproxy : proxy ∈ t.connected)
      (hparent : proxy.parent?.isSome) :
      Step t { t with created := proxy :: t.created }
  | inject {t : Tree Env} {proxy : ProxyProcess Env} {parent : ℤ} {executable : Str} {args :
      List Str} {environ : Env}
      (hproxy : proxy ∈ t.created) (hcommand : Proxy.readArguments proxy.argv =
        .command parent executable args)
      (henviron : hookEnviron k proxy.environ (idText proxy.id) = some environ) :
      Step t { t with programs := ⟨environ, proxy.id⟩ :: t.programs }
  | change {t : Tree Env} {program : Program Env} {environ : Env} (hprogram : program ∈ t.programs)
      (hsame : SameId k program.environ environ) :
      Step t { t with programs := ⟨environ, program.launcher⟩ :: t.programs }

def Reachable (environ : Env) (argv : List Str) (t : Tree Env) : Prop :=
  Relation.ReflTransGen (Step k payload) (start environ argv) t

end

/-! The id that a proxy writes is the one that the calls of its program read. -/

variable {Env : Type} {k : Kernel Env} {payload : Payload}

def Carries (k : Kernel Env) (environ : Env) (id : ℤ) : Prop :=
  (getRpcId k.ansi environ).map CText.text = some ((formatInt id).map CharT.ofOctet) ∧
  (getRpcId k.wide environ).map CText.text = some ((formatInt id).map CharT.ofOctet)

lemma getEnvironment_block (entries : List (Entry UInt8)) :
    getEnvironment (block charZero entries) = some (entries.map Word.letters) := by
  induction entries with
  | nil =>
    have hlast : block charZero ([] : List (Entry UInt8)) = [0] := rfl
    rw [hlast, getEnvironment, if_pos rfl, List.map_nil]
  | cons e entries ih =>
    obtain ⟨letters, ne_nil, no_mark⟩ := e
    have hscan := scanWord_word no_mark (block charZero entries)
    rw [block_cons]
    cases letters with
    | nil => exact absurd rfl ne_nil
    | cons c cs =>
      have hne : c ≠ 0 := by
        rintro rfl
        exact no_mark List.mem_cons_self
      rw [List.cons_append] at hscan ⊢
      rw [getEnvironment, if_neg hne]
      split
      · rename_i hnone
        exact absurd (hnone.symm.trans hscan) (by simp)
      · rename_i sv rest hsome
        obtain ⟨rfl, rfl⟩ := Prod.mk.inj (Option.some.inj (hsome.symm.trans hscan))
        rw [ih]
        rfl

lemma envBlock_letters (entries : List (Entry UInt8)) :
    envBlock (entries.map Word.letters) = block charZero entries := by
  rw [envBlock, block, terminated, List.flatMap_map]
  rfl

lemma hookEnviron_eq (environ : Env) (id : CText UInt8) : hookEnviron k environ id =
    some (k.ansi.environmentOf (block charZero (k.getEnvironmentStrings
      (k.setEnvironmentVariableA environ rpcIdName id)))) := by
  rw [hookEnviron, getEnvironment_block, Option.map_some, envBlock_letters]

lemma formatInt_chars {v : ℤ} {c : UInt8} (hc : c ∈ formatInt v) : c = 45 ∨ isDigit c = true := by
  rw [formatInt] at hc
  split_ifs at hc
  · rcases List.mem_cons.mp hc with rfl | hc
    · exact Or.inl rfl
    · exact Or.inr (isDigit_of_mem_decimal hc)
  · exact Or.inr (isDigit_of_mem_decimal hc)

lemma isAscii_formatInt (v : ℤ) : IsAscii (formatInt v) := by
  intro c hc
  rcases formatInt_chars hc with rfl | hdigit
  · decide
  · simp only [isDigit, Bool.and_eq_true, decide_eq_true_eq, UInt8.le_iff_toNat_le,
      UInt8.reduceToNat] at hdigit
    rw [UInt8.lt_iff_toNat_lt]
    exact hdigit.2.trans_lt (by decide)

lemma length_formatInt {v : ℤ} (hlow : 0 ≤ v) (hhigh : v < 2 ^ 31) : (formatInt v).length < 64 := by
  have hshort : (decimal v.natAbs).length ≤ 10 := length_decimal_le (by decide) (by omega)
  rw [formatInt, if_neg (by omega)]
  omega

lemma isPlain_formatInt {α : Type} [DecidableEq α] [CharT α] (v : ℤ) :
    CommandLine.IsPlain ((formatInt v).map CharT.ofOctet : List α) := by
  apply isPlain_map
  · rw [formatInt]
    split_ifs
    · exact List.cons_ne_nil _ _
    · exact decimal_ne_nil _
  · intro c hc
    rcases formatInt_chars hc with rfl | hdigit
    · decide
    · simp only [isDigit, Bool.and_eq_true, decide_eq_true_eq, UInt8.le_iff_toNat_le,
        UInt8.reduceToNat] at hdigit
      have hne : ∀ d : UInt8, d.toNat < 48 → c ≠ d := by
        rintro d hd rfl
        omega
      have hspace := hne space (by decide)
      have htab := hne tab (by decide)
      exact ⟨(isBlank_ofOctet c).trans (by simp [hspace, htab]), hne doubleQuote (by decide)⟩

lemma getRpcId_of_get {α : Type} [DecidableEq α] [CharT α] {api : Api Env α} {environ : Env}
    {value : List α}
    (h : (api.getEnvironmentVariable environ envVarRpcId).map CText.text = some value)
    (hlength : value.length < 64) :
    (getRpcId api environ).map CText.text = some value := by
  obtain ⟨text, htext, rfl⟩ := Option.map_eq_some_iff.mp h
  rw [getRpcId, htext, Option.filter_some, if_pos (by simpa using hlength)]
  rfl

lemma hookEnviron_carries (hk : k.Lawful) (environ : Env) {id : ℤ} (hlow : 0 ≤ id)
    (hhigh : id < 2 ^ 31) {environ' : Env}
    (h : hookEnviron k environ (idText id) = some environ') : Carries k environ' id := by
  rw [hookEnviron_eq, Option.some.injEq] at h
  subst h
  have hfirst := hk.set_first environ rpcIdName (idText id) (by decide) (by decide)
  have hshort := length_formatInt hlow hhigh
  constructor
  · apply getRpcId_of_get
    · exact (hk.get_ansi _ _ _ hfirst).trans (congrArg some (List.map_id _).symm)
    · simpa using hshort
  · apply getRpcId_of_get
    · exact hk.get_wide _ _ _ hfirst (by decide) (isAscii_formatInt id)
    · simpa using hshort

lemma argvOf_reads {α : Type} [DecidableEq α] [CharT α] {api : Api Env α} {environ : Env} {id : ℤ}
    (harg : ∀ s : Str, IsAscii s → api.mainArgument (s.map CharT.ofOctet) = s)
    (hid : (getRpcId api environ).map CText.text = some ((formatInt id).map CharT.ofOctet))
    (hlow : 0 ≤ id)
    (hhigh : id < 2 ^ 31) (dir : Directory α) (call : CreateProcess α) :
    ∃ argv, argvOf api dir environ call = some argv ∧
      Proxy.readArguments argv =
        Proxy.buildRawCmd id ((CommandLine.arguments (spliced call)).map api.mainArgument) := by
  obtain ⟨rpcId, hget, htext⟩ := Option.map_eq_some_iff.mp hid
  have hplain : CommandLine.IsPlain rpcId.text := by
    rw [htext]
    exact isPlain_formatInt id
  let host : Host α := ⟨dir.path, rpcId, dir.no_blank, dir.no_quote, hplain⟩
  have hsplit := splitCommandLine_detour host call
  have hflag : api.mainArgument (literal "-p") = lit "-p" := harg (lit "-p") (by decide)
  have hmark : api.mainArgument (literal "--") = lit "--" := harg (lit "--") (by decide)
  have hvalue : api.mainArgument host.rpcId.text = formatInt id := by
    change api.mainArgument rpcId.text = formatInt id
    rw [htext]
    exact harg _ (isAscii_formatInt id)
  have hline : convertedCmdline (getCatterExePath dir.path.text) rpcId.text
    (call.applicationName.map CText.text) call.commandLine.text = host.detour call := rfl
  have hread : Proxy.stoi (formatInt id) = .ok id := Proxy.stoi_formatInt (by omega) hhigh
  refine ⟨_, by rw [argvOf, hget]; rfl, ?_⟩
  rw [hline, hsplit, List.map_append]
  simp only [List.map_cons, List.map_nil, List.cons_append, List.nil_append, hflag, hmark, hvalue,
    Proxy.readArguments, hread, ne_eq, not_true_eq_false, if_false]

def commandOf (k : Kernel Env) : ProcessCall → List Str
  | .createProcessA call => (CommandLine.arguments (spliced call)).map k.ansi.mainArgument
  | .createProcessW call => (CommandLine.arguments (spliced call)).map k.wide.mainArgument

variable (payload) in
lemma argumentsOf_reads (hk : k.Lawful) {environ : Env} {id : ℤ} (hcarries : Carries k environ id)
    (hlow : 0 ≤ id)
    (hhigh : id < 2 ^ 31) (call : ProcessCall) :
    ∃ argv, argumentsOf k payload environ call = some argv ∧
      Proxy.readArguments argv = Proxy.buildRawCmd id (commandOf k call) := by
  cases call with
  | createProcessA call =>
      exact argvOf_reads hk.argument_ansi hcarries.1 hlow hhigh payload.dirA call
  | createProcessW call =>
      exact argvOf_reads hk.argument_wide hcarries.2 hlow hhigh payload.dirW call

lemma fixed_isSome {α : Type} [DecidableEq α] [CharT α] {api : Api Env α} {environ : Env}
    (h : (getRpcId api environ).isSome) (entries : List (Entry α)) :
    (fixed api environ entries).isSome := by
  obtain ⟨rpcId, hget⟩ := Option.isSome_iff_exists.mp h
  rw [fixed, hget]
  simp only [Option.bind_eq_bind, Option.bind_some, fixEnvBlockHelper_block]
  rfl

lemma fixEnvBlock_isSome {environ : Env} {id : ℤ} (hcarries : Carries k environ id)
    (lpEnvironment : EnvironmentBlock) :
    (fixEnvBlock k environ lpEnvironment).isSome := by
  cases lpEnvironment with
  | inherited => rfl
  | ansi entries =>
    apply fixed_isSome
    rw [← Option.isSome_map, hcarries.1]
    rfl
  | unicode entries =>
    apply fixed_isSome
    rw [← Option.isSome_map, hcarries.2]
    rfl

lemma SameId.carries {environ environ' : Env} {id : ℤ} (h : SameId k environ environ')
    (hcarries : Carries k environ id) :
    Carries k environ' id := by
  rw [Carries, h.1, h.2]
  exact hcarries

/-! The invariant of a build. -/

structure Invariant (k : Kernel Env) (t : Tree Env) : Prop where
  counter : 1 ≤ t.idGenerator ∧ t.idGenerator < 2 ^ 31
  distinct : (t.connected.map ProxyProcess.id).Nodup
  given : ∀ proxy ∈ t.connected, 1 ≤ proxy.id ∧ proxy.id ≤ t.idGenerator
  parent : ∀ proxy ∈ t.connected, ∀ launcher ∈ proxy.launcher,
    proxy.parent? = some launcher ∧ ∃ above ∈ t.created, above.id = launcher
  created : ∀ proxy ∈ t.created, proxy ∈ t.connected
  programs : ∀ program ∈ t.programs,
    Carries k program.environ program.launcher ∧ ∃ above ∈ t.created, above.id = program.launcher

lemma Invariant.launcher_bounds {t : Tree Env} (h : Invariant k t) {program : Program Env}
    (hprogram : program ∈ t.programs) : 0 ≤ program.launcher ∧ program.launcher < 2 ^ 31 := by
  obtain ⟨-, above, habove, hid⟩ := h.programs program hprogram
  have hgiven := h.given above (h.created above habove)
  have hcounter := h.counter
  omega

lemma invariant_start (environ : Env) (argv : List Str) : Invariant k (start environ argv) where
  counter := ⟨le_rfl, by norm_num [start]⟩
  distinct := List.nodup_singleton _
  given := by
    intro proxy hproxy
    obtain rfl := List.mem_singleton.mp hproxy
    exact ⟨le_rfl, le_rfl⟩
  parent := by
    intro proxy hproxy launcher hlauncher
    obtain rfl := List.mem_singleton.mp hproxy
    exact absurd hlauncher (Option.not_mem_none launcher)
  created _ hproxy := absurd hproxy List.not_mem_nil
  programs _ hprogram := absurd hprogram List.not_mem_nil

lemma Step.invariant (hk : k.Lawful) {t t' : Tree Env} (hstep : Step k payload t t')
    (h : Invariant k t) :
    Invariant k t' := by
  have hcounter := h.counter
  cases hstep with
  | @call program call lpEnvironment argv environ hprogram hargv henviron hid =>
    obtain ⟨hcarries, habove⟩ := h.programs program hprogram
    obtain ⟨hlow, hhigh⟩ := h.launcher_bounds hprogram
    obtain ⟨argv', hargv', hread⟩ := argumentsOf_reads payload hk hcarries hlow hhigh call
    rw [hargv, Option.some.injEq] at hargv'
    subst hargv'
    have hparent : (Proxy.readArguments argv).parent? = some program.launcher := by
      rw [hread]
      exact Proxy.parent?_buildRawCmd _ _
    refine ⟨⟨by simp only; omega, hid⟩, ?_, ?_, ?_, ?_, h.programs⟩
    · rw [List.map_cons, List.nodup_cons]
      refine ⟨?_, h.distinct⟩
      intro hmem
      obtain ⟨proxy, hproxy, hsame⟩ := List.mem_map.mp hmem
      have hgiven := h.given proxy hproxy
      simp only at hsame
      omega
    · intro proxy hproxy
      rcases List.mem_cons.mp hproxy with rfl | hproxy
      · simp only
        omega
      · have hgiven := h.given proxy hproxy
        simp only
        omega
    · intro proxy hproxy launcher hlauncher
      rcases List.mem_cons.mp hproxy with rfl | hproxy
      · obtain rfl := Option.some.inj hlauncher
        exact ⟨hparent, habove⟩
      · exact h.parent proxy hproxy launcher hlauncher
    · intro proxy hproxy
      exact List.mem_cons_of_mem _ (h.created proxy hproxy)
  | @create proxy hproxy hparent =>
    have hmore : ∀ {id : ℤ}, (∃ above ∈ t.created, above.id = id) →
        ∃ above ∈ proxy :: t.created, above.id = id := by
      rintro id ⟨above, habove, hid⟩
      exact ⟨above, List.mem_cons_of_mem _ habove, hid⟩
    refine ⟨hcounter, h.distinct, h.given, ?_, ?_, ?_⟩
    · intro other hother launcher hlauncher
      exact (h.parent other hother launcher hlauncher).imp_right hmore
    · intro other hother
      rcases List.mem_cons.mp hother with rfl | hother
      · exact hproxy
      · exact h.created other hother
    · intro program hprogram
      exact (h.programs program hprogram).imp_right hmore
  | @inject proxy parent executable args environ hproxy hcommand henviron =>
    refine ⟨hcounter, h.distinct, h.given, h.parent, h.created, ?_⟩
    intro program hprogram
    rcases List.mem_cons.mp hprogram with rfl | hprogram
    · have hgiven := h.given proxy (h.created proxy hproxy)
      have hbounds : 0 ≤ proxy.id ∧ proxy.id < 2 ^ 31 := by omega
      exact ⟨hookEnviron_carries hk proxy.environ hbounds.1 hbounds.2 henviron, proxy, hproxy, rfl⟩
    · exact h.programs program hprogram
  | @change program environ hprogram hsame =>
    refine ⟨hcounter, h.distinct, h.given, h.parent, h.created, ?_⟩
    intro other hother
    rcases List.mem_cons.mp hother with rfl | hother
    · exact (h.programs program hprogram).imp_left hsame.carries
    · exact h.programs other hother

lemma Reachable.invariant (hk : k.Lawful) {environ : Env} {argv : List Str} {t : Tree Env}
    (h : Reachable k payload environ argv t) : Invariant k t := by
  induction h with
  | refl => exact invariant_start environ argv
  | tail _ hstep ih => exact hstep.invariant hk ih

lemma root_program {environ : Env} {argv : List Str} {parent : ℤ} {executable : Str}
    {args : List Str}
    (hread : Proxy.readArguments argv = .command parent executable args) :
    ∃ t, Reachable k payload environ argv t ∧ t.idGenerator = 1 ∧
      ∃ program ∈ t.programs, program.launcher = 1 := by
  let root : ProxyProcess Env := ⟨environ, argv, 1, none⟩
  let t₁ : Tree Env := { start environ argv with created := [root] }
  have hcreate : Step k payload (start environ argv) t₁ := by
    apply Step.create List.mem_cons_self
    rw [ProxyProcess.parent?, hread]
    rfl
  have hinject : Step k payload t₁ _ := Step.inject List.mem_cons_self hread (hookEnviron_eq _ _)
  exact ⟨_, (Relation.ReflTransGen.single hcreate).tail hinject, rfl, _, List.mem_cons_self, rfl⟩

lemma nested_program (hk : k.Lawful) {environ : Env} {argv : List Str} {t : Tree Env}
    (hreach : Reachable k payload environ argv t) {program : Program Env}
    (hprogram : program ∈ t.programs)
    (hid : t.idGenerator + 1 < 2 ^ 31) {call : ProcessCall} {executable : Str} {args : List Str}
    (hcommand : commandOf k call = executable :: args) :
    ∃ t', Reachable k payload environ argv t' ∧ t'.idGenerator = t.idGenerator + 1 ∧
      (∃ proxy ∈ t'.connected, proxy.launcher = some program.launcher) ∧
      ∃ program' ∈ t'.programs, program'.launcher = t.idGenerator + 1 := by
  have hinvariant := hreach.invariant hk
  obtain ⟨hcarries, -⟩ := hinvariant.programs program hprogram
  obtain ⟨hlow, hhigh⟩ := hinvariant.launcher_bounds hprogram
  obtain ⟨argv', hargv', hread⟩ := argumentsOf_reads payload hk hcarries hlow hhigh call
  rw [hcommand, Proxy.buildRawCmd] at hread
  let proxy : ProxyProcess Env := ⟨program.environ, argv', t.idGenerator + 1, some program.launcher⟩
  let t₁ : Tree Env :=
    { t with idGenerator := t.idGenerator + 1, connected := proxy :: t.connected }
  let t₂ : Tree Env := { t₁ with created := proxy :: t₁.created }
  have hcall : Step k payload t t₁ := by
    have hinherits : fixEnvBlock k program.environ .inherited = some program.environ := rfl
    exact Step.call hprogram hargv' hinherits hid
  have hcreate : Step k payload t₁ t₂ := by
    apply Step.create List.mem_cons_self
    rw [ProxyProcess.parent?, hread]
    rfl
  have hinject : Step k payload t₂ _ := Step.inject List.mem_cons_self hread (hookEnviron_eq _ _)
  exact ⟨_, ((hreach.tail hcall).tail hcreate).tail hinject, rfl, ⟨proxy, List.mem_cons_self, rfl⟩,
    _, List.mem_cons_self, rfl⟩

/-- In every build on Windows, at every depth, whatever environment blocks and command lines the
programs pass on: no two proxies have one id, each proxy that a program's call starts is told the id
of the proxy that launched the program, and no call of a program finds its id missing from the
environment. -/
theorem parent_is_launcher (hk : k.Lawful) {environ : Env} {argv : List Str} {t : Tree Env}
    (hreach : Reachable k payload environ argv t) :
    (t.connected.map ProxyProcess.id).Nodup ∧
    (∀ proxy ∈ t.connected, ∀ launcher ∈ proxy.launcher,
      proxy.parent? = some launcher ∧ ∃ above ∈ t.created, above.id = launcher) ∧
    ∀ program ∈ t.programs, ∀ (call : ProcessCall) (lpEnvironment : EnvironmentBlock),
      (argumentsOf k payload program.environ call).isSome ∧
        (fixEnvBlock k program.environ lpEnvironment).isSome := by
  have hinvariant := hreach.invariant hk
  refine ⟨hinvariant.distinct, hinvariant.parent, ?_⟩
  intro program hprogram call lpEnvironment
  obtain ⟨hcarries, -⟩ := hinvariant.programs program hprogram
  obtain ⟨hlow, hhigh⟩ := hinvariant.launcher_bounds hprogram
  obtain ⟨argv', hargv', -⟩ := argumentsOf_reads payload hk hcarries hlow hhigh call
  exact ⟨by rw [hargv']; rfl, fixEnvBlock_isSome hcarries lpEnvironment⟩

/-! A system whose environments are lists of entries, and whose wide characters are octets. -/

def toEntry (s : Str) : Option (Entry UInt8) :=
  if h : s ≠ [] ∧ charZero ∉ s then some ⟨s, h.1, h.2⟩ else none

def octetsOf (chars : List UInt16) : Str := chars.map UInt16.toUInt8

def valueOf (name : Str) (e : Entry UInt8) : CText UInt8 :=
  ⟨e.letters.drop (name.length + 1), fun h => e.no_mark (List.mem_of_mem_drop h)⟩

def CText.widen (s : CText UInt8) : CText UInt16 where
  text := s.text.map UInt8.toUInt16
  no_nul h := by
    obtain ⟨c, hc, hzero⟩ := List.mem_map.mp h
    have hnul : c = 0 := wcharT.injective hzero
    exact s.no_nul (hnul ▸ hc)

def plainKernel : Kernel (List (Entry UInt8)) where
  ansi :=
    { getEnvironmentVariable := fun environ name =>
      (environ.find? (hasName name)).map (valueOf name)
      environmentOf := fun raw => ((getEnvironment raw).getD []).filterMap toEntry
      mainArgument := id }
  wide :=
    { getEnvironmentVariable := fun environ name =>
        (environ.find? (hasName (octetsOf name))).map fun e => (valueOf (octetsOf name) e).widen
      environmentOf := fun raw => ((getEnvironment (octetsOf raw)).getD []).filterMap toEntry
      mainArgument := octetsOf }
  getEnvironmentStrings := id
  setEnvironmentVariableA environ name value :=
    (toEntry (name.text ++ 61 :: value.text)).toList ++ environ.filter fun e =>
      ! hasName name.text e

lemma toEntry_letters (e : Entry UInt8) : toEntry e.letters = some e :=
  dif_pos ⟨e.ne_nil, e.no_mark⟩

lemma octetsOf_wide (s : Str) : octetsOf (s.map CharT.ofOctet) = s := by
  have hback : ∀ c : UInt8, (CharT.ofOctet c : UInt16).toUInt8 = c :=
    fun c => UInt8.toUInt8_toUInt16 c
  simp [octetsOf, Function.comp_def, hback]

lemma environmentOf_block (entries : List (Entry UInt8)) :
    plainKernel.ansi.environmentOf (block charZero entries) = entries := by
  change ((getEnvironment (block charZero entries)).getD []).filterMap toEntry = entries
  rw [getEnvironment_block, Option.getD_some, List.filterMap_map]
  have hsame : toEntry ∘ Word.letters = some := funext toEntry_letters
  rw [hsame, List.filterMap_some]

lemma valueOf_first {name value : CText UInt8} {entries : List (Entry UInt8)}
    (h : FirstIs name value entries) :
    (entries.find? (hasName name.text)).map (valueOf name.text) = some value := by
  obtain ⟨e, hfind, hletters⟩ := Option.map_eq_some_iff.mp h
  obtain ⟨text, no_nul⟩ := value
  rw [hfind, Option.map_some, Option.some.injEq]
  simp [valueOf, hletters]

lemma plainKernel_lawful : plainKernel.Lawful where
  set_first environ name value hname hequals := by
    have hzero : charZero ∉ name.text ++ 61 :: value.text := by
      simp only [List.mem_append, List.mem_cons, not_or]
      exact ⟨name.no_nul, by decide, value.no_nul⟩
    have hentry : toEntry (name.text ++ 61 :: value.text) =
      some ⟨name.text ++ 61 :: value.text, by simp, hzero⟩ :=
      dif_pos ⟨by simp, hzero⟩
    have hmatch : hasName name.text ⟨name.text ++ 61 :: value.text, by simp, hzero⟩ = true := by
      simp [hasName]
    change Option.map _ (((toEntry (name.text ++ 61 :: value.text)).toList ++ _).find? _) = _
    rw [hentry, Option.toList_some, List.singleton_append, List.find?_cons_of_pos hmatch]
    rfl
  get_ansi entries name value hfirst := by
    rw [environmentOf_block]
    exact congrArg (Option.map CText.text) (valueOf_first hfirst)
  get_wide entries name value hfirst _ _ := by
    rw [environmentOf_block]
    change Option.map _
      (Option.map _ (entries.find? (hasName (octetsOf (name.text.map CharT.ofOctet))))) = _
    rw [octetsOf_wide]
    obtain ⟨e, hfind, hvalue⟩ := Option.map_eq_some_iff.mp (valueOf_first hfirst)
    rw [hfind, Option.map_some, Option.map_some, hvalue]
    rfl
  argument_ansi s _ := List.map_id s
  argument_wide s _ := octetsOf_wide s

def directory {α : Type} [DecidableEq α] [CharT α] (s : String) (hne : lit s ≠ [])
    (hplain : ∀ o ∈ lit s, isBlank o = false ∧ o ≠ doubleQuote) (hnul : 0 ∉ lit s) :
    Directory α where
  path := ⟨literal s, literal_no_nul hnul⟩
  no_blank := (literal_isPlain hne hplain).no_blank
  no_quote := (literal_isPlain hne hplain).no_quote

def cPayload : Payload where
  dirA := directory "C:\\catter" (by decide) (by decide) (by decide)
  dirW := directory "C:\\catter" (by decide) (by decide) (by decide)

def rootArgv : List Str := [lit "catter-proxy.exe", lit "-p", lit "0", lit "--", lit "make"]

def makeCall : ProcessCall :=
  .createProcessW ⟨none, ⟨literal "make -C a", literal_no_nul (by decide)⟩⟩

theorem parent_is_launcher_nested_make :
    ∃ t : Tree (List (Entry UInt8)), Reachable plainKernel cPayload [] rootArgv t ∧
      ∃ proxy ∈ t.connected, proxy.launcher = some 2 ∧ proxy.parent? = some 2 := by
  have hread : Proxy.readArguments rootArgv = .command 0 (lit "make") [] := by decide
  have hcommand : commandOf plainKernel makeCall = lit "make" :: [lit "-C", lit "a"] := by decide
  obtain ⟨t₁, hreach₁, hcounter₁, program₁, hprogram₁, hlauncher₁⟩ :=
    root_program (k := plainKernel) hread
  obtain ⟨t₂, hreach₂, hcounter₂, -, program₂, hprogram₂, hlauncher₂⟩ :=
    nested_program plainKernel_lawful hreach₁ hprogram₁ (by rw [hcounter₁]; decide) hcommand
  obtain ⟨t₃, hreach₃, -, ⟨proxy, hproxy, hlauncher⟩, -⟩ :=
    nested_program plainKernel_lawful hreach₂ hprogram₂
      (by rw [hcounter₂, hcounter₁]; decide) hcommand
  rw [hlauncher₂, hcounter₁] at hlauncher
  obtain ⟨-, hparents, -⟩ := parent_is_launcher plainKernel_lawful hreach₃
  exact ⟨t₃, hreach₃, proxy, hproxy, hlauncher, (hparents proxy hproxy 2 hlauncher).1⟩

end Catter.Win
