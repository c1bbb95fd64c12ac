import Catter.Hook.NonNull
import Catter.Proxy.HookCommand
import Catter.Proxy.Launching

/-! When the command that the hook hands to the linker ends in the execution of the caller's. -/

namespace Catter.Proxy

open Text Library.Region Hook Hook.CmdBuilder

section

variable {F : Type} (w : World) (file : Str → F)

-- Through the proxy that the session names, which starts a child for the same file, or as the
-- command itself.
def Executes (session : Session) (argv : Argv) (executable : CString) (args : List CString)
    (handed : Handed) : Prop :=
  match handed.command with
  | .own none => False
  | .own (some path) =>
    (∃ proxy ∈ session.proxyPath, Holds handed.builder.area path proxy.stored) ∧
      ∃ vector, IsVector handed.builder vector ∧
        ∃ cmd ∈ (main w (vector.map CString.bytes)).2.children,
        file cmd.executable = file executable.bytes ∧ cmd.args = args.map CString.bytes
  | .given _ none => False
  | .given path (some _) => path = executable ∧ argv.strs.tail = args

end

variable {p : Platform} {proxy selfId : CString} {b : CmdBuilder} {F : Type} {w : World}
    {file : Str → F}

lemma executes_own_iff {session : Session} (hproxy : session.proxyPath = some proxy) {path : ℕ}
    (hpath : Holds b.area path proxy.stored) {vector : List CString} (hvector : IsVector b vector)
    (argv : Argv)
    (executable : CString) (args : List CString) (call : LinkerCall) (envp : List CString) :
    Executes w file session argv executable args ⟨call, b, .own (some path), envp⟩ ↔
      ∃ cmd ∈ (main w (vector.map CString.bytes)).2.children,
        file cmd.executable = file executable.bytes ∧ cmd.args = args.map CString.bytes := by
  constructor
  · rintro ⟨-, vector', hvector', hchild⟩
    rw [hvector.unique hvector']
    exact hchild
  · intro hchild
    exact ⟨⟨proxy, hproxy, hpath⟩, vector, hvector, hchild⟩

lemma proxyStr_executes_iff (hb : Built proxy selfId b) (hfits : Fits p proxy selfId)
    {session : Session}
    (hproxy : session.proxyPath = some proxy) {sh : Shell}
    (hshell : ∀ k, w.locateExe k = sh.locateExe)
    (executable : Resolved p) (argv : Argv) (args : List CString) (call : LinkerCall)
    (argvIn : List CString)
    (hargs : argvIn.tail = args) (envp : List CString) :
    Executes w file session argv executable.path args
        ⟨call, (b.proxyStr p executable.path argvIn).1,
          (b.proxyStr p executable.path argvIn).2, envp⟩ ↔
      Room p proxy selfId executable.path args ∧ (∃ parent, stoi selfId.bytes = .ok parent) ∧
        LeadsTo w sh file executable.path.bytes (args.map CString.bytes) := by
  have hpath := (hb.keeps (proxyStr_keeps hb hfits executable.path argvIn)).args.2.1
  subst hargs
  by_cases hroom : Room p proxy selfId executable.path argvIn.tail
  · obtain ⟨b', hbuilt, -, hvector⟩ := proxyStr_isVector hb executable.path argvIn hroom
    rw [hbuilt] at hpath ⊢
    rw [hb.path, executes_own_iff hproxy hpath hvector]
    have hread := readVector_command proxy selfId executable.path argvIn.tail
    rw [readVector, withParent] at hread
    cases hself : stoi selfId.bytes with
    | error why =>
      rw [hself] at hread
      have hnone := main_childless (w := w) fun parent executable args => by rw [hread]; simp
      rw [show _ = [] from hnone]
      simp
    | ok parent =>
      rw [hself] at hread
      rw [leadsTo_iff hshell file hread]
      simp [hroom]
  · obtain ⟨b', msg, hbuilt, hprefix, hvector⟩ :=
      proxyStr_reports hb hfits executable.path argvIn executable.short hroom
    rw [hbuilt] at hpath ⊢
    have hread := readVector_error proxy selfId hprefix
    rw [readVector, withParent] at hread
    have hnone : Childless (main w ([proxy, parentFlag, selfId, msg].map CString.bytes)).2 := by
      apply main_childless
      intro parent executable args
      rw [hread]
      cases stoi selfId.bytes with
      | error why => simp
      | ok parent => simp
    rw [hb.path, executes_own_iff hproxy hpath hvector, show _ = [] from hnone]
    simp [hroom]

theorem executed_iff_room (e : Executor p) (environment : List CString)
    (hsession : e.session = Session.onLoad p environment) (proxy selfId : CString)
    (hproxy : e.session.proxyPath = some proxy) (hself : e.session.selfId = some selfId)
    (entry : Entry)
    (arg0 : CString) (args behind envp : List CString) (path : CString) (executable : Resolved p)
    (hpath : entry.path = some path)
    (hresolved : entry.resolve e.resolver envp path = .ok executable)
    (w : World) (sh : Shell) (hshell : ∀ k, w.locateExe k = sh.locateExe) (file : Str → F) :
    (e.call entry ⟨arg0 :: args, behind⟩ envp).HandsOver
        (Executes w file e.session ⟨arg0 :: args, behind⟩ executable.path args) ↔
      Room p proxy selfId executable.path args ∧ (∃ parent, stoi selfId.bytes = .ok parent) ∧
        LeadsTo w sh file executable.path.bytes (args.map CString.bytes) := by
  obtain ⟨hnull, hfits, hbuilt, hfinal⟩ := Executor.valid_builder hsession hproxy hself
  rw [Executor.call_handsOver executable hpath hresolved, hfinal,
    proxyStr_executes_iff hbuilt hfits hproxy hshell executable _ args entry.linkerCall _ rfl envp]
  exact and_iff_right hnull

def sampleEnvironment : List CString :=
  [cStr (lit "__key_catter_proxy_path_v1=/opt/catter-proxy"),
    cStr (lit "__key_catter_command_id_v1=7")]

lemma sampleEnvironment_session :
    (Session.onLoad .linux sampleEnvironment).proxyPath = some (cStr (lit "/opt/catter-proxy")) ∧
      (Session.onLoad .linux sampleEnvironment).selfId = some (cStr (lit "7")) := by
  apply onLoad_valid rfl rfl
  unfold Fits
  decide

def ccShell : Shell := Shell.installed (cStr (lit "cc")) (cStr (lit "/bin/cc"))

def ccWorld : World where
  write _ := .ok ()
  createReply := .ok 8
  decisionReply := .ok ⟨Rpc.Action.inject, ⟨lit "/", lit "/bin/cc", [lit "-c"], []⟩⟩
  stoiWhat _ := lit "stoi"
  currentPath := .ok (lit "/")
  environment := .ok []
  locateExe _ := ccShell.locateExe
  spawn _ _ := ⟨false, .error .other⟩
  hookRun _ _ := ⟨true, .ok 0⟩

theorem executed_short_command :
    ((Executor.sample sampleEnvironment).call (.execvpe (some (cStr (lit "/bin/cc"))))
      ⟨[cStr (lit "cc"), cStr (lit "-c")], []⟩ []).HandsOver
        (Executes ccWorld id (Session.onLoad .linux sampleEnvironment)
          ⟨[cStr (lit "cc"), cStr (lit "-c")], []⟩
          (cStr (lit "/bin/cc")) [cStr (lit "-c")]) := by
  obtain ⟨hproxy, hself⟩ := sampleEnvironment_session
  apply (executed_iff_room (Executor.sample sampleEnvironment) sampleEnvironment rfl _ _ hproxy
    hself _ _ _ _ _
    (cStr (lit "/bin/cc")) ⟨cStr (lit "/bin/cc"), by decide⟩ rfl rfl ccWorld ccShell
      (fun _ => rfl) id).mpr
  have hfound : ccShell.Answers (lit "/bin/cc") (lit "/bin/cc") :=
    ⟨by decide, ⟨lit "/bin/cc" ++ [lineEnd], some 0⟩, 0, rfl, rfl, rfl, by decide⟩
  refine ⟨?_, ⟨7, rfl⟩, 8, lit "/", [], lit "/bin/cc", _, lit "/bin/cc", rfl, rfl, rfl, rfl, hfound,
    rfl, rfl, hfound, rfl,
    rfl, Or.inr ⟨rfl, rfl⟩⟩
  unfold Room
  decide

theorem long_command_and_blank_path_not_executed :
    ¬ ((Executor.sample sampleEnvironment).call (.execve (some (cStr (lit "/bin/cc"))))
      ⟨cStr (lit "cc") :: List.replicate 4091 (cStr (lit "a")), []⟩ []).HandsOver
        (Executes ccWorld id (Session.onLoad .linux sampleEnvironment)
          ⟨cStr (lit "cc") :: List.replicate 4091 (cStr (lit "a")), []⟩ (cStr (lit "/bin/cc"))
          (List.replicate 4091 (cStr (lit "a")))) ∧
      ¬ ((Executor.sample sampleEnvironment).call (.execve (some (cStr (lit "/opt/my cc"))))
        ⟨[cStr (lit "cc")], []⟩ []).HandsOver
          (Executes ccWorld id (Session.onLoad .linux sampleEnvironment) ⟨[cStr (lit "cc")], []⟩
            (cStr (lit "/opt/my cc")) []) := by
  obtain ⟨hproxy, hself⟩ := sampleEnvironment_session
  have hsession : (Executor.sample sampleEnvironment).session =
    Session.onLoad .linux sampleEnvironment := rfl
  have hshell : ∀ k, ccWorld.locateExe k = ccShell.locateExe := fun _ => rfl
  obtain ⟨-, hfits, hbuilt, hfinal⟩ := Executor.valid_builder hsession hproxy hself
  constructor
  · have hlength : (List.replicate 4091 (cStr (lit "a"))).length = 4091 := List.length_replicate
    generalize List.replicate 4091 (cStr (lit "a")) = args at hlength ⊢
    rw [Executor.call_handsOver ⟨cStr (lit "/bin/cc"), by decide⟩ rfl rfl, hfinal]
    rintro ⟨-, hexecutes⟩
    obtain ⟨⟨hpointers, -⟩, -⟩ :=
      (proxyStr_executes_iff hbuilt hfits hproxy hshell _ _ args _ _ rfl _).mp hexecutes
    rw [hlength] at hpointers
    exact absurd hpointers (by decide)
  · rw [Executor.call_handsOver ⟨cStr (lit "/opt/my cc"), by decide⟩ rfl rfl, hfinal]
    rintro ⟨-, hexecutes⟩
    obtain ⟨-, -, hleads⟩ :=
      (proxyStr_executes_iff hbuilt hfits hproxy hshell ⟨cStr (lit "/opt/my cc"), by decide⟩
      ⟨[cStr (lit "cc")], []⟩ [] _ [cStr (lit "cc")] rfl _).mp hexecutes
    obtain ⟨_, _, _, located, _, _, -, -, -, -, ⟨-, ran, status, hran, hstatus, hexit, -⟩, -⟩ :=
      hleads
    cases hran
    cases hstatus
    exact absurd hexit (by decide)

end Catter.Proxy
