import Catter.Proxy.LocateExe

/-! The command that catter-proxy starts a child for, by what each step of `main` comes to. -/

namespace Catter.Proxy

open Text Rpc Library.Lines Library.Triples
open Hook (cStr)

def approach (w : World) (parent : Int32) (executable : Str) (args : List Str) :
    Script (Int32 × Action) := do
  let id ← RpcHandler.create w parent
  let cmd ← rawCmd w executable args
  let cmd ← locateExe w cmd
  let receivedAct ← RpcHandler.makeDecision w cmd
  let receivedCmd ← locateExe w receivedAct.cmd
  return (id, ⟨receivedAct.type, receivedCmd⟩)

def comesTo (w : World) (executable : Str) : Except Exn (Int32 × Action) := do
  w.write 0
  let id ← w.createReply
  let _ ← w.currentPath
  let _ ← w.environment
  let _ ← w.locateExe 0 executable
  w.write 1
  let act ← w.decisionReply
  let received ← w.locateExe 1 act.cmd.executable
  return (id, ⟨act.type, { act.cmd with executable := received }⟩)

def Starts (w : World) (act : Action) (id : Int32) : Prop :=
  act.type = Action.wrap ∧ (w.spawn act.cmd.executable act.cmd.args).started = true ∨
    act.type = Action.inject ∧ (w.hookRun act.cmd id).started = true

-- Nothing is started yet; so many writes and calls of `locate_exe` are behind.
def Before (writes locates : ℕ) (s : Talk) : Prop :=
  s.writes = writes ∧ s.locates = locates ∧ s.children = []

def Childless (s : Talk) : Prop := s.children = []

section

variable {w : World}

lemma write_gives (msg : Message) (writes locates : ℕ) :
    Gives (Before writes locates) (write w msg) (w.write writes) (Before (writes + 1) locates)
      Childless := by
  rintro s ⟨rfl, rfl, hnone⟩
  rw [write]
  cases w.write s.writes with
  | ok _ => exact ⟨rfl, rfl, rfl, hnone⟩
  | error e => exact ⟨rfl, hnone⟩

lemma locateExe_gives (cmd : Command) (writes locates : ℕ) :
    Gives (Before writes locates) (locateExe w cmd)
      (do
        let received ← w.locateExe locates cmd.executable
        return { cmd with executable := received })
      (Before writes (locates + 1)) Childless := by
  rintro s ⟨rfl, rfl, hnone⟩
  rw [locateExe]
  cases w.locateExe s.locates cmd.executable with
  | ok received => exact ⟨rfl, rfl, rfl, hnone⟩
  | error e => exact ⟨rfl, hnone⟩

lemma throwing_gives {α : Type} (e : Except Exn α) (writes locates : ℕ) :
    Gives (Before writes locates) (throwing e) e (Before writes locates) Childless :=
  Gives.throwing e fun _ hs => hs.2.2

lemma create_gives (parent : Int32) :
    Gives (Before 0 0) (RpcHandler.create w parent) (w.write 0 >>= fun _ => w.createReply)
      (Before 1 0) Childless := by
  have hreply := Gives.bind (throwing_gives w.createReply 1 0) (R := Before 1 0) (g := .ok)
    (f := fun nxtId => do update fun s => { s with id := nxtId }; return nxtId)
    fun nxtId => Gives.update_bind (fun s hs => hs) Gives.pure
  rw [show (w.createReply >>= .ok) = w.createReply from bind_pure _] at hreply
  exact Gives.update_bind (Q := Before 0 0)
    (fun s hs => hs) (Gives.bind (write_gives _ 0 0) fun _ => hreply)

lemma makeDecision_gives (cmd : Command) :
    Gives (Before 1 1) (RpcHandler.makeDecision w cmd) (w.write 1 >>= fun _ => w.decisionReply)
      (Before 2 1) Childless := by
  have hreply := Gives.bind (throwing_gives w.decisionReply 2 1) (R := Before 2 1) (g := .ok)
    (f := fun act => do record (.decoded act); return act)
    fun act => Gives.update_bind (fun s hs => hs) Gives.pure
  rw [show (w.decisionReply >>= .ok) = w.decisionReply from bind_pure _] at hreply
  exact Gives.bind (write_gives _ 1 1) fun _ => hreply

lemma approach_gives (w : World) (parent : Int32) (executable : Str) (args : List Str) :
    Gives (Before 0 0) (approach w parent executable args) (comesTo w executable) (Before 2 2)
      Childless := by
  have hraw : Gives (Before 1 0) (rawCmd w executable args) (do
      let workingDir ← w.currentPath
      let env ← w.environment
      return ⟨workingDir, executable, args, env⟩) (Before 1 0) Childless :=
    Gives.bind (throwing_gives w.currentPath 1 0) fun workingDir =>
      Gives.bind (throwing_gives w.environment 1 0) fun env => Gives.pure
  have hparts := Gives.bind (create_gives (w := w) parent) fun id => Gives.bind hraw fun cmd =>
    Gives.bind (locateExe_gives (w := w) cmd 1 0) fun located =>
      Gives.bind (makeDecision_gives (w := w) located) fun act =>
      Gives.bind (locateExe_gives (w := w) act.cmd 2 1) fun received =>
        Gives.pure (E := Childless) (a := ((id, ⟨act.type, received⟩) : Int32 × Action))
  simp only [bind_assoc, pure_bind] at hparts
  exact hparts

lemma write_children (msg : Message) (s : Talk) : (write w msg s).2.children = s.children := by
  rw [write]
  cases w.write s.writes with
  | ok _ => rfl
  | error e => rfl

lemma launch_children {α : Type} (cmd : Command) (l : Attempt α) (s : Talk) :
    (launch cmd l s).2.children = if l.started then s.children ++ [cmd] else s.children := by
  rw [launch]
  cases l.started with
  | false => rfl
  | true => rfl

lemma run_children (act : Action) (id : Int32) {s : Talk} (hs : Childless s) (cmd : Command) :
    cmd ∈ (run w act id s).2.children ↔ Starts w act id ∧ cmd = act.cmd := by
  have hlaunch : ∀ {α : Type} (l : Attempt α),
      cmd ∈ (launch act.cmd l s).2.children ↔ l.started = true ∧ cmd = act.cmd := by
    intro α l
    rw [launch_children, show s.children = [] from hs]
    cases l.started with
    | false => simp
    | true => simp
  have hkinds : Action.wrap ≠ Action.inject := by decide
  rw [run, Starts]
  split_ifs with hwrap hinject hdrop
  · rw [bind_keeps Talk.children fun _ _ => rfl, hlaunch]
    simp [hwrap, hkinds]
  · simp [hinject, hkinds.symm, hlaunch]
  · have hnone : cmd ∉ s.children := by simp [show s.children = [] from hs]
    simp only [hwrap, hinject, false_and, or_self, iff_false]
    exact hnone
  · have hnone : cmd ∉ s.children := by simp [show s.children = [] from hs]
    simp only [hwrap, hinject, false_and, or_self, iff_false]
    exact hnone

lemma main_children (argv : List Str) : (main w argv).2.children =
    (guarded w argv .start).2.children := by
  rw [main]
  rcases guarded w argv .start with ⟨(⟨what⟩ | ⟨⟩) | ret, s⟩
  · exact write_children _ s
  · exact write_children _ s
  · rfl

lemma main_children_iff {argv : List Str} {parent : ℤ} {executable : Str} {args : List Str}
    (cmd : Command)
    (hargv : readArguments argv = .command parent executable args) :
    cmd ∈ (main w argv).2.children ↔
      ∃ id act, comesTo w executable = .ok (id, act) ∧ Starts w act id ∧ cmd = act.cmd := by
  have hguarded : guarded w argv = approach w (.ofInt parent) executable args >>= fun came => do
      let ret ← run w came.2 came.1
      RpcHandler.finish w ret
      return ret := by
    rw [guarded, hargv]
    simp only [approach, carryOut, bind_assoc, pure_bind]
  obtain ⟨hvalue, hstate⟩ := approach_gives w (.ofInt parent) executable args .start ⟨rfl, rfl, rfl⟩
  rw [main_children, hguarded, bind_run]
  rcases happroach : approach w (.ofInt parent) executable args .start with ⟨e | ⟨id, act⟩, s⟩
  · rw [happroach] at hvalue hstate
    rw [← hvalue] at hstate ⊢
    simp [show s.children = [] from hstate]
  · rw [happroach] at hvalue hstate
    rw [← hvalue] at hstate ⊢
    rw [bind_keeps Talk.children]
    · rw [run_children act id hstate.2.2 cmd]
      simp
    · intro ret t
      rw [bind_keeps Talk.children fun _ _ => rfl]
      exact write_children _ t

lemma main_childless {argv : List Str}
    (hargv : ∀ parent executable args, readArguments argv ≠ .command parent executable args) :
    Childless (main w argv).2 := by
  have hrefuse : ∀ (errorMsg : Str) (s : Talk), (refuse w errorMsg s).2.children = s.children :=
    fun errorMsg s =>
    write_children _ s
  have hcreate : ∀ parent (m : Int32 → Script Int32), (∀ id t, (m id t).2.children = t.children) →
      ((RpcHandler.create w parent >>= m) .start).2.children = [] := by
    intro parent m hm
    rw [bind_keeps Talk.children hm]
    exact (create_gives parent).state (R := Childless) (fun s hs => hs.2.2)
      (fun s hs => hs) ⟨rfl, rfl, rfl⟩
  rw [Childless, main_children, guarded]
  cases hread : readArguments argv with
  | insufficient => exact hrefuse _ _
  | invalid => exact hrefuse _ _
  | badParent why => rfl
  | hookError parent msg => exact hcreate _ _ fun id t => hrefuse msg t
  | noCommand parent => exact hcreate _ _ fun id t => rfl
  | command parent executable args => exact absurd hread (hargv parent executable args)

end

/-! The condition, by what the shell, the server and the system answer. -/

-- The shell finds something for the name: its line, as far as it goes into 127 letters, is the
-- path.
def Shell.Answers (sh : Shell) (name path : Str) : Prop :=
  path ≠ [] ∧ ∃ ran status, sh.run (cStr (findCmd name)).bytes = some ran ∧
    ran.status = some status ∧
    wexitstatus status = 0 ∧ upTo 0 ((upTo lineEnd ran.output).take 127) = path

/-- The conversation with the server goes through, the decision keeps the arguments, the shell leads
from the executable, by way of the decision, to the same file, and its child can be started. -/
def LeadsTo {F : Type} (w : World) (sh : Shell) (file : Str → F) (executable : Str)
    (args : List Str) : Prop :=
  ∃ id workingDir env located act received,
    w.write 0 = .ok () ∧ w.createReply = .ok id ∧
    w.currentPath = .ok workingDir ∧ w.environment = .ok env ∧
    sh.Answers executable located ∧
    w.write 1 = .ok () ∧ w.decisionReply = .ok act ∧
    sh.Answers act.cmd.executable received ∧ file received = file executable ∧
    act.cmd.args = args ∧ Starts w ⟨act.type, { act.cmd with executable := received }⟩ id

lemma bind_eq_ok {ε α β : Type} {e : Except ε α} {f : α → Except ε β} {b : β} :
    (e >>= f) = .ok b ↔ ∃ a, e = .ok a ∧ f a = .ok b := by
  cases e with
  | error e => simp [bind, Except.bind]
  | ok a => simp [bind, Except.bind]

lemma Shell.locateExe_ok_iff {sh : Shell} {name path : Str} : sh.locateExe name = .ok path ↔
    sh.Answers name path := by
  rw [locateExe, Answers]
  cases sh.run (cStr (findCmd name)).bytes with
  | none => simp
  | some ran =>
    obtain ⟨output, status⟩ := ran
    cases status with
    | none => simp
    | some status =>
      have hshell : (∃ ran status', some (⟨output, some status⟩ : ShellRun) = some ran ∧
        ran.status = some status' ∧
          wexitstatus status' = 0 ∧ upTo 0 ((upTo lineEnd ran.output).take 127) = path) ↔
          wexitstatus status = 0 ∧ upTo 0 ((upTo lineEnd output).take 127) = path := by simp
      rw [hshell]
      simp only [readResult_eq]
      generalize upTo 0 ((upTo lineEnd output).take 127) = shown
      by_cases hexit : wexitstatus status = 0
      · by_cases hempty : shown = []
        · simp only [hexit, hempty, ne_eq, not_true, if_false, if_true, reduceCtorEq, false_iff]
          rintro ⟨hne, -, hpath⟩
          exact hne hpath.symm
        · simp only [hexit, hempty, ne_eq, not_true, if_false, Except.ok.injEq, true_and]
          constructor
          · rintro rfl
            exact ⟨hempty, rfl⟩
          · rintro ⟨-, hpath⟩
            exact hpath
      · simp [hexit]

lemma leadsTo_iff {F : Type} {w : World} {sh : Shell} (hshell : ∀ k, w.locateExe k = sh.locateExe)
    (file : Str → F)
    {argv : List Str} {parent : ℤ} {executable : Str} {args : List Str}
    (hargv : readArguments argv = .command parent executable args) :
    (∃ cmd ∈ (main w argv).2.children, file cmd.executable = file executable ∧ cmd.args = args) ↔
      LeadsTo w sh file executable args := by
  simp only [main_children_iff _ hargv, comesTo, hshell, bind_eq_ok,
    Shell.locateExe_ok_iff, LeadsTo]
  constructor
  · rintro ⟨cmd, ⟨id, act, hcomes, hstarts, rfl⟩, hfile, hargs⟩
    obtain ⟨⟨⟩, hfirst, id', hid, workingDir, hpath, env, henv, located, hlocated, ⟨⟩, hsecond,
      act', hact, received,
      hreceived, hsame⟩ := hcomes
    cases hsame
    exact ⟨id, workingDir, env, located, act', received, hfirst, hid, hpath, henv, hlocated,
      hsecond, hact, hreceived,
      hfile, hargs, hstarts⟩
  · rintro ⟨id, workingDir, env, located, act, received, hfirst, hid, hpath, henv, hlocated,
      hsecond, hact, hreceived,
      hfile, hargs, hstarts⟩
    exact ⟨_, ⟨id, _, ⟨(), hfirst, id, hid, workingDir, hpath, env, henv, located, hlocated, (),
      hsecond, act, hact, received,
      hreceived, rfl⟩, hstarts, rfl⟩, hfile, hargs⟩

end Catter.Proxy
