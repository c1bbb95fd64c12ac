import Catter.Hook.Environment
import Catter.Hook.Builder

/-! The hook library in a process: it reads its session from the environment when it is
loaded, and replaces the commands that the process starts. -/

namespace Catter.Hook

open Text Library.Region

def keyProxyPath : CString := ⟨lit "__key_catter_proxy_path_v1", by decide⟩

def keyCommandId : CString := ⟨lit "__key_catter_command_id_v1", by decide⟩

def catterProxyEnvKey : CString := ⟨lit "exec_is_catter_proxy_v1", by decide⟩

def invalidSession : CString :=
  ⟨lit "invalid enviroment variables of hook library, lost required value", by decide⟩

structure Session where
  proxyPath : Option CString
  selfId : Option CString
  necessaryEnvpEntry : Option CString × Option CString

namespace Session

def isValid (session : Session) : Bool := session.proxyPath.isSome && session.selfId.isSome

def fromEnv (environment : List CString) : Session :=
  let session : Session :=
    { proxyPath := getEnvValue environment keyProxyPath
      selfId := getEnvValue environment keyCommandId
      necessaryEnvpEntry := (none, none) }
  if session.isValid then
    { session with necessaryEnvpEntry := (getEnvEntry environment keyProxyPath,
      getEnvEntry environment keyCommandId) }
  else session

-- A stored pointer is given by the text that it points to.
def storeText (buf : Buffer) (mem : Memory) (text : Option CString) :
    Memory × Buffer × Option CString :=
  let (mem, buf, stored) := buf.store text mem
  (mem, buf, if stored.isSome then text else none)

def persist (p : Platform) (session : Session) (mem : Memory) : Session :=
  if session.isValid then
    let (mem, buf, proxyPath) := storeText ⟨0, p.pathMax * 2⟩ mem session.proxyPath
    let (mem, buf, selfId) := storeText buf mem session.selfId
    let (mem, buf, pathEntry) := storeText buf mem session.necessaryEnvpEntry.1
    let (_, _, idEntry) := storeText buf mem session.necessaryEnvpEntry.2
    { proxyPath, selfId, necessaryEnvpEntry := (pathEntry, idEntry) }
  else session

-- The library's own buffer is zero when it is loaded.
def onLoad (p : Platform) (environment : List CString) : Session :=
  (fromEnv environment).persist p fun _ => 0

end Session

def Command.valid : Command → Bool
  | .own path => path.isSome
  | .given _ _ => true

-- The executor's calls, for a program `path` and what the resolver makes of it.
def execute (p : Platform) (session : Session) (outside : Memory) (outsideSlots : ℕ → Option ℕ)
    (path : CString) (resolved : Option CString) (argv : List CString) :
    Option (CmdBuilder × Command) :=
  let builder := CmdBuilder.construct p outside outsideSlots session.proxyPath session.selfId
  match resolved with
  | none => none
  | some executable =>
    if session.isValid then some (builder.proxyStr p executable argv)
    else
      let (builder, command) := builder.errorStr p invalidSession path (some argv)
      if command.valid then some (builder, command) else some (builder.proxyStr p executable argv)

-- `IF_IN_PROXY`, by the first entry as for `getenv`.
def inProxy (environment : List CString) : Bool :=
  (getEnvValue environment catterProxyEnvKey).isSome

lemma storeText_fits (buf : Buffer) (mem : Memory) (s : CString)
    (h : buf.top + s.stored.length ≤ buf.end_) :
    ∃ mem', Session.storeText buf mem (some s) =
      (mem', { buf with top := buf.top + s.stored.length }, some s) := by
  obtain ⟨mem', hstore, -, -⟩ := Buffer.store_fits s mem h
  refine ⟨mem', ?_⟩
  simp only [Session.storeText, hstore]
  rfl

lemma onLoad_valid {p : Platform} {environment : List CString} {proxy selfId : CString}
    (hproxy : getEnvValue environment keyProxyPath = some proxy)
    (hid : getEnvValue environment keyCommandId = some selfId)
    (hfits : CmdBuilder.Fits p proxy selfId) :
    (Session.onLoad p environment).proxyPath = some proxy ∧
      (Session.onLoad p environment).selfId = some selfId := by
  unfold CmdBuilder.Fits at hfits
  obtain ⟨mem, hfirst⟩ := storeText_fits ⟨0, p.pathMax * 2⟩ (fun _ => 0) proxy (by simp only; omega)
  obtain ⟨mem', hsecond⟩ := storeText_fits ⟨0 + proxy.stored.length, p.pathMax * 2⟩ mem selfId
    (by simp only; omega)
  have hvalid : (Session.fromEnv environment).isValid = true := by
    simp [Session.fromEnv, Session.isValid, hproxy, hid]
  have hfrom : (Session.fromEnv environment).proxyPath = some proxy ∧
      (Session.fromEnv environment).selfId = some selfId := by
    simp [Session.fromEnv, Session.isValid, hproxy, hid]
  simp only [Session.onLoad, Session.persist, hvalid, if_true, hfrom.1, hfrom.2, hfirst, hsecond,
    and_self]

end Catter.Hook
