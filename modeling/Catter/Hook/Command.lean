import Catter.Hook.Buffer

/-! `CmdBuilder`: the commands that the hook hands to the linker, built in two fixed
areas, one for the bytes and one for the pointers. -/

namespace Catter.Hook

open Text Library.Region

inductive Platform
  | linux | mac
deriving DecidableEq

namespace Platform

variable (p : Platform)

def pathMax : ℕ :=
  match p with
  | linux => 4096
  | mac => 1024

def bufSize : ℕ := p.pathMax * 100

def maxArgc : ℕ := p.pathMax

end Platform

def errorPrefix : CString := ⟨lit "linux or mac error found in hook:", by decide⟩

def parentFlag : CString := ⟨lit "-p", by decide⟩

def commandMark : CString := ⟨lit "--", by decide⟩

def emptyText : CString := ⟨[], by decide⟩

def blank : CString := ⟨lit " ", by decide⟩

def inExecuting : CString := ⟨lit " in executing:\n    --->", by decide⟩

def overflowMsg : CString := ⟨lit "Overflow when building command", by decide⟩

-- `area` and `argv` go on behind the two arrays, with the memory that is not the builder's.
structure CmdBuilder where
  area : Memory
  argv : ℕ → Option ℕ
  appendPtr : ℕ
  appendArgvPtr : ℕ
  executablePathPtr : Option ℕ

-- `{executable_path_ptr, this->argv}`, or the path and the vector of the caller.
inductive Command
  | own (path : Option ℕ)
  | given (path : CString) (argvIn : Option (List CString))

namespace CmdBuilder

variable (p : Platform)

-- The last slot is reserved for the null pointer.
def storeArg (b : CmdBuilder) (buf : Buffer) (str : Option CString) :
    CmdBuilder × Buffer × Option ℕ :=
  if p.maxArgc - 1 ≤ b.appendArgvPtr then (b, buf, none)
  else match buf.store str b.area with
    | (area, buf, none) => ({ b with area }, buf, none)
    | (area, buf, some stored) =>
      ({ b with area, argv := Function.update b.argv b.appendArgvPtr (some stored),
                appendArgvPtr := b.appendArgvPtr + 1 }, buf, some stored)

def storeArgs (b : CmdBuilder) (buf : Buffer) : List CString → CmdBuilder × Buffer × Bool
  | [] => (b, buf, true)
  | str :: strs =>
    match storeArg p b buf (some str) with
    | (b, buf, none) => (b, buf, false)
    | (b, buf, some _) => storeArgs b buf strs

-- The strings that the constructor stores. The results are not checked in the source either; the
-- sizes that a valid session allows leave room.
def constructArgs (outside : Memory) (outsideSlots : ℕ → Option ℕ)
    (proxyPath selfId : Option CString) :
    CmdBuilder × Buffer × Option ℕ :=
  let b : CmdBuilder :=
    { area := fun k => if k < p.bufSize then 0 else outside k
      argv := fun k => if k < p.maxArgc then none else outsideSlots k
      appendPtr := 0
      appendArgvPtr := 0
      executablePathPtr := none }
  let (b, buf, stored) := storeArg p b ⟨0, p.bufSize⟩ proxyPath
  let (b, buf, _) := storeArg p b buf (some parentFlag)
  let (b, buf, _) := storeArg p b buf selfId
  (b, buf, stored)

def construct (outside : Memory) (outsideSlots : ℕ → Option ℕ) (proxyPath selfId : Option CString) :
    CmdBuilder :=
  let (b, buf, stored) := constructArgs p outside outsideSlots proxyPath selfId
  let (area, _, top) := buf.store (some emptyText) b.area
  { b with area, appendPtr := top.getD 0, executablePathPtr := stored }

-- Without room for the last empty string `append_ptr` is null, and the next call writes through it.
def appendNull (outside : Memory) (outsideSlots : ℕ → Option ℕ)
    (proxyPath selfId : Option CString) : Bool :=
  let (b, buf, _) := constructArgs p outside outsideSlots proxyPath selfId
  (buf.store (some emptyText) b.area).2.2.isNone

-- The result of `push` is ignored.
def pushAll (buf : Buffer) (area : Memory) : List CString → Memory × Buffer
  | [] => (area, buf)
  | str :: strs =>
    let (area, buf, _) := buf.push (some str) area
    pushAll buf area strs

-- The loops read from `argv_in[1]` on.
def errorTexts (msg path : CString) (argvIn : Option (List CString)) : List CString :=
  [errorPrefix, blank, msg, inExecuting, path] ++ (argvIn.getD []).tail.flatMap fun arg =>
    [blank, arg]

def errorStr (b : CmdBuilder) (msg path : CString) (argvIn : Option (List CString)) :
    CmdBuilder × Command :=
  let (area, buf) := pushAll ⟨b.appendPtr, p.bufSize⟩ b.area (errorTexts msg path argvIn)
  match buf.store (some emptyText) area with
  | (area, _, none) => ({ b with area }, .given path argvIn)
  | (area, _, some _) =>
    let argv := Function.update b.argv b.appendArgvPtr (some b.appendPtr)
    ({ b with area, argv := Function.update argv (b.appendArgvPtr + 1) none },
      .own b.executablePathPtr)

-- Both pointers are set back at the end, whether or not everything was stored.
def proxyStr (b : CmdBuilder) (path : CString) (argvIn : List CString) : CmdBuilder × Command :=
  match storeArgs p b ⟨b.appendPtr, p.bufSize⟩ (commandMark :: path :: argvIn.tail) with
  | (b', _, true) =>
    ({ b' with argv := Function.update b'.argv b'.appendArgvPtr none, appendPtr := b.appendPtr,
               appendArgvPtr := b.appendArgvPtr }, .own b'.executablePathPtr)
  | (b', _, false) =>
    errorStr p { b' with appendPtr := b.appendPtr, appendArgvPtr := b.appendArgvPtr } overflowMsg
      path none

inductive Call
  | proxy (path : CString) (argvIn : List CString)
  | error (msg path : CString) (argvIn : Option (List CString))

def run (b : CmdBuilder) : Call → CmdBuilder × Command
  | .proxy path argvIn => b.proxyStr p path argvIn
  | .error msg path argvIn => b.errorStr p msg path argvIn

def runAll (b : CmdBuilder) (history : List Call) : CmdBuilder :=
  history.foldl (fun b call => (run p b call).1) b

end CmdBuilder

end Catter.Hook
