import Catter.Io.Operations
import Catter.Library.Triples

/-! `FileStream.with` and `TextFileStream.with`, whose stream is closed after every callback. -/

namespace Catter.Io

open Text Library Library.Decimal
open Library.Triples (Program throwing)

/-- What comes out of a call with a callback: a value that the callback threw, or an error made
there. -/
inductive Raised (ε : Type)
  | callback (e : ε)
  | new (message : Str)
deriving DecidableEq

def Abrupt.map {ε ε' : Type} (f : ε → ε') : Abrupt ε → Abrupt ε'
  | .thrown e => .thrown (f e)
  | .running => .running

/-- Part of a script, and the values that it throws. An exception undoes nothing of what it did to
the open files. -/
abbrev Script (ε α : Type) := Program (Abrupt ε) Files α

def call {ε α : Type} (m : Js α) : Script (Raised ε) α := fun fs =>
  match m fs with
  | .ok (a, fs') => (.ok a, fs')
  | .error e => (.error (e.map .new), fs)

namespace Script

variable {ε α : Type}

def throw (e : ε) : Script ε α := throwing (.error (.thrown e))

-- a body that never ends does not reach its handler
def catching (body : Script ε α) (handler : ε → Script ε α) : Script ε α := fun fs =>
  match body fs with
  | (.error (.thrown e), fs') => handler e fs'
  | outcome => outcome

def raised (m : Script ε α) : Script (Raised ε) α :=
  fun fs => ((m fs).1.mapError (Abrupt.map .callback), (m fs).2)

end Script

def withStream {σ ε : Type} (construct : Script (Raised ε) σ) (close : σ → Script (Raised ε) Unit)
    (callback : σ → Script ε Unit) : Script (Raised ε) Unit := do
  let stream ← construct
  (callback stream).raised.catching fun e => do
    close stream
    Script.throw e
  close stream

variable {ε : Type}

namespace FileStream

def new (disk : Str → Option Octets) (path : Str) : Script (Raised ε) ℤ := call (fileOpen disk path)

def close (fd : ℤ) : Script (Raised ε) Unit := call (fileClose fd)

def «with» (disk : Str → Option Octets) (path : Str) (callback : ℤ → Script ε Unit) :
    Script (Raised ε) Unit :=
  withStream (new disk path) close callback

end FileStream

def TextFileStream.supportedEncodings : List Str := [lit "ascii"]

structure TextFileStream where
  fileStream : ℤ
  encoding : { encoding : Str // TextFileStream.supportedEncodings.contains encoding }

namespace TextFileStream

def new (disk : Str → Option Octets) (path encoding : Str) : Script (Raised ε) TextFileStream := do
  let fileStream ← FileStream.new disk path
  if supported : supportedEncodings.contains encoding then return ⟨fileStream, encoding, supported⟩
  else Script.throw (.new (lit "Unsupported encoding: " ++ encoding))

def close (stream : TextFileStream) : Script (Raised ε) Unit := FileStream.close stream.fileStream

def «with» (disk : Str → Option Octets) (path encoding : Str)
    (callback : TextFileStream → Script ε Unit) :
    Script (Raised ε) Unit :=
  withStream (new disk path encoding) close callback

end TextFileStream

abbrev Outcome (ε : Type) := Except (Abrupt ε) Unit × Files

/-- The outcome of the callback, where its stream could be made. -/
def given {σ : Type} (construct : Script (Raised ε) σ) (callback : σ → Script ε Unit) (fs : Files) :
    Option (Outcome ε) :=
  match construct fs with
  | (.ok stream, opened) => some (callback stream opened)
  | (.error _, _) => none

/-- Once it returns or throws, the entry it made is gone, the others are as the
callback left them, and an exception of the callback came out. -/
def Cleans (fs : Files) (given : Option (Outcome ε)) (outcome : Outcome (Raised ε)) : Prop :=
  outcome.1 ≠ .error .running →
    (∀ k, outcome.2.openFiles k =
      if k = key fs.fileIdCnt ∧ fs.openFiles k = none then none
      else (given.elim fs Prod.snd).openFiles k) ∧
    ∀ e after, given = some (.error (.thrown e), after) → outcome.1 = .error (.thrown (.callback e))

def Files.opened (fs : Files) (content : Octets) : Files :=
  { if (fs.openFiles (key fs.fileIdCnt)).isSome then fs
    else fs.put fs.fileIdCnt (.opened content) with
    fileIdCnt := fs.fileIdCnt + 1 }

def Files.closed (fs : Files) (fd : ℤ) : Files :=
  { fs with openFiles := Function.update fs.openFiles (key fd) none }

/-- The callback never ends, or it left its stream open and the key of the stream
was new to the table, or it closed its stream and returned. -/
def Proper (fs : Files) (given : Outcome ε) : Prop :=
  given.1 = .error .running ∨
    (given.2.openFiles (key fs.fileIdCnt) ≠ none → fs.openFiles (key fs.fileIdCnt) = none) ∧
    (given.2.openFiles (key fs.fileIdCnt) = none → given.1 = .ok ())

lemma Cleans.restores {fs : Files} {given : Option (Outcome ε)} {outcome : Outcome (Raised ε)}
    (h : Cleans fs given outcome)
    (hends : outcome.1 ≠ .error .running) (hnew : fs.openFiles (key fs.fileIdCnt) = none)
    (hown : ∀ k, k ≠ key fs.fileIdCnt → (given.elim fs Prod.snd).openFiles k = fs.openFiles k) :
    outcome.2.openFiles = fs.openFiles := by
  funext k
  rw [(h hends).1 k]
  by_cases hk : k = key fs.fileIdCnt
  · rw [if_pos ⟨hk, hk ▸ hnew⟩, hk, hnew]
  · rw [if_neg fun h => hk h.1, hown k hk]

section Runs

variable {fs : Files} {fd : ℤ}

end Runs

section With

variable {σ : Type} {construct : Script (Raised ε) σ} {close : σ → Script (Raised ε) Unit}
    {callback : σ → Script ε Unit}
  {fs fs' : Files}

variable {stream : σ} {after : Files} {result : Except (Abrupt ε) Unit}
  (hconstruct : construct fs = (.ok stream, fs'))
  (hcallback : callback stream fs' = (result, after))

include hconstruct hcallback

end With

section Outcomes

variable {fs after : Files} {result : Except (Abrupt ε) Unit} (hresult : result ≠ .error .running)

include hresult

end Outcomes

structure Numbered (fs : Files) : Prop where
  first : 1 ≤ fs.fileIdCnt
  given : ∀ k, fs.openFiles k ≠ none → ∃ fd, 1 ≤ fd ∧ fd < fs.fileIdCnt ∧ key fd = k

lemma numbered_put (fs : Files) (fd : ℤ) (s t : FStream) (h : Numbered fs)
    (hs : fs.openFiles (key fd) = some s) :
    Numbered (fs.put fd t) := by
  refine ⟨h.first, fun k hk => ?_⟩
  apply h.given
  by_cases hkey : k = key fd
  · simp [hkey, hs]
  · simpa [Files.put, hkey] using hk

lemma numbered_closed (fs : Files) (fd : ℤ) (h : Numbered fs) : Numbered (fs.closed fd) := by
  refine ⟨h.first, fun k hk => ?_⟩
  apply h.given
  by_cases hkey : k = key fd
  · simp [Files.closed, hkey] at hk
  · simpa [Files.closed, hkey] using hk

lemma numbered_opened {fs : Files} (content : Octets) (h : Numbered fs) :
    Numbered (fs.opened content) := by
  have hfirst := h.first
  refine ⟨by simp only [Files.opened]; omega, fun k hk => ?_⟩
  by_cases hkey : k = key fs.fileIdCnt
  · exact ⟨fs.fileIdCnt, hfirst, by simp only [Files.opened]; omega, hkey.symm⟩
  · have hold : fs.openFiles k ≠ none := by
      rw [Files.opened] at hk
      split_ifs at hk
      · exact hk
      · simpa [Files.put, hkey] using hk
    obtain ⟨fd, hpos, hlt, hfd⟩ := h.given k hold
    exact ⟨fd, hpos, by simp only [Files.opened]; omega, hfd⟩

lemma numbered_open (disk : Str → Option Octets) (fs : Files) (path : Str) (h : Numbered fs) :
    Numbered (perform (fileOpen disk path) fs) := by
  cases hdisk : disk path with
  | none =>
    rw [perform, fileOpen, hdisk]
    exact h
  | some content =>
    rw [perform, fileOpen, hdisk]
    exact numbered_opened content h

lemma numbered_run (disk : Str → Option Octets) {fs : Files} (h : Numbered fs) (op : Op) :
    Numbered (op.run disk fs) := by
  rcases run_cases disk fs op with ⟨path, rfl⟩ | ⟨fd, rfl⟩ | hsame | ⟨fd, s, t, hs, hput, -⟩
  · exact numbered_open disk fs path h
  · apply perform_find h
    intro s _
    exact numbered_closed fs fd h
  · rw [hsame]
    exact h
  · rw [hput]
    exact numbered_put fs fd s t h hs

lemma numbered_runs (disk : Str → Option Octets) {fs : Files} (h : Numbered fs) (ops : List Op) :
    Numbered (ops.foldl (Op.run disk) fs) := by
  induction ops generalizing fs with
  | nil => exact h
  | cons op ops ih => exact ih (numbered_run disk h op)

lemma Numbered.new {fs : Files} (h : Numbered fs) (hfits : fs.fileIdCnt ≤ 2 ^ 32) :
    fs.openFiles (key fs.fileIdCnt) = none := by
  by_contra hold
  obtain ⟨fd, hpos, hlt, hkey⟩ := h.given _ hold
  have hmod := congrArg (· % ((2 ^ 32 : ℕ) : ℤ)) hkey
  simp only [key, Int.bmod_emod] at hmod
  omega

lemma proper_of_run (disk : Str → Option Octets) (ops : List Op) {fs : Files}
    (hfs : fs = ops.foldl (Op.run disk) noFiles) (hfits : fs.fileIdCnt ≤ 2 ^ 32)
    (outcome : Outcome ε) :
    Proper fs outcome ↔
      outcome.1 = .error .running ∨
        (outcome.2.openFiles (key fs.fileIdCnt) = none → outcome.1 = .ok ()) := by
  have hstart : Numbered noFiles := ⟨le_refl 1, fun k hk => absurd rfl hk⟩
  have hnew : fs.openFiles (key fs.fileIdCnt) = none :=
    (hfs ▸ numbered_runs disk hstart ops).new hfits
  rw [Proper, iff_true_intro fun _ => hnew, true_and]

end Catter.Io
