import Catter.Library.Decimal
import Catter.Qjs.Value

/-! `std::fstream` in read-write mode, and the file functions of the C API over
the table of open files. -/

namespace Catter.Io

open Text Library.Decimal

abbrev Octets := List UInt8

-- A filebuf has one position for reading and for writing.
structure FStream where
  content : Octets
  pos : ℕ
  eof : Bool
  fail : Bool
deriving DecidableEq

inductive SeekDir
  | beg
  | cur
  | end
deriving DecidableEq

def written (content : Octets) (pos : ℕ) (data : Octets) : Octets :=
  if data = [] then content
  else (content ++ List.replicate (pos - content.length) 0).take pos ++ data ++
    content.drop (pos + data.length)

namespace FStream

def opened (content : Octets) : FStream := ⟨content, 0, false, false⟩

def good (s : FStream) : Bool := !s.eof && !s.fail

def clear (s : FStream) : FStream := { s with eof := false, fail := false }

@[simp] lemma clear_content (s : FStream) : s.clear.content = s.content := rfl

@[simp] lemma clear_pos (s : FStream) : s.clear.pos = s.pos := rfl

@[simp] lemma clear_good (s : FStream) : s.clear.good = true := rfl

def rest (s : FStream) : Octets := s.content.drop s.pos

/-- `istream::read`: what it extracts, `gcount` of it, and the stream after it. -/
def read (s : FStream) (n : ℕ) : Octets × FStream :=
  if s.good then
    let octets := s.rest.take n
    let short : Bool := octets.length < n
    (octets, { s with pos := s.pos + octets.length, eof := short, fail := short })
  else ([], { s with fail := true })

def base (s : FStream) : SeekDir → ℕ
  | .beg => 0
  | .cur => s.pos
  | .end => s.content.length

def seek (s : FStream) (offset : ℤ) (dir : SeekDir) : FStream :=
  let target := s.base dir + offset
  if 0 ≤ target then { s with pos := target.toNat } else { s with fail := true }

def tell (s : FStream) : ℤ := if s.fail then -1 else s.pos

def write (s : FStream) (data : Octets) : FStream :=
  if s.good then { s with content := written s.content s.pos data, pos := s.pos + data.length }
  else { s with fail := true }

lemma read_of_good {s : FStream} (hs : s.good = true) (n : ℕ) :
    s.read n = (s.rest.take n, { s with
      pos := s.pos + (s.rest.take n).length
      eof := (s.rest.take n).length < n
      fail := (s.rest.take n).length < n }) :=
  if_pos hs

lemma read_of_not_good {s : FStream} (hs : ¬s.good = true) (n : ℕ) :
    s.read n = ([], { s with fail := true }) :=
  if_neg hs

lemma write_of_good {s : FStream} (hs : s.good = true) (data : Octets) :
    s.write data = { s with content := written s.content s.pos data, pos := s.pos + data.length } :=
  if_pos hs

lemma write_of_not_good {s : FStream} (hs : ¬s.good = true) (data : Octets) :
    s.write data = { s with fail := true } :=
  if_neg hs

end FStream

inductive Abrupt (ε : Type)
  | thrown (error : ε)
  | running
deriving DecidableEq

structure Files where
  fileIdCnt : ℤ
  openFiles : ℤ → Option FStream

/-- What a script calls. The error that it throws is a new one with this message. -/
abbrev Js := StateT Files (Except (Abrupt Str))

namespace Js

def throw {α : Type} (message : Str) : Js α := fun _ => .error (.thrown message)

def throwQjs {α : Type} (what : Str) : Js α := throw (Qjs.Thrown.qjs what).message

end Js

-- `file_id` is an `int64_t`, the keys of `open_files` are `int`s
def key (fileId : ℤ) : ℤ := fileId.bmod (2 ^ 32)

def Files.put (fs : Files) (fileId : ℤ) (s : FStream) : Files :=
  { fs with openFiles := Function.update fs.openFiles (key fileId) (some s) }

def find (fileId : ℤ) : Js FStream := fun fs =>
  match fs.openFiles (key fileId) with
  | some s => .ok (s, fs)
  | none => Js.throwQjs (lit "Invalid file id: " ++ formatInt fileId) fs

def put (fileId : ℤ) (s : FStream) : Js Unit := fun fs => .ok ((), fs.put fileId s)

def fileOpen (disk : Str → Option Octets) (path : Str) : Js ℤ := fun fs =>
  match disk path with
  | none => Js.throwQjs (lit "Failed to open file: " ++ path) fs
  | some content =>
    let fileId := fs.fileIdCnt
    -- `emplace` keeps an entry that stands under the key
    let added := if (fs.openFiles (key fileId)).isSome then fs else fs.put fileId (.opened content)
    .ok (fileId, { added with fileIdCnt := fileId + 1 })

def fileClose (fileId : ℤ) : Js Unit := do
  let _ ← find fileId
  modify fun fs => { fs with openFiles := Function.update fs.openFiles (key fileId) none }

def seekDir (whence : ℕ) : Js SeekDir :=
  match whence with
  | 0 => pure .beg
  | 1 => pure .cur
  | 2 => pure .end
  | _ => Js.throwQjs (lit "Invalid whence: " ++ formatInt whence)

def fileSeek (fileId offset : ℤ) (whence : ℕ) : Js Unit := do
  let s ← find fileId
  let dir ← seekDir whence
  put fileId (s.clear.seek offset dir)

def fileSeekRead (fileId offset : ℤ) (whence : ℕ) : Js Unit := fileSeek fileId offset whence

def fileSeekWrite (fileId offset : ℤ) (whence : ℕ) : Js Unit := fileSeek fileId offset whence

def fileTell (fileId : ℤ) : Js ℤ := do
  let s ← find fileId
  put fileId s.clear
  return s.clear.tell

def fileTellRead (fileId : ℤ) : Js ℤ := fileTell fileId

def fileTellWrite (fileId : ℤ) : Js ℤ := fileTell fileId

abbrev ArrayBuffer := Octets

def overlay (buffer : ArrayBuffer) (octets : Octets) : ArrayBuffer :=
  (octets ++ buffer.drop octets.length).take buffer.length

@[simp] lemma overlay_length (buffer : ArrayBuffer) (octets : Octets) :
    (overlay buffer octets).length = buffer.length := by
  simp only [overlay, List.length_take, List.length_append, List.length_drop]
  omega

def fileReadN (fileId : ℤ) (bufSize : ℕ) (buffer : ArrayBuffer) :
    Js (ℕ × { filled : ArrayBuffer // filled.length = buffer.length }) := do
  let s ← find fileId
  if buffer.length < bufSize then
    Js.throwQjs (lit "Failed to get ArrayBuffer data or buffer is too small!")
  else
    let (octets, s) := s.read bufSize
    put fileId s
    return (octets.length, ⟨overlay buffer octets, overlay_length buffer octets⟩)

def fileWriteN (fileId : ℤ) (bufSize : ℕ) (buffer : ArrayBuffer) : Js Unit := do
  let s ← find fileId
  if buffer.length < bufSize then
    Js.throwQjs (lit "Failed to get ArrayBuffer data or buffer is small!")
  else put fileId (s.write (buffer.take bufSize))

end Catter.Io
