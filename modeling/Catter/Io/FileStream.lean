import Catter.Io.FStream

/-! `FileStream` of the JavaScript API over the file functions. -/

namespace Catter.Io

open Text

structure Uint8Array where
  buffer : ArrayBuffer
  byteOffset : ℕ
  length : ℕ
  inside : byteOffset + length ≤ buffer.length
deriving DecidableEq

namespace Uint8Array

def zeros (n : ℕ) : Uint8Array := ⟨List.replicate n 0, 0, n, by simp⟩

def octets (a : Uint8Array) : Octets := (a.buffer.drop a.byteOffset).take a.length

def refilled (a : Uint8Array) (buffer : ArrayBuffer) (h : buffer.length = a.buffer.length) :
    Uint8Array :=
  { a with buffer := buffer, inside := h ▸ a.inside }

@[simp] lemma octets_length (a : Uint8Array) : a.octets.length = a.length := by
  have := a.inside
  simp only [octets, List.length_take, List.length_drop]
  omega

end Uint8Array

namespace FileStream

def seekWrite (fd offset : ℤ) (whence : ℕ) : Js Unit := fileSeekWrite fd offset whence

def seekRead (fd offset : ℤ) (whence : ℕ) : Js Unit := fileSeekRead fd offset whence

def tellRead (fd : ℤ) : Js ℤ := fileTellRead fd

def tellWrite (fd : ℤ) : Js ℤ := fileTellWrite fd

def read (fd n : ℤ) : Js Uint8Array := do
  if n < 0 then Js.throw (lit "n must be positive")
  else if n = 0 then return .zeros 0
  -- `new ArrayBuffer(n)`
  else if 2 ^ 31 ≤ n then Js.throw (lit "invalid array buffer length")
  else
    let (bytesRead, ⟨filled, _⟩) ← fileReadN fd n.toNat (List.replicate n.toNat 0)
    if h : 0 + bytesRead ≤ filled.length then return ⟨filled, 0, bytesRead, h⟩
    else Js.throw (lit "invalid array length")

def readBuf (fd : ℤ) (into : Uint8Array) : Js (ℕ × Uint8Array) := do
  let (bytesRead, ⟨filled, h⟩) ← fileReadN fd into.length into.buffer
  return (bytesRead, into.refilled filled h)

def write (fd : ℤ) (data : Uint8Array) : Js Unit := fileWriteN fd data.length data.buffer

def append (fd : ℤ) (data : Uint8Array) : Js Unit := do
  seekWrite fd 0 2
  write fd data

end FileStream

lemma bind_ok {α β : Type} {m : Js α} {f : α → Js β} {fs fs' : Files} {a : α}
    (h : m fs = .ok (a, fs')) :
    (m >>= f) fs = f a fs' := by
  simp only [bind, StateT.bind, h, Except.bind]

lemma pure_run {α : Type} (a : α) (fs : Files) : (pure a : Js α) fs = .ok (a, fs) := rfl

lemma put_run (fd : ℤ) (s : FStream) (fs : Files) : put fd s fs = .ok ((), fs.put fd s) := rfl

lemma bind_error {α β : Type} {m : Js α} {f : α → Js β} {fs : Files} {e : Abrupt Str}
    (h : m fs = .error e) :
    (m >>= f) fs = .error e := by
  simp only [bind, StateT.bind, h, Except.bind]

@[simp] lemma put_openFiles (fs : Files) (fd : ℤ) (s : FStream) :
    (fs.put fd s).openFiles (key fd) = some s := by
  simp [Files.put]

@[simp] lemma put_put (fs : Files) (fd : ℤ) (s t : FStream) :
    (fs.put fd s).put fd t = fs.put fd t := by
  simp [Files.put]

section Open

variable {fs : Files} {fd : ℤ} {s : FStream} (hs : fs.openFiles (key fd) = some s)

include hs

lemma find_run : find fd fs = .ok (s, fs) := by
  simp [find, hs]

lemma fileSeek_run (offset : ℤ) (whence : ℕ) {dir : SeekDir} (hw : seekDir whence = pure dir) :
    fileSeek fd offset whence fs = .ok ((), fs.put fd (s.clear.seek offset dir)) := by
  rw [fileSeek, bind_ok (find_run hs), hw, bind_ok (pure_run dir fs), put_run]

lemma fileTell_run : fileTell fd fs = .ok ((s.pos : ℤ), fs.put fd s.clear) := by
  rw [fileTell, bind_ok (find_run hs), bind_ok (put_run fd s.clear fs), pure_run]
  rfl

lemma fileReadN_run (n : ℕ) (buffer : ArrayBuffer) (hn : n ≤ buffer.length) :
    fileReadN fd n buffer fs =
      .ok (((s.read n).1.length, ⟨overlay buffer (s.read n).1, overlay_length _ _⟩),
        fs.put fd (s.read n).2) := by
  rw [fileReadN, bind_ok (find_run hs), if_neg (Nat.not_lt.mpr hn)]
  rfl

lemma readBuf_run (into : Uint8Array) :
    FileStream.readBuf fd into fs =
      .ok (((s.read into.length).1.length,
        into.refilled (overlay into.buffer (s.read into.length).1) (overlay_length _ _)),
        fs.put fd (s.read into.length).2) := by
  have := into.inside
  rw [FileStream.readBuf, bind_ok (fileReadN_run hs into.length into.buffer (by omega))]
  rfl

lemma fileWriteN_run (n : ℕ) (buffer : ArrayBuffer) (hn : n ≤ buffer.length) :
    fileWriteN fd n buffer fs = .ok ((), fs.put fd (s.write (buffer.take n))) := by
  rw [fileWriteN, bind_ok (find_run hs), if_neg (Nat.not_lt.mpr hn), put_run]

end Open

lemma find_closed {fs : Files} {fd : ℤ} (hs : fs.openFiles (key fd) = none) :
    ∃ e, find fd fs = .error e := by
  rw [find, hs]
  exact ⟨_, rfl⟩

end Catter.Io
