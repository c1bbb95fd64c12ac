import Catter.Io.Buffered

/-! What becomes of the writes of a script, over every sequence of operations and whatever the
system refuses. -/

namespace Catter.Io

open Text Library

inductive Native
  | fileOpen (path : Str)
  | fileClose (fd : ℤ)
  | fileSeek (fd offset : ℤ) (whence : ℕ)
  | fileTell (fd : ℤ)
  | fileReadN (fd : ℤ) (bufSize : ℕ) (buffer : ArrayBuffer)
  | fileWriteN (fd : ℤ) (data : Uint8Array)

/-- The calls of an operation, each made where none before it threw. -/
def Op.natives (memory : Bool) : Op → List Native
  | .open path => [.fileOpen path]
  | .close fd => [.fileClose fd]
  -- `new ArrayBuffer(n)` comes before the call
  | .read fd n => if n ≤ 0 ∨ 2 ^ 31 ≤ n ∨ !memory then []
    else [.fileReadN fd n.toNat (List.replicate n.toNat 0)]
  | .readBuf fd into => [.fileReadN fd into.length into.buffer]
  | .seekRead fd offset whence => [.fileSeek fd offset whence]
  | .seekWrite fd offset whence => [.fileSeek fd offset whence]
  | .tellRead fd => [.fileTell fd]
  | .tellWrite fd => [.fileTell fd]
  | .write fd data => [.fileWriteN fd data]
  | .append fd data => [.fileSeek fd 0 2, .fileWriteN fd data]

namespace Native

open Buffered

def call (around : Surroundings) : Native → Call Unit
  | fileOpen path => do
    let _ ← Buffered.fileOpen around path
    return ()
  | fileClose fd => Buffered.fileClose around fd
  | fileSeek fd offset whence => Buffered.fileSeek around fd offset whence
  | fileTell fd => do
    let _ ← Buffered.fileTell fd
    return ()
  | fileReadN fd bufSize buffer => do
    let _ ← Buffered.fileReadN around fd bufSize buffer
    return ()
  | fileWriteN fd data => Buffered.fileWriteN around fd data.length data.buffer

def callAll (around : Surroundings) : List Native → Streams →
    List (Native × Surroundings × Streams) × Streams
  | [], st => ([], st)
  | native :: natives, st =>
    match native.call around st with
    | (.ok (), st') => ((native, around, st) :: (callAll around natives st').1,
      (callAll around natives st').2)
    | (.error _, st') => ([(native, around, st)], st')

end Native

def calls : Streams → List (Op × Surroundings) → List (Native × Surroundings × Streams)
  | _, [] => []
  | st, (op, around) :: ops =>
    let (made, st) := Native.callAll around (op.natives around.memory) st
    made ++ calls st ops

def noStreams (disk : ℕ → Octets) : Streams := ⟨1, fun _ => none, disk⟩

/-- The file as the stream under a key shows it, and as it is where there is none. -/
def Streams.shown (st : Streams) (k : ℤ) (file : ℕ) : Octets :=
  match st.openFiles k with
  | some s => (s.view (st.disk file)).content
  | none => st.disk file

/-- What stood in a buffer still stands in its file, or in the buffer for the same place. -/
def Safe (st st' : Streams) : Prop :=
  ∀ k s, st.openFiles k = some s → s.held <+: (st'.shown k s.file).drop s.start

def Native.Stores (st st' : Streams) : Native → Prop
  | .fileWriteN fd data => ∃ s t, st.openFiles (key fd) = some s ∧ st'.openFiles (key fd) = some t ∧
      Stored (s.view (st.disk s.file)) (t.view (st'.disk s.file)) data
  | _ => True

def Kept : Native × Surroundings × Streams → Prop
  | (native, around, st) =>
    Safe st (native.call around st).2 ∧
      ((native.call around st).1 = .ok () → native.Stores st (native.call around st).2)

/-- The stream that the call uses can do what is asked of it: its buffer is taken where it has to
go, and for a write no flag is up and the view starts where its buffer does or shows what stands
there. -/
def Effective : Native × Surroundings × Streams → Prop
  | (.fileOpen _, _, _) | (.fileTell _, _, _) => True
  | (.fileClose fd, around, st) => ∀ s, st.openFiles (key fd) = some s →
    s.Flushes (st.disk s.file) around.flushed []
  | (.fileSeek fd offset whence, around, st) => ∀ s, st.openFiles (key fd) = some s →
      2 < whence ∨ (whence = 1 ∧ offset = 0) ∨ s.Flushes (st.disk s.file) around.flushed s.held
  | (.fileReadN fd bufSize buffer, around, st) => ∀ s, st.openFiles (key fd) = some s →
      buffer.length < bufSize ∨ s.good = false ∨ s.Flushes (st.disk s.file) around.flushed s.held
  | (.fileWriteN fd data, around, st) => ∀ s, st.openFiles (key fd) = some s →
      let front := data.buffer.take data.length
      if s.Raises around front then
        s.good = true → s.Survives (st.disk s.file) ((s.held ++ front).take around.taken)
          around.left
      else data.length = 0 ∨ (s.good = true ∧ front = data.octets)

section Safe

variable {st : Streams} {fd : ℤ}

lemma safe_of_same {st' : Streams} (h : ∀ k s, st.openFiles k = some s → st'.openFiles k = some s) :
    Safe st st' := by
  intro k s hs
  rw [Streams.shown, h k s hs]
  exact s.held_shown _

lemma safe_iff {st' : Streams} {s : Buffered} (hs : st.openFiles (key fd) = some s)
    (hother : ∀ k, k ≠ key fd → st'.openFiles k = st.openFiles k) :
    Safe st st' ↔ s.held <+: (st'.shown (key fd) s.file).drop s.start := by
  constructor
  · intro hsafe
    exact hsafe _ s hs
  · intro hheld k s' hs'
    by_cases hk : k = key fd
    · rw [hk, hs] at hs'
      cases hs'
      rw [hk]
      exact hheld
    · rw [Streams.shown, hother k hk, hs']
      exact s'.held_shown _

lemma safe_put_iff {s t : Buffered} {content : Octets} (hs : st.openFiles (key fd) = some s)
    (hfile : t.file = s.file) :
    Safe st (st.put fd content t) ↔ s.held <+: (t.view content).content.drop s.start := by
  have hshown : (st.put fd content t).shown (key fd) s.file = (t.view content).content := by
    simp [Streams.shown, Streams.put, hfile]
  rw [safe_iff hs, hshown]
  intro k hk
  simp [Streams.put, hk]

def Streams.erase (st : Streams) (fd : ℤ) : Streams :=
  { st with openFiles := Function.update st.openFiles (key fd) none }

lemma safe_erase_iff {s t : Buffered} {content : Octets} (hs : st.openFiles (key fd) = some s)
    (hfile : t.file = s.file) :
    Safe st ((st.put fd content t).erase fd) ↔ s.held <+: content.drop s.start := by
  have hshown : ((st.put fd content t).erase fd).shown (key fd) s.file = content := by
    simp [Streams.shown, Streams.put, Streams.erase, hfile]
  rw [safe_iff hs, hshown]
  intro k hk
  simp [Streams.put, Streams.erase, hk]

end Safe

namespace Buffered

variable {st : Streams} {fd : ℤ} (around : Surroundings)

lemma find_none {α : Type} (f : Buffered × Octets → Call α) (hs : st.openFiles (key fd) = none) :
    ∃ e, (find fd >>= f) st = (.error e, st) := by
  have hfind : ∃ e, find fd st = (.error e, st) := by
    rw [find, hs]
    exact ⟨_, rfl⟩
  exact hfind.imp fun _ he => Triples.bind_error he

lemma seekDir_cases (whence : ℕ) :
    (∃ dir, seekDir whence = pure dir ∧ ¬2 < whence ∧ (dir = .cur ↔ whence = 1)) ∨
      2 < whence ∧ ∃ e, ∀ st, seekDir whence st = (.error e, st) := by
  match whence with
  | 0 => exact Or.inl ⟨.beg, rfl, by decide, by decide⟩
  | 1 => exact Or.inl ⟨.cur, rfl, by decide, by decide⟩
  | 2 => exact Or.inl ⟨.end, rfl, by decide, by decide⟩
  | n + 3 => exact Or.inr ⟨by omega, _, fun _ => rfl⟩

variable {s : Buffered} (hs : st.openFiles (key fd) = some s)

include hs

lemma find_run : find fd st = (.ok (s, st.disk s.file), st) := by
  rw [find, hs]

lemma fileClose_run {content : Octets} {t : Buffered} {done : Bool}
    (h : s.flush (st.disk s.file) around.flushed = (content, t, done)) :
    fileClose around fd st =
      if !done && t.bad then (.error iosFailure, st.put fd content t.shut)
      else (.ok (), (st.put fd content t.shut).erase fd) := by
  refine (Triples.bind_ok (find_run hs)).trans ?_
  dsimp only
  rw [h]
  refine (Triples.bind_ok (rfl : put fd content t.shut st = _)).trans ?_
  split_ifs <;> rfl

lemma fileSeek_run (offset : ℤ) {whence : ℕ} {dir : SeekDir} (hdir : seekDir whence = pure dir) :
    fileSeek around fd offset whence st =
      (.ok (), st.put fd (s.clear.seek (st.disk s.file) around offset dir).1
        (s.clear.seek (st.disk s.file) around offset dir).2) := by
  refine (Triples.bind_ok (find_run hs)).trans ?_
  exact Triples.bind_ok (by rw [hdir]; rfl)

lemma fileTell_run :
    fileTell fd st = (.ok (if s.closed then -1 else ↑s.pos), st.put fd (st.disk s.file) s.clear) :=
  Triples.bind_ok (find_run hs)

lemma fileReadN_run {bufSize : ℕ} {buffer : ArrayBuffer} (hfits : ¬buffer.length < bufSize)
    {count : ℕ}
    {content : Octets} {t : Buffered}
    (h : s.read (st.disk s.file) around bufSize = (count, content, t)) :
    fileReadN around fd bufSize buffer st =
      (if s.bad then .error iosFailure else .ok count, st.put fd content t) := by
  refine (Triples.bind_ok (find_run hs)).trans ?_
  dsimp only
  rw [if_neg hfits, h]
  refine (Triples.bind_ok (rfl : put fd content t st = _)).trans ?_
  cases s.bad <;> rfl

lemma fileWriteN_run (data : Uint8Array) {raised : Bool} {content : Octets} {t : Buffered}
    (h : s.write (st.disk s.file) around (data.buffer.take data.length) = (raised, content, t)) :
    fileWriteN around fd data.length data.buffer st =
      (if raised then .error iosFailure else .ok (), st.put fd content t) := by
  have hfits : ¬data.buffer.length < data.length := by
    have := data.inside
    omega
  refine (Triples.bind_ok (find_run hs)).trans ?_
  dsimp only
  rw [if_neg hfits, h]
  refine (Triples.bind_ok (rfl : put fd content t st = _)).trans ?_
  cases raised <;> rfl

lemma fileClose_safe_iff : Safe st (fileClose around fd st).2 ↔
    s.Flushes (st.disk s.file) around.flushed [] := by
  have hcontent := s.flush_content (st.disk s.file) around.flushed
  have hfile := s.flush_file (st.disk s.file) around.flushed
  match h : s.flush (st.disk s.file) around.flushed with
  | (content, t, done) =>
    rw [h] at hcontent hfile
    rw [fileClose_run around hs h, ← flushes_nil_iff, ← hcontent]
    split_ifs
    · have hshut : Safe st (st.put fd content t.shut) ↔ _ := safe_put_iff hs hfile
      rw [view_idle content t.shut rfl] at hshut
      exact hshut
    · exact safe_erase_iff hs hfile

lemma fileSeek_safe_iff (offset : ℤ) (whence : ℕ) :
    Safe st (fileSeek around fd offset whence st).2 ↔
      2 < whence ∨ (whence = 1 ∧ offset = 0) ∨
        s.Flushes (st.disk s.file) around.flushed s.held := by
  rcases seekDir_cases whence with ⟨dir, hdir, hvalid, hcur⟩ | ⟨hinvalid, e, he⟩
  · rw [fileSeek_run around hs offset hdir, or_iff_right hvalid, ← hcur]
    refine (safe_put_iff hs (seek_file _ s.clear around offset dir)).trans ?_
    by_cases hrests : dir = .cur ∧ offset = 0
    · rw [seek_rests _ _ _ _ _ hrests]
      exact iff_of_true (held_shown _ s) (Or.inl hrests)
    · rw [seek_view _ _ _ _ _ hrests, flush_view, or_iff_right hrests]
      exact flushes_iff _ s _
  · have hrun : fileSeek around fd offset whence st = (.error e, st) :=
      (Triples.bind_ok (find_run hs)).trans (Triples.bind_error (he st))
    rw [hrun]
    exact iff_of_true (safe_of_same fun _ _ h => h) (Or.inl hinvalid)

lemma fileTell_safe : Safe st (fileTell fd st).2 := by
  rw [fileTell_run hs]
  exact (safe_put_iff (t := s.clear) hs rfl).mpr (held_shown _ s)

lemma fileReadN_safe_iff (bufSize : ℕ) (buffer : ArrayBuffer) :
    Safe st (fileReadN around fd bufSize buffer st).2 ↔
      buffer.length < bufSize ∨ s.good = false ∨
        s.Flushes (st.disk s.file) around.flushed s.held := by
  by_cases hfits : buffer.length < bufSize
  · have hrun : fileReadN around fd bufSize buffer st = (.error _, st) :=
      (Triples.bind_ok (find_run hs)).trans (by dsimp only; rw [if_pos hfits]; rfl)
    rw [hrun]
    exact iff_of_true (safe_of_same fun _ _ h => h) (Or.inl hfits)
  · have hfile := read_file (st.disk s.file) s around bufSize
    have hview := read_view (st.disk s.file) s around bufSize
    match h : s.read (st.disk s.file) around bufSize with
    | (count, content, t) =>
      rw [h] at hfile hview
      rw [fileReadN_run around hs hfits h, or_iff_right hfits]
      refine (safe_put_iff hs hfile).trans ?_
      by_cases hgood : s.good = true
      · rw [hview hgood, flush_view, flushes_iff, hgood, or_iff_right (by simp)]
      · rw [read, if_neg hgood] at h
        cases h
        exact iff_of_true (held_shown _ s) (Or.inl (Bool.eq_false_of_not_eq_true hgood))

lemma fileWriteN_safe_iff (data : Uint8Array) :
    Safe st (fileWriteN around fd data.length data.buffer st).2 ↔
      (s.Raises around (data.buffer.take data.length) → s.good = true →
        s.Survives (st.disk s.file) ((s.held ++ data.buffer.take data.length).take around.taken)
          around.left) := by
  have hfile := write_file (st.disk s.file) s around (data.buffer.take data.length)
  rw [← write_survives_iff]
  match h : s.write (st.disk s.file) around (data.buffer.take data.length) with
  | (raised, content, t) =>
    rw [h] at hfile
    rw [fileWriteN_run around hs data h]
    exact safe_put_iff hs hfile

lemma fileWriteN_stores_iff (data : Uint8Array) :
    ((fileWriteN around fd data.length data.buffer st).1 = .ok () →
      (Native.fileWriteN fd data).Stores st (fileWriteN around fd data.length data.buffer st).2) ↔
      (¬s.Raises around (data.buffer.take data.length) →
        data.length = 0 ∨ (s.good = true ∧ data.buffer.take data.length = data.octets)) := by
  have hfile := write_file (st.disk s.file) s around (data.buffer.take data.length)
  have hraises := write_raises (st.disk s.file) s around (data.buffer.take data.length)
  have hview := write_view (st.disk s.file) s around (data.buffer.take data.length)
  match h : s.write (st.disk s.file) around (data.buffer.take data.length) with
  | (raised, content, t) =>
    rw [h] at hfile hraises hview
    dsimp only at hfile hraises hview
    rw [fileWriteN_run around hs data h, ← hraises]
    cases raised with
    | true => exact iff_of_true (fun hok => nomatch hok) fun hnot => absurd rfl hnot
    | false =>
      have hstored := stored_iff (s.view (st.disk s.file)) data
      rw [view_good, ← hview (by simp [← hraises])] at hstored
      simp only [Bool.false_eq_true, not_false_iff, true_imp_iff, if_false]
      rw [← hstored]
      simp [Native.Stores, Streams.put, hs, hfile]

end Buffered

section Kept

variable (around : Surroundings) {st : Streams}

lemma kept_fileOpen (path : Str) : Kept (.fileOpen path, around, st) := by
  have hstate : ((Native.fileOpen path).call around st).2 = (Buffered.fileOpen around path st).2 :=
    Triples.bind_keeps id (fun _ _ => rfl) st
  refine ⟨?_, fun _ => trivial⟩
  rw [hstate]
  apply safe_of_same
  intro k s hs
  rw [Buffered.fileOpen]
  cases around.found with
  | none => exact hs
  | some file =>
    dsimp only
    split_ifs with hold
    · exact hs
    · rw [Function.update_of_ne, hs]
      rintro rfl
      simp [hs] at hold

lemma kept_iff_of_open {native : Native} {fd : ℤ} {P : Buffered → Prop}
    (hnone : st.openFiles (key fd) = none → ∃ e, native.call around st = (.error e, st))
    (hsome : ∀ s, st.openFiles (key fd) = some s → (Kept (native, around, st) ↔ P s)) :
    Kept (native, around, st) ↔ ∀ s, st.openFiles (key fd) = some s → P s := by
  cases hs : st.openFiles (key fd) with
  | none =>
    obtain ⟨e, he⟩ := hnone hs
    refine iff_of_true ⟨?_, ?_⟩ fun s hs => nomatch hs
    · rw [he]
      exact safe_of_same fun _ _ hs => hs
    · rw [he]
      exact fun hok => nomatch hok
  | some s => simpa using hsome s hs

lemma kept_fileTell (fd : ℤ) : Kept (.fileTell fd, around, st) := by
  have hstate : ((Native.fileTell fd).call around st).2 = (Buffered.fileTell fd st).2 :=
    Triples.bind_keeps id (fun _ _ => rfl) st
  have hiff : Kept (.fileTell fd, around, st) ↔ ∀ s, st.openFiles (key fd) = some s → True := by
    apply kept_iff_of_open around
    · exact fun hs => (Buffered.find_none _ hs).imp fun _ he => Triples.bind_error he
    · exact fun s hs => iff_of_true ⟨hstate ▸ Buffered.fileTell_safe hs, fun _ => trivial⟩ trivial
  exact hiff.mpr fun _ _ => trivial

lemma kept_fileWriteN_iff {fd : ℤ} {s : Buffered} (hs : st.openFiles (key fd) = some s)
    (data : Uint8Array) :
    Kept (.fileWriteN fd data, around, st) ↔
      if s.Raises around (data.buffer.take data.length) then
        s.good = true →
          s.Survives (st.disk s.file) ((s.held ++ data.buffer.take data.length).take around.taken)
            around.left
      else data.length = 0 ∨ (s.good = true ∧ data.buffer.take data.length = data.octets) := by
  refine (and_congr (Buffered.fileWriteN_safe_iff around hs data)
    (Buffered.fileWriteN_stores_iff around hs data)).trans ?_
  split_ifs with hraises
  · simp [hraises]
  · simp [hraises]

end Kept

lemma kept_iff (call : Native × Surroundings × Streams) : Kept call ↔ Effective call := by
  obtain ⟨native, around, st⟩ := call
  cases native with
  | fileOpen path => exact iff_of_true (kept_fileOpen around path) trivial
  | fileClose fd =>
    apply kept_iff_of_open around (Buffered.find_none _)
    intro s hs
    exact (and_iff_left fun _ => trivial).trans (Buffered.fileClose_safe_iff around hs)
  | fileSeek fd offset whence =>
    apply kept_iff_of_open around (Buffered.find_none _)
    intro s hs
    exact (and_iff_left fun _ => trivial).trans (Buffered.fileSeek_safe_iff around hs offset whence)
  | fileTell fd => exact iff_of_true (kept_fileTell around fd) trivial
  | fileReadN fd bufSize buffer =>
    apply kept_iff_of_open around
    · exact fun hs => (Buffered.find_none _ hs).imp fun _ he => Triples.bind_error he
    · intro s hs
      have hstate : ((Native.fileReadN fd bufSize buffer).call around st).2 =
          (Buffered.fileReadN around fd bufSize buffer st).2 :=
        Triples.bind_keeps id (fun _ _ => rfl) st
      refine (and_iff_left fun _ => trivial).trans ?_
      rw [hstate]
      exact Buffered.fileReadN_safe_iff around hs bufSize buffer
  | fileWriteN fd data =>
    apply kept_iff_of_open around (Buffered.find_none _)
    intro s hs
    exact kept_fileWriteN_iff around hs data

theorem every_write_kept_iff (disk : ℕ → Octets) (ops : List (Op × Surroundings)) :
    (∀ call ∈ calls (noStreams disk) ops, Kept call) ↔
      ∀ call ∈ calls (noStreams disk) ops, Effective call :=
  forall₂_congr fun call _ => kept_iff call

def calm : Surroundings := ⟨some 0, true, 4096, true, 0, 4096, []⟩

def sampleData : Uint8Array := ⟨[98], 0, 1, by decide⟩

theorem write_after_short_read :
    (¬∀ call ∈ calls (noStreams fun _ => [97]) [(.open [], calm), (.read 1 2, calm),
      (.write 1 sampleData, calm)],
      Kept call) ∧
    ¬∀ call ∈ calls (noStreams fun _ => [97])
        [(.open [], calm), (.write 1 sampleData, calm), (.close 1, { calm with flushed := 0 })],
      Kept call := by
  let opened := ((Native.fileOpen []).call calm (noStreams fun _ => [97])).2
  constructor
  · intro h
    let read := ((Native.fileReadN 1 2 [0, 0]).call calm opened).2
    let s : Buffered := ⟨0, 1, [], true, true, false, false, by decide, by decide⟩
    have heffective : Effective (.fileWriteN 1 sampleData, calm, read) := by
      apply (kept_iff _).mp
      apply h
      exact List.mem_of_getElem? (i := 2) rfl
    exact absurd (heffective s rfl) (by decide)
  · intro h
    let wrote := ((Native.fileWriteN 1 sampleData).call calm opened).2
    let s : Buffered := ⟨0, 1, [98], false, false, false, false, by decide, by decide⟩
    have heffective : Effective (.fileClose 1, { calm with flushed := 0 }, wrote) := by
      apply (kept_iff _).mp
      apply h
      exact List.mem_of_getElem? (i := 2) rfl
    exact absurd (heffective s rfl) (by decide)

end Catter.Io
