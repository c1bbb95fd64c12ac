import Catter.Io.TextLines

/-! The operations of a script on files, each stream being an unbuffered view of its file. -/

namespace Catter.Io

open Text

inductive Op
  | open (path : Str)
  | close (fd : ℤ)
  | read (fd n : ℤ)
  | readBuf (fd : ℤ) (into : Uint8Array)
  | seekRead (fd offset : ℤ) (whence : ℕ)
  | seekWrite (fd offset : ℤ) (whence : ℕ)
  | tellRead (fd : ℤ)
  | tellWrite (fd : ℤ)
  | write (fd : ℤ) (data : Uint8Array)
  | append (fd : ℤ) (data : Uint8Array)

/-- An exception may be caught; it leaves the open files as they were. -/
def perform {α : Type} (m : Js α) (fs : Files) : Files :=
  match m fs with
  | .ok (_, fs') => fs'
  | .error _ => fs

def Op.run (disk : Str → Option Octets) (fs : Files) : Op → Files
  | .open path => perform (fileOpen disk path) fs
  | .close fd => perform (fileClose fd) fs
  | .read fd n => perform (FileStream.read fd n) fs
  | .readBuf fd into => perform (FileStream.readBuf fd into) fs
  | .seekRead fd offset whence => perform (FileStream.seekRead fd offset whence) fs
  | .seekWrite fd offset whence => perform (FileStream.seekWrite fd offset whence) fs
  | .tellRead fd => perform (FileStream.tellRead fd) fs
  | .tellWrite fd => perform (FileStream.tellWrite fd) fs
  | .write fd data => perform (FileStream.write fd data) fs
  | .append fd data => perform (FileStream.append fd data) fs

def Stored (s t : FStream) (data : Uint8Array) : Prop :=
  (t.content.drop s.pos).take data.length = data.octets ∧ t.pos = s.pos + data.length

instance decidableStored (s t : FStream) (data : Uint8Array) : Decidable (Stored s t data) :=
  inferInstanceAs (Decidable (_ ∧ _))

def noFiles : Files := ⟨1, fun _ => none⟩

lemma written_drop (content : Octets) (pos : ℕ) (data : Octets) :
    (written content pos data).drop pos = data ++ content.drop (pos + data.length) := by
  by_cases h : data = []
  · simp [written, h]
  · have hpad : ((content ++ List.replicate (pos - content.length) 0).take pos).length = pos := by
      rw [List.length_take, List.length_append, List.length_replicate]
      omega
    rw [written, if_neg h, List.append_assoc, List.drop_left' hpad]

lemma written_take (content : Octets) (pos : ℕ) (data : Octets) :
    ((written content pos data).drop pos).take data.length = data := by
  rw [written_drop, List.take_left]

lemma write_run {fs : Files} {fd : ℤ} {s : FStream} (hs : fs.openFiles (key fd) = some s)
    (data : Uint8Array) :
    FileStream.write fd data fs = .ok ((), fs.put fd (s.write (data.buffer.take data.length))) := by
  apply fileWriteN_run hs
  have := data.inside
  omega

lemma stored_iff (s : FStream) (data : Uint8Array) :
    Stored s (s.write (data.buffer.take data.length)) data ↔
      data.length = 0 ∨ (s.good = true ∧ data.buffer.take data.length = data.octets) := by
  have hin := data.inside
  have hlen : (data.buffer.take data.length).length = data.length := by
    rw [List.length_take]
    omega
  by_cases hgood : s.good = true
  · have htake := written_take s.content s.pos (data.buffer.take data.length)
    rw [hlen] at htake
    rw [Stored, FStream.write_of_good hgood, htake, hlen]
    constructor
    · rintro ⟨hdata, -⟩
      exact Or.inr ⟨hgood, hdata⟩
    · rintro (h | ⟨-, hdata⟩)
      · rw [Uint8Array.octets, h, List.take_zero, List.take_zero]
        exact ⟨rfl, rfl⟩
      · exact ⟨hdata, rfl⟩
  · rw [Stored, FStream.write_of_not_good hgood]
    constructor
    · rintro ⟨-, hpos⟩
      exact Or.inl (by simpa using hpos)
    · rintro (h | ⟨h, -⟩)
      · rw [Uint8Array.octets, h, List.take_zero, List.take_zero]
        exact ⟨rfl, rfl⟩
      · exact absurd h hgood

def Op.Lands (fs : Files) : Op → Prop
  | .seekRead fd offset whence | .seekWrite fd offset whence =>
    ∀ s dir, fs.openFiles (key fd) = some s → seekDir whence = pure dir → 0 ≤ s.base dir + offset
  | _ => True

def AllReady (fs : Files) : Prop := ∀ k s, fs.openFiles k = some s → s.Ready

lemma allReady_put {fs : Files} (h : AllReady fs) (fd : ℤ) {t : FStream} (ht : t.Ready) :
    AllReady (fs.put fd t) := by
  intro k s hk
  by_cases hkey : k = key fd
  · rw [hkey, put_openFiles] at hk
    cases hk
    exact ht
  · rw [Files.put] at hk
    exact h k s (by simpa [hkey] using hk)

lemma perform_ok {α : Type} {m : Js α} {fs fs' : Files} {a : α} (h : m fs = .ok (a, fs')) :
    perform m fs = fs' := by
  rw [perform, h]

lemma perform_error {α : Type} {m : Js α} {fs : Files} {e : Abrupt Str} (h : m fs = .error e) :
    perform m fs = fs := by
  rw [perform, h]

lemma perform_find {α : Type} {P : Files → Prop} {fd : ℤ} {f : FStream → Js α} {fs : Files}
    (h : P fs)
    (hopen : ∀ s, fs.openFiles (key fd) = some s → P (perform (f s) fs)) :
    P (perform (find fd >>= f) fs) := by
  cases hs : fs.openFiles (key fd) with
  | none =>
    obtain ⟨e, he⟩ := find_closed hs
    rw [perform_error (bind_error he)]
    exact h
  | some s =>
    have := hopen s hs
    rwa [perform, bind_ok (find_run hs)]

lemma perform_bind {α β : Type} {P : Files → Prop} {m : Js α} {f : α → Js β} {fs : Files} (h : P fs)
    (hm : P (perform m fs)) (hf : ∀ a fs', P fs' → P (perform (f a) fs')) :
    P (perform (m >>= f) fs) := by
  cases hrun : m fs with
  | error e =>
    rw [perform_error (bind_error hrun)]
    exact h
  | ok r =>
    obtain ⟨a, fs'⟩ := r
    rw [perform_ok hrun] at hm
    have hnext := hf a fs' hm
    rw [perform] at hnext ⊢
    rw [bind_ok hrun]
    cases hf' : f a fs' with
    | error e => exact h
    | ok r =>
      rw [hf'] at hnext
      exact hnext

lemma seekDir_cases (whence : ℕ) :
    (∃ dir, seekDir whence = pure dir) ∨ ∃ e, ∀ fs, seekDir whence fs = .error e := by
  match whence with
  | 0 => exact Or.inl ⟨.beg, rfl⟩
  | 1 => exact Or.inl ⟨.cur, rfl⟩
  | 2 => exact Or.inl ⟨.end, rfl⟩
  | _ + 3 => exact Or.inr ⟨_, fun _ => rfl⟩

lemma ready_seek {s : FStream} {offset : ℤ} {dir : SeekDir} (hland : 0 ≤ s.base dir + offset) :
    (s.clear.seek offset dir).Ready := by
  have hbase : s.clear.base dir = s.base dir := by cases dir <;> rfl
  rw [FStream.seek, hbase, if_pos hland]
  exact Or.inl rfl

lemma ready_write {s : FStream} (hready : s.Ready) (data : Octets) : (s.write data).Ready := by
  by_cases hgood : s.good = true
  · rw [FStream.write_of_good hgood]
    exact Or.inl hgood
  · rw [FStream.write_of_not_good hgood]
    exact Or.inr (hready.resolve_left hgood)

def Changes (landed : Prop) (fs fs' : Files) : Prop :=
  fs' = fs ∨ ∃ fd s t, fs.openFiles (key fd) = some s ∧ fs' = fs.put fd t ∧
    (s.Ready → landed → t.Ready)

section Changes

variable (fs : Files) (fd : ℤ)

lemma changes_seek (offset : ℤ) (whence : ℕ) :
    Changes (∀ s dir, fs.openFiles (key fd) = some s → seekDir whence = pure dir →
      0 ≤ s.base dir + offset) fs
      (perform (fileSeek fd offset whence) fs) := by
  apply perform_find (Or.inl rfl)
  intro s hs
  rcases seekDir_cases whence with ⟨dir, hdir⟩ | ⟨e, he⟩
  · rw [hdir, perform_ok (bind_ok (pure_run dir fs))]
    refine Or.inr ⟨fd, s, _, hs, rfl, fun _ hland => ?_⟩
    exact ready_seek (hland s dir hs rfl)
  · rw [perform_error (bind_error (he fs))]
    exact Or.inl rfl

variable {landed : Prop}

lemma changes_tell : Changes landed fs (perform (fileTell fd) fs) := by
  apply perform_find (Or.inl rfl)
  intro s hs
  exact Or.inr ⟨fd, s, _, hs, rfl, fun _ _ => s.ready_clear⟩

lemma changes_read (n : ℕ) (buffer : ArrayBuffer) :
    Changes landed fs (perform (fileReadN fd n buffer) fs) := by
  apply perform_find (Or.inl rfl)
  intro s hs
  split_ifs
  · exact Or.inl rfl
  · exact Or.inr ⟨fd, s, _, hs, rfl, fun hready _ => (FStream.read_ready hready n).2.2.2⟩

lemma changes_write (n : ℕ) (buffer : ArrayBuffer) :
    Changes landed fs (perform (fileWriteN fd n buffer) fs) := by
  apply perform_find (Or.inl rfl)
  intro s hs
  split_ifs
  · exact Or.inl rfl
  · exact Or.inr ⟨fd, s, _, hs, rfl, fun hready _ => ready_write hready _⟩

lemma changes_append (data : Uint8Array) :
    Changes landed fs (perform (FileStream.append fd data) fs) := by
  cases hs : fs.openFiles (key fd) with
  | none =>
    obtain ⟨e, he⟩ := find_closed hs
    have hrun : FileStream.append fd data fs = .error e := bind_error (bind_error he)
    rw [perform_error hrun]
    exact Or.inl rfl
  | some s =>
    have hseek := fileSeek_run hs 0 2 (rfl : seekDir 2 = pure .end)
    have hwrite := write_run (put_openFiles fs fd (s.clear.seek 0 .end)) data
    have hrun : FileStream.append fd data fs = .ok _ := (bind_ok hseek).trans hwrite
    rw [perform_ok hrun, put_put]
    refine Or.inr ⟨fd, s, _, hs, rfl, fun _ _ => ready_write (ready_seek ?_) _⟩
    simp only [FStream.base]
    omega

end Changes

lemma run_cases (disk : Str → Option Octets) (fs : Files) (op : Op) :
    (∃ path, op = .open path) ∨ (∃ fd, op = .close fd) ∨
      Changes (op.Lands fs) fs (op.run disk fs) := by
  cases op with
  | «open» path => exact Or.inl ⟨path, rfl⟩
  | close fd => exact Or.inr (Or.inl ⟨fd, rfl⟩)
  | read fd n =>
    refine Or.inr (Or.inr ?_)
    rw [Op.run, FileStream.read]
    split_ifs
    · exact Or.inl rfl
    · exact Or.inl rfl
    · exact Or.inl rfl
    · apply perform_bind (Or.inl rfl) (changes_read fs fd _ _)
      rintro ⟨bytesRead, filled, hfilled⟩ fs' hfs'
      dsimp only
      split_ifs
      · exact hfs'
      · exact hfs'
  | readBuf fd into =>
    exact Or.inr (Or.inr
      (perform_bind (Or.inl rfl) (changes_read fs fd _ _) fun a fs' hfs' => hfs'))
  | seekRead fd offset whence => exact Or.inr (Or.inr (changes_seek fs fd offset whence))
  | seekWrite fd offset whence => exact Or.inr (Or.inr (changes_seek fs fd offset whence))
  | tellRead fd => exact Or.inr (Or.inr (changes_tell fs fd))
  | tellWrite fd => exact Or.inr (Or.inr (changes_tell fs fd))
  | write fd data => exact Or.inr (Or.inr (changes_write fs fd _ _))
  | append fd data => exact Or.inr (Or.inr (changes_append fs fd data))

lemma allReady_open (disk : Str → Option Octets) (path : Str) {fs : Files} (h : AllReady fs) :
    AllReady (perform (fileOpen disk path) fs) := by
  cases hdisk : disk path with
  | none =>
    rw [perform, fileOpen, hdisk]
    exact h
  | some content =>
    rw [perform, fileOpen, hdisk]
    intro k s hk
    simp only at hk
    split_ifs at hk
    · exact h k s hk
    · exact allReady_put h fs.fileIdCnt (Or.inl rfl) k s hk

lemma allReady_close (fd : ℤ) {fs : Files} (h : AllReady fs) :
    AllReady (perform (fileClose fd) fs) := by
  apply perform_find h
  intro s _ k t hk
  by_cases hkey : k = key fd
  · simp [perform, modify, modifyGet, MonadStateOf.modifyGet, StateT.modifyGet, pure, Except.pure,
      hkey] at hk
  · apply h k t
    simpa [perform, modify, modifyGet, MonadStateOf.modifyGet, StateT.modifyGet, pure, Except.pure,
      hkey] using hk

lemma run_ready (disk : Str → Option Octets) {fs : Files} (h : AllReady fs) (op : Op)
    (hland : op.Lands fs) :
    AllReady (op.run disk fs) := by
  rcases run_cases disk fs op with ⟨path, rfl⟩ | ⟨fd, rfl⟩ | hsame | ⟨fd, s, t, hs, hput, hready⟩
  · exact allReady_open disk path h
  · exact allReady_close fd h
  · rw [hsame]
    exact h
  · rw [hput]
    exact allReady_put h fd (hready (h _ s hs) hland)

inductive Reached (disk : Str → Option Octets) : Files → Prop
  | start : Reached disk noFiles
  | step {fs : Files} (op : Op) : Reached disk fs → op.Lands fs → Reached disk (op.run disk fs)

lemma reached_ready {disk : Str → Option Octets} {fs : Files} (h : Reached disk fs) :
    AllReady fs := by
  induction h with
  | start => exact fun k s hk => nomatch hk
  | step op _ hland ih => exact run_ready disk ih op hland

end Catter.Io
