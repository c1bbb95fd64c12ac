import Catter.Io.Operations
import Catter.Library.Triples

/-! `std::fstream` with the buffer of libstdc++: several streams on one file, and a system that may
refuse what a buffer holds. -/

namespace Catter.Io

open Qjs (Thrown)
open Text Library.Decimal
open Library.Triples (Program throwing update)

/-- The octets in `held` have been written and not been handed to the system; they belong right
before `pos`. -/
structure Buffered where
  file : ℕ
  pos : ℕ
  held : Octets
  eof : Bool
  fail : Bool
  bad : Bool
  closed : Bool
  within : held.length ≤ pos
  idle : closed = true → held = []
deriving DecidableEq

/-- What one call of a file function meets. Of what is handed to it the system takes the first
octets only; `handed` is how much of its buffer and its data a write hands on, and `left` what stays
in the buffer of one that fails. -/
structure Surroundings where
  found : Option ℕ
  memory : Bool
  flushed : ℕ
  sought : Bool
  handed : ℕ
  taken : ℕ
  left : Octets

namespace Buffered

def opened (file : ℕ) : Buffered :=
  ⟨file, 0, [], false, false, false, false, Nat.le_refl 0, fun _ => rfl⟩

def good (s : Buffered) : Bool := !s.eof && !s.fail && !s.bad

def clear (s : Buffered) : Buffered := { s with eof := false, fail := false, bad := false }

def start (s : Buffered) : ℕ := s.pos - s.held.length

def view (content : Octets) (s : Buffered) : FStream :=
  ⟨written content s.start s.held, s.pos, s.eof, s.fail || s.bad⟩

/-- The buffer goes to the system, which takes `k` octets of it; the last component tells whether it
took all. -/
def flush (content : Octets) (s : Buffered) (k : ℕ) : Octets × Buffered × Bool :=
  if s.closed then (content, s, false)
  else if s.held.length ≤ k then
    (written content s.start s.held,
      { s with held := [], within := Nat.zero_le _, idle := fun _ => rfl }, true)
  else
    (written content s.start (s.held.take k),
      { s with pos := s.pos + k, within := Nat.le_add_right_of_le s.within },
      false)

def base (content : Octets) (s : Buffered) : SeekDir → ℕ
  | .beg => 0
  | .cur => s.pos
  | .end => content.length

-- A stream that stays where it is keeps its buffer.
def seek (content : Octets) (s : Buffered) (around : Surroundings) (offset : ℤ) (dir : SeekDir) :
    Octets × Buffered :=
  if s.closed then (content, { s with fail := true })
  else if dir = .cur ∧ offset = 0 then (content, s)
  else
    let (content, s, done) := s.flush content around.flushed
    let target := s.base content dir + offset
    if done ∧ 0 ≤ target ∧ around.sought then
      (content, { s with pos := target.toNat, held := [], within := Nat.zero_le _, idle :=
        fun _ => rfl })
    else (content, { s with fail := true })

/-- The number of octets that are read; which they are is left out, as they may be older than the
file. -/
def read (content : Octets) (s : Buffered) (around : Surroundings) (n : ℕ) :
    ℕ × Octets × Buffered :=
  if s.good then
    let (content, s, done) := s.flush content around.flushed
    let count := if done then min n (content.length - s.pos) else 0
    let short : Bool := count < n
    (count, content,
      { s with pos := s.pos + count, eof := short, fail := short, within :=
        Nat.le_add_right_of_le s.within })
  else (0, content, { s with fail := true })

/-- The first component tells whether `badbit` came up, which throws. -/
def write (content : Octets) (s : Buffered) (around : Surroundings) (data : Octets) :
    Bool × Octets × Buffered :=
  if s.good then
    if hopen : s.closed then (data ≠ [], content, { s with bad := data ≠ [] })
    else
      let pending := s.held ++ data
      let handed := min around.handed pending.length
      if handed ≤ around.taken then
        (false, written content s.start (pending.take handed),
          { s with
            pos := s.pos + data.length
            held := pending.drop handed
            within := by
              have := s.within
              simp only [pending, List.length_drop, List.length_append]
              omega
            idle := fun h => absurd h hopen })
      else
        (true, written content s.start (pending.take around.taken),
          { s with
            pos := s.start + around.taken + around.left.length
            held := around.left
            bad := true
            within := Nat.le_add_left _ _
            idle := fun h => absurd h hopen })
  else (s.bad, content, { s with fail := true })

def shut (s : Buffered) : Buffered :=
  { s with held := [], fail := true, closed := true, within := Nat.zero_le _, idle := fun _ => rfl }

end Buffered

structure Streams where
  fileIdCnt : ℤ
  openFiles : ℤ → Option Buffered
  disk : ℕ → Octets

def Streams.put (st : Streams) (fileId : ℤ) (content : Octets) (s : Buffered) : Streams :=
  { st with
    openFiles := Function.update st.openFiles (key fileId) (some s)
    disk := Function.update st.disk s.file content }

namespace Buffered

/-- A call of a file function; what it did to the streams stays when it throws. -/
abbrev Call (α : Type) := Program Thrown Streams α

def throw {α : Type} (thrown : Thrown) : Call α := throwing (.error thrown)

def iosFailure : Thrown := .std (lit "basic_ios::clear: iostream error")

def find (fileId : ℤ) : Call (Buffered × Octets) := fun st =>
  match st.openFiles (key fileId) with
  | some s => (.ok (s, st.disk s.file), st)
  | none => (.error (.qjs (lit "Invalid file id: " ++ formatInt fileId)), st)

def put (fileId : ℤ) (content : Octets) (s : Buffered) : Call Unit :=
  update fun st => st.put fileId content s

variable (around : Surroundings)

def fileOpen (path : Str) : Call ℤ := fun st =>
  match around.found with
  | none => (.error (.qjs (lit "Failed to open file: " ++ path)), st)
  | some file =>
    let fileId := st.fileIdCnt
    let added :=
      if (st.openFiles (key fileId)).isSome then st.openFiles
      else Function.update st.openFiles (key fileId) (some (opened file))
    (.ok fileId, { st with fileIdCnt := fileId + 1, openFiles := added })

-- A buffer that is refused raises `failbit`, which throws only while `badbit` is up.
def fileClose (fileId : ℤ) : Call Unit := do
  let (s, content) ← find fileId
  let (content, s, done) := s.flush content around.flushed
  put fileId content s.shut
  if !done && s.bad then throw iosFailure
  else update fun st => { st with openFiles := Function.update st.openFiles (key fileId) none }

def seekDir (whence : ℕ) : Call SeekDir :=
  match whence with
  | 0 => pure .beg
  | 1 => pure .cur
  | 2 => pure .end
  | _ => throw (.qjs (lit "Invalid whence: " ++ formatInt whence))

def fileSeek (fileId offset : ℤ) (whence : ℕ) : Call Unit := do
  let (s, content) ← find fileId
  let dir ← seekDir whence
  let (content, s) := s.clear.seek content around offset dir
  put fileId content s

def fileTell (fileId : ℤ) : Call ℤ := do
  let (s, content) ← find fileId
  put fileId content s.clear
  return if s.closed then -1 else s.pos

def fileReadN (fileId : ℤ) (bufSize : ℕ) (buffer : ArrayBuffer) : Call ℕ := do
  let (s, content) ← find fileId
  if buffer.length < bufSize then
    throw (.qjs (lit "Failed to get ArrayBuffer data or buffer is too small!"))
  else
    let (count, content, t) := s.read content around bufSize
    put fileId content t
    if s.bad then throw iosFailure else return count

def fileWriteN (fileId : ℤ) (bufSize : ℕ) (buffer : ArrayBuffer) : Call Unit := do
  let (s, content) ← find fileId
  if buffer.length < bufSize then
    throw (.qjs (lit "Failed to get ArrayBuffer data or buffer is small!"))
  else
    let (raised, content, s) := s.write content around (buffer.take bufSize)
    put fileId content s
    if raised then throw iosFailure

end Buffered

lemma written_length (content : Octets) (pos : ℕ) {data : Octets} (h : data ≠ []) :
    (written content pos data).length = max content.length (pos + data.length) := by
  simp only [written, if_neg h, List.length_append, List.length_take, List.length_replicate,
    List.length_drop]
  omega

lemma written_append (content : Octets) (pos : ℕ) (xs ys : Octets) :
    written (written content pos xs) (pos + xs.length) ys = written content pos (xs ++ ys) := by
  by_cases hxs : xs = []
  · simp [written, hxs]
  by_cases hys : ys = []
  · simp [written, hys]
  have hpad : ((content ++ List.replicate (pos - content.length) 0).take pos).length = pos := by
    rw [List.length_take, List.length_append, List.length_replicate]
    omega
  have hfront : (written content pos xs).take (pos + xs.length) =
      (content ++ List.replicate (pos - content.length) 0).take pos ++ xs := by
    rw [written, if_neg hxs, List.take_left']
    rw [List.length_append, hpad]
  have hpast : pos + xs.length - (written content pos xs).length = 0 := by
    rw [written_length content pos hxs]
    omega
  have hback : (written content pos xs).drop (pos + xs.length + ys.length) =
      content.drop (pos + (xs ++ ys).length) := by
    rw [add_assoc, ← List.drop_drop, written_drop, List.drop_append,
      List.drop_eq_nil_of_le (by omega),
      List.nil_append, List.drop_drop, List.length_append]
    congr 1
    omega
  rw [written, if_neg hys, hpast, List.replicate_zero, List.append_nil, hfront, hback, written,
    if_neg (by simp [hxs]), List.append_assoc _ xs ys]

namespace Buffered

/-- What was taken, what stays in the buffer and what the file has behind them still begin with what
was held. -/
def Survives (s : Buffered) (content taken left : Octets) : Prop :=
  s.held <+: (taken ++ left) ++ content.drop (s.start + (taken ++ left).length)

def Flushes (s : Buffered) (content : Octets) (k : ℕ) (left : Octets) : Prop :=
  s.held.length ≤ k ∨ s.Survives content (s.held.take k) left

def Raises (s : Buffered) (around : Surroundings) (data : Octets) : Prop :=
  if s.good then
    if s.closed then data ≠ [] else around.taken < min around.handed (s.held ++ data).length
  else s.bad

instance decidableRaises (s : Buffered) (around : Surroundings) (data : Octets) :
    Decidable (s.Raises around data) :=
  inferInstanceAs (Decidable (if s.good then if s.closed then _ else _ else _))

instance decidableSurvives (s : Buffered) (content taken left : Octets) :
    Decidable (s.Survives content taken left) :=
  inferInstanceAs (Decidable (_ <+: _))

instance decidableFlushes (s : Buffered) (content : Octets) (k : ℕ) (left : Octets) :
    Decidable (s.Flushes content k left) :=
  inferInstanceAs (Decidable (_ ∨ _))

variable (content : Octets) (s : Buffered) (around : Surroundings)

lemma start_add_held : s.start + s.held.length = s.pos := by
  have := s.within
  rw [start]
  omega

lemma view_good : (s.view content).good = s.good := by
  rw [FStream.good, good, view, Bool.not_or, Bool.and_assoc]

lemma view_idle (h : s.held = []) : (s.view content).content = content := by
  rw [view, written, if_pos h]

lemma held_shown : s.held <+: (s.view content).content.drop s.start := by
  rw [view, written_drop]
  exact List.prefix_append _ _

lemma flush_view (k : ℕ) :
    ((s.flush content k).2.1.view (s.flush content k).1).content =
      written content s.start (if s.held.length ≤ k then s.held else s.held.take k ++ s.held) := by
  rw [flush]
  split_ifs with hclosed hk hk
  · rw [view_idle _ _ (s.idle hclosed), s.idle hclosed, written, if_pos rfl]
  · exact absurd (Nat.zero_le k) (by simp [s.idle hclosed] at hk)
  · exact view_idle _ _ rfl
  · have hstart : s.pos + k - s.held.length = s.start + (s.held.take k).length := by
      have := s.within
      rw [start, List.length_take]
      omega
    rw [← written_append, ← hstart]
    rfl

lemma flush_content (k : ℕ) : (s.flush content k).1 = written content s.start (s.held.take k) := by
  rw [flush]
  split_ifs with hclosed hk
  · rw [s.idle hclosed, List.take_nil, written, if_pos rfl]
  · rw [List.take_of_length_le hk]
  · rfl

lemma flush_file (k : ℕ) : (s.flush content k).2.1.file = s.file := by
  rw [flush]
  split_ifs <;> rfl

lemma flush_done {k : ℕ} (h : (s.flush content k).2.2 = true) :
    (s.flush content k).2.1.held = [] := by
  rw [flush] at h ⊢
  split_ifs at h ⊢
  rfl

lemma flushes_iff (k : ℕ) :
    s.held <+: (written content s.start (if s.held.length ≤ k then s.held
      else s.held.take k ++ s.held)).drop s.start ↔
      s.Flushes content k s.held := by
  rw [Flushes, Survives, written_drop]
  split_ifs with hk
  · exact iff_of_true (List.prefix_append _ _) (Or.inl hk)
  · rw [or_iff_right hk]

lemma flushes_nil_iff (k : ℕ) :
    s.held <+: (written content s.start (s.held.take k)).drop s.start ↔ s.Flushes content k [] := by
  rw [Flushes, Survives, written_drop, List.append_nil]
  by_cases hk : s.held.length ≤ k
  · rw [List.take_of_length_le hk]
    exact iff_of_true (List.prefix_append _ _) (Or.inl hk)
  · rw [or_iff_right hk]

lemma seek_view (offset : ℤ) (dir : SeekDir) (hmoves : ¬(dir = .cur ∧ offset = 0)) :
    ((s.seek content around offset dir).2.view (s.seek content around offset dir).1).content =
      ((s.flush content around.flushed).2.1.view (s.flush content around.flushed).1).content := by
  rw [seek]
  split_ifs with hclosed
  · rw [flush, if_pos hclosed]
    rfl
  · dsimp only
    split_ifs with h
    · rw [view_idle _ _ rfl, view_idle _ _ (flush_done content s h.1)]
    · rfl

lemma seek_rests (offset : ℤ) (dir : SeekDir) (hrests : dir = .cur ∧ offset = 0) :
    ((s.seek content around offset dir).2.view (s.seek content around offset dir).1).content =
      (s.view content).content := by
  rw [seek]
  split_ifs <;> rfl

lemma seek_file (offset : ℤ) (dir : SeekDir) :
    (s.seek content around offset dir).2.file = s.file := by
  rw [seek]
  split_ifs
  · rfl
  · rfl
  · dsimp only
    split_ifs <;> exact flush_file _ _ _

lemma read_view (n : ℕ) (hgood : s.good = true) :
    ((s.read content around n).2.2.view (s.read content around n).2.1).content =
      ((s.flush content around.flushed).2.1.view (s.flush content around.flushed).1).content := by
  rw [read, if_pos hgood]
  dsimp only
  split_ifs with hdone
  · have hheld := flush_done content s hdone
    refine (view_idle _ _ ?_).trans (view_idle _ _ hheld).symm
    exact hheld
  · rfl

lemma read_file (n : ℕ) : (s.read content around n).2.2.file = s.file := by
  rw [read]
  split_ifs
  · exact flush_file _ _ _
  · rfl

variable (data : Octets)

lemma write_raises : (s.write content around data).1 = true ↔ s.Raises around data := by
  rw [write, Raises]
  dsimp only
  split_ifs with hgood hclosed hhanded
  · exact decide_eq_true_iff
  · exact iff_of_false not_false (Nat.not_lt.mpr hhanded)
  · exact iff_of_true rfl (Nat.lt_of_not_le hhanded)
  · exact Iff.rfl

lemma write_view (h : ¬s.Raises around data) :
    (s.write content around data).2.2.view (s.write content around data).2.1 =
      (s.view content).write data := by
  rw [Raises] at h
  by_cases hgood : s.good = true
  · rw [if_pos hgood] at h
    rw [FStream.write_of_good ((view_good content s).trans hgood), write, if_pos hgood]
    by_cases hclosed : s.closed = true
    · rw [if_pos hclosed, not_not] at h
      have hbad : s.bad = false := by
        rw [good] at hgood
        simpa using (Bool.and_eq_true_iff.mp hgood).2
      rw [dif_pos hclosed, view_idle _ _ (s.idle hclosed)]
      simp [h, view, written, hbad, s.idle hclosed]
    · rw [if_neg hclosed] at h
      rw [dif_neg hclosed]
      dsimp only
      rw [if_pos (Nat.not_lt.mp h)]
      have hstart : s.pos +
        data.length - ((s.held ++ data).drop (min around.handed (s.held ++ data).length)).length =
          s.start + ((s.held ++ data).take (min around.handed (s.held ++ data).length)).length := by
        have := s.within
        simp only [start, List.length_drop, List.length_take, List.length_append]
        omega
      have hcontent := written_append content s.start
        ((s.held ++ data).take (min around.handed (s.held ++ data).length))
        ((s.held ++ data).drop (min around.handed (s.held ++ data).length))
      rw [← hstart, List.take_append_drop, ← written_append, start_add_held] at hcontent
      exact congrArg (FStream.mk · (s.pos + data.length) s.eof (s.fail || s.bad)) hcontent
  · rw [if_neg hgood] at h
    rw [FStream.write_of_not_good ((view_good content s).symm ▸ hgood), write, if_neg hgood,
      view, view]
    simp only [start, Bool.true_or]

lemma write_file : (s.write content around data).2.2.file = s.file := by
  rw [write]
  dsimp only
  split_ifs <;> rfl

lemma write_raised_view (h : s.Raises around data) (hgood : s.good = true)
    (hopen : ¬s.closed = true) :
    ((s.write content around data).2.2.view (s.write content around data).2.1).content =
      written content s.start ((s.held ++ data).take around.taken ++ around.left) := by
  rw [Raises, if_pos hgood, if_neg hopen] at h
  have hshort : ((s.held ++ data).take around.taken).length = around.taken := by
    rw [List.length_take]
    omega
  rw [write, if_pos hgood, dif_neg hopen]
  dsimp only
  rw [if_neg (Nat.not_le.mpr h), ← written_append, hshort]
  exact congrArg (written _ · around.left) (Nat.add_sub_cancel _ _)

lemma write_survives_iff :
    s.held <+: ((s.write content around data).2.2.view
      (s.write content around data).2.1).content.drop s.start ↔
      (s.Raises around data → s.good = true →
        s.Survives content ((s.held ++ data).take around.taken) around.left) := by
  by_cases hraises : s.Raises around data
  · by_cases hgood : s.good = true
    · by_cases hclosed : s.closed = true
      · rw [Survives, s.idle hclosed]
        exact iff_of_true List.nil_prefix fun _ _ => List.nil_prefix
      · rw [write_raised_view _ _ _ _ hraises hgood hclosed, written_drop, Survives]
        simp only [hraises, hgood, true_imp_iff]
    · rw [write, if_neg hgood]
      exact iff_of_true (held_shown content s) fun _ h => absurd h hgood
  · rw [write_view content s around data hraises]
    refine iff_of_true ?_ fun h => absurd h hraises
    by_cases hgood : s.good = true
    · rw [FStream.write_of_good ((view_good content s).trans hgood), view]
      dsimp only
      rw [← start_add_held, written_append, written_drop, List.append_assoc]
      exact List.prefix_append _ _
    · rw [FStream.write_of_not_good ((view_good content s).symm ▸ hgood)]
      exact held_shown content s

lemma flush_taken {k : ℕ} (hopen : ¬s.closed = true) (hk : s.held.length ≤ k) :
    s.flush content k =
      ((s.view content).content,
        { s with held := [], within := Nat.zero_le _, idle := fun _ => rfl }, true) := by
  rw [flush, if_neg hopen, if_pos hk]
  rfl

section Calm

variable (hopen : ¬s.closed = true) (hflushed : s.held.length ≤ around.flushed)

include hopen hflushed

lemma seek_refines (hsought : around.sought = true) (offset : ℤ) (dir : SeekDir) :
    (s.seek content around offset dir).2.view (s.seek content around offset dir).1 =
      (s.view content).seek offset dir := by
  by_cases hrests : dir = .cur ∧ offset = 0
  · obtain ⟨rfl, rfl⟩ := hrests
    rw [seek, if_neg hopen, if_pos ⟨rfl, rfl⟩]
    simp [FStream.seek, FStream.base, view]
  · have hbase : base (s.view content).content
        { s with held := [], within := Nat.zero_le _, idle := fun _ => rfl } dir =
          (s.view content).base dir := by
      cases dir <;> rfl
    rw [seek, if_neg hopen, if_neg hrests, flush_taken _ _ hopen hflushed, FStream.seek]
    dsimp only
    by_cases hland : 0 ≤ ((s.view content).base dir : ℤ) + offset
    · rw [if_pos hland, if_pos ⟨rfl, hbase ▸ hland, hsought⟩]
      cases dir <;> rfl
    · rw [if_neg hland, if_neg fun h => hland (hbase ▸ h.2.1)]
      cases dir <;> rfl

lemma read_refines (n : ℕ) :
    (s.read content around n).1 = ((s.view content).read n).1.length ∧
      (s.read content around n).2.2.view (s.read content around n).2.1 =
        ((s.view content).read n).2 := by
  by_cases hgood : s.good = true
  · have hbad : s.bad = false := by
      rw [good] at hgood
      simpa using (Bool.and_eq_true_iff.mp hgood).2
    have hcount : ((s.view content).rest.take n).length =
        min n ((s.view content).content.length - s.pos) := by
      rw [FStream.rest, List.length_take, List.length_drop]
      rfl
    rw [FStream.read_of_good ((view_good content s).trans hgood), read, if_pos hgood, flush_taken _
      _ hopen hflushed]
    simp only [hcount]
    refine ⟨rfl, congrArg (FStream.mk (s.view content).content _ _) ?_⟩
    dsimp only
    rw [hbad, Bool.or_false]
    rfl
  · rw [FStream.read_of_not_good ((view_good content s).symm ▸ hgood), read, if_neg hgood]
    simp [view, start]

/-- Where the system refuses nothing, a stream is an unbuffered one. -/
theorem refines_unbuffered (hsought : around.sought = true) (hbad : s.bad = false)
    (htaken : min around.handed (s.held ++ data).length ≤ around.taken) :
    (∀ offset dir, (s.seek content around offset dir).2.view (s.seek content around offset dir).1 =
      (s.view content).seek offset dir) ∧
    (∀ n, (s.read content around n).1 = ((s.view content).read n).1.length ∧
      (s.read content around n).2.2.view (s.read content around n).2.1 =
        ((s.view content).read n).2) ∧
    (s.write content around data).2.2.view (s.write content around data).2.1 =
      (s.view content).write data := by
  refine ⟨seek_refines content s around hopen hflushed hsought,
    read_refines content s around hopen hflushed, ?_⟩
  apply write_view
  rw [Raises, if_neg hopen]
  split_ifs
  · exact Nat.not_lt.mpr htaken
  · simp [hbad]

end Calm

end Buffered

end Catter.Io
