import Catter.Io.FileStream
import Catter.Library.Lines

/-! Reading a text file up to a delimiter and line by line. -/

namespace Catter.Io

open Library.Lines

abbrev JsString := List UInt16

def fromCharCode (byte : UInt8) : UInt16 := byte.toUInt16

/-- The inner loop of `readUntil`: what it adds to the result, and where it met the delimiter. -/
def scan (delimiterCode : Option UInt16) (i : ℕ) (result : JsString) : Octets → JsString × Option ℕ
  | [] => (result, none)
  | byte :: bytes =>
    if some (fromCharCode byte) = delimiterCode then (result, some i)
    else scan delimiterCode (i + 1) (result ++ [fromCharCode byte]) bytes

namespace AsciiEnDecStreamImpl

def readUntilLoop (raw : ℤ) (delimiterCode : Option UInt16) (bufSize : ℕ) :
    ℕ → Uint8Array → JsString → Js JsString
  | 0, _, _ => fun _ => .error .running
  | fuel + 1, buffer, result => do
    let (bytesRead, buffer) ← FileStream.readBuf raw buffer
    match scan delimiterCode 0 result (buffer.octets.take bytesRead) with
    | (result, some i) => do
      FileStream.seekRead raw (i - bytesRead + 1) 1
      return result
    | (result, none) =>
      if bytesRead < bufSize then return result
      else readUntilLoop raw delimiterCode bufSize fuel buffer result

-- neither -1, the code for `null`, nor the `NaN` of an empty string is the value of a byte
def readUntil (fuel : ℕ) (raw : ℤ) (delimiter : Option JsString) (bufSize : ℕ) : Js JsString :=
  readUntilLoop raw (delimiter.bind List.head?) bufSize fuel (.zeros bufSize) []

end AsciiEnDecStreamImpl

namespace TextFileStream

def readUntil (fuel : ℕ) (fd : ℤ) (delimiter : JsString) : Js JsString :=
  AsciiEnDecStreamImpl.readUntil fuel fd (some delimiter) 32

def lf : UInt8 := 10

def cr : UInt8 := 13

def readLine (fuel : ℕ) (fd : ℤ) : Js JsString := do
  let res ← readUntil fuel fd [fromCharCode lf]
  return if res.getLast? = some (fromCharCode cr) then res.dropLast else res

def readLinesLoop (fd : ℤ) : ℕ → List JsString → ℤ → Js (List JsString)
  | 0, _, _ => fun _ => .error .running
  | fuel + 1, lines, currentPos => do
    let line ← readLine (fuel + 1) fd
    let newPos ← FileStream.tellRead fd
    if line = [] ∧ newPos = currentPos then return lines
    else readLinesLoop fd fuel (lines ++ [line]) newPos

def readLines (fuel : ℕ) (fd : ℤ) : Js (List JsString) := do
  let currentPos ← FileStream.tellRead fd
  readLinesLoop fd fuel [] currentPos

end TextFileStream

def chars (octets : Octets) : JsString := octets.map fromCharCode

def chomp (line : Octets) : Octets := if line.getLast? = some TextFileStream.cr then line.dropLast
    else line

/-- A stream carries a flag only where nothing is left to read. A failing seek
alone leaves it otherwise. -/
def FStream.Ready (s : FStream) : Prop := s.good = true ∨ s.rest = []

namespace FStream

lemma ready_clear (s : FStream) : s.clear.Ready := Or.inl rfl

lemma rest_advance (s : FStream) (n : ℕ) (t : FStream) (hc : t.content = s.content)
    (hp : t.pos = s.pos + n) :
    t.rest = s.rest.drop n := by
  rw [rest, rest, hc, hp, List.drop_drop]

lemma read_ready {s : FStream} (hs : s.Ready) (n : ℕ) :
    (s.read n).1 = s.rest.take n ∧ (s.read n).2.content = s.content ∧
      (s.read n).2.pos = s.pos + (s.rest.take n).length ∧ (s.read n).2.Ready := by
  by_cases hgood : s.good = true
  · rw [read_of_good hgood]
    refine ⟨rfl, rfl, rfl, ?_⟩
    by_cases hshort : (s.rest.take n).length < n
    · apply Or.inr
      apply List.drop_eq_nil_iff.mpr
      simp only [rest, List.length_take, List.length_drop] at hshort ⊢
      omega
    · apply Or.inl
      simp only [good, hshort, decide_false, Bool.not_false, Bool.and_self]
  · have hnil : s.rest = [] := hs.resolve_left hgood
    rw [read_of_not_good hgood, hnil, List.take_nil]
    exact ⟨rfl, rfl, rfl, Or.inr hnil⟩

end FStream

lemma fromCharCode_inj {a b : UInt8} : fromCharCode a = fromCharCode b ↔ a = b := by
  simp only [fromCharCode, UInt8.toUInt16_inj]

lemma scan_eq (d : UInt8) (i : ℕ) (result : JsString) (octets : Octets) :
    scan (some (fromCharCode d)) i result octets =
      (result ++ chars (upTo d octets), if d ∈ octets then some (i + (upTo d octets).length)
        else none) := by
  induction octets generalizing i result with
  | nil => simp [scan, upTo, chars]
  | cons byte bytes ih =>
    rw [scan, ih]
    by_cases h : byte = d
    · simp [h, upTo, chars]
    · simp [fromCharCode_inj, h, Ne.symm h, upTo, chars, Nat.add_assoc, Nat.add_comm 1]

section Open

variable {fs : Files} {fd : ℤ} {s : FStream} (hs : fs.openFiles (key fd) = some s)

include hs

lemma readBuf_front_run (into : Uint8Array) (hoff : into.byteOffset = 0) :
    ∃ buffer : Uint8Array, FileStream.readBuf fd into fs =
        .ok (((s.read into.length).1.length, buffer), fs.put fd (s.read into.length).2) ∧
      buffer.byteOffset = 0 ∧ buffer.length = into.length ∧
      buffer.octets.take (s.read into.length).1.length = (s.read into.length).1 := by
  have hin := into.inside
  have hle : (s.read into.length).1.length ≤ into.length := by
    simp only [FStream.read]
    split_ifs <;> simp
  refine ⟨_, readBuf_run hs into, hoff, rfl, ?_⟩
  simp only [Uint8Array.refilled, Uint8Array.octets, hoff, List.drop_zero, overlay]
  rw [List.take_take, List.take_take, Nat.min_eq_left (by omega), Nat.min_eq_left (by omega),
    List.take_left]

lemma seekRead_run {offset : ℤ} {target : ℕ} (hland : s.pos + offset = target) :
    FileStream.seekRead fd offset 1 fs = .ok ((), fs.put fd { s.clear with pos := target }) := by
  have hpos : (0 : ℤ) ≤ s.clear.base .cur + offset := by
    rw [FStream.base, FStream.clear, hland]
    omega
  rw [FileStream.seekRead, fileSeekRead, fileSeek_run hs offset 1 (rfl : seekDir 1 = pure .cur),
    FStream.seek, if_pos hpos,
    FStream.base, FStream.clear, hland, Int.toNat_natCast]

end Open

lemma readUntilLoop_run (d : UInt8) {bufSize : ℕ} (hbuf : 1 ≤ bufSize) {fs : Files} {fd : ℤ}
    {s : FStream}
    (hs : fs.openFiles (key fd) = some s) (hready : s.Ready) (fuel : ℕ)
    (hfuel : s.rest.length < fuel)
    (buffer : Uint8Array) (hoff : buffer.byteOffset = 0) (hlen : buffer.length = bufSize)
    (result : JsString) :
    ∃ t : FStream, AsciiEnDecStreamImpl.readUntilLoop fd (some (fromCharCode d)) bufSize fuel buffer
      result fs =
        .ok (result ++ chars (upTo d s.rest), fs.put fd t) ∧
      t.content = s.content ∧ t.pos = s.pos + reach d s.rest ∧ t.Ready := by
  induction fuel generalizing fs s buffer result with
  | zero => omega
  | succ fuel ih =>
    obtain ⟨buffer', hread, hoff', hlen', hoctets⟩ := readBuf_front_run hs buffer hoff
    rw [hlen] at hread hlen' hoctets
    obtain ⟨htaken, hcontent, hpos, hready'⟩ := FStream.read_ready hready bufSize
    rw [htaken] at hread hoctets
    rw [AsciiEnDecStreamImpl.readUntilLoop, bind_ok hread]
    simp only [hoctets, scan_eq]
    have hrest : s.rest = s.rest.take bufSize ++ s.rest.drop bufSize :=
      (List.take_append_drop _ _).symm
    by_cases hmem : d ∈ s.rest.take bufSize
    · -- the delimiter lies in this chunk: the seek undoes what was read past it
      have hup : upTo d s.rest = upTo d (s.rest.take bufSize) := by
        conv_lhs => rw [hrest, upTo_of_mem_left hmem]
      have hreach : reach d s.rest = (upTo d (s.rest.take bufSize)).length + 1 := by
        conv_lhs => rw [hrest, reach_of_mem_left hmem, reach_of_mem hmem]
      simp only [hmem, if_true]
      have hland : ((s.read bufSize).2.pos : ℤ) +
          (((0 + (upTo d (s.rest.take bufSize)).length : ℕ) :
            ℤ) - (s.rest.take bufSize).length + 1) =
            (s.pos + reach d s.rest : ℕ) := by
        rw [hpos, hreach]
        push_cast
        omega
      refine ⟨{ (s.read bufSize).2.clear with pos := s.pos + reach d s.rest }, ?_, hcontent, rfl,
        Or.inl rfl⟩
      rw [bind_ok (seekRead_run (put_openFiles _ _ _) hland), pure_run, put_put, hup]
    · simp only [hmem, if_false]
      have hup : upTo d s.rest = s.rest.take bufSize ++ upTo d (s.rest.drop bufSize) := by
        conv_lhs => rw [hrest, upTo_append_of_not_mem hmem]
      have hreach : reach d s.rest = (s.rest.take bufSize).length +
          reach d (s.rest.drop bufSize) := by
        conv_lhs => rw [hrest, reach_append_of_not_mem hmem]
      by_cases hshort : (s.rest.take bufSize).length < bufSize
      · have hdrop : s.rest.drop bufSize = [] := by
          rw [List.length_take] at hshort
          apply List.drop_eq_nil_iff.mpr
          omega
        refine ⟨(s.read bufSize).2, ?_, hcontent, ?_, hready'⟩
        · rw [if_pos hshort, upTo_of_not_mem hmem, hup, hdrop]
          simp [upTo, pure_run]
        · rw [hpos, hreach, hdrop]
          simp [reach]
      · have hnext : (s.read bufSize).2.rest = s.rest.drop bufSize := by
          rw [FStream.rest_advance s _ _ hcontent hpos]
          rw [List.length_take] at hshort ⊢
          rw [Nat.min_eq_left (by omega)]
        have hless : (s.read bufSize).2.rest.length < fuel := by
          rw [hnext, List.length_drop]
          rw [List.length_take] at hshort
          omega
        rw [if_neg hshort]
        obtain ⟨t, hrun, htc, htp, htr⟩ :=
          ih (put_openFiles fs fd _) hready' hless buffer' hoff' hlen'
          (result ++ chars (upTo d (s.rest.take bufSize)))
        refine ⟨t, ?_, htc.trans hcontent, ?_, htr⟩
        · rw [hrun, hnext, put_put, hup, upTo_of_not_mem hmem, List.append_assoc]
          simp [chars]
        · rw [htp, hpos, hnext, hreach, Nat.add_assoc]

lemma readUntil_run (d : UInt8) {bufSize : ℕ} (hbuf : 1 ≤ bufSize) {fs : Files} {fd : ℤ}
    {s : FStream}
    (hs : fs.openFiles (key fd) = some s) (hready : s.Ready) {fuel : ℕ}
    (hfuel : s.rest.length < fuel) :
    ∃ t : FStream, AsciiEnDecStreamImpl.readUntil fuel fd (some [fromCharCode d]) bufSize fs =
        .ok (chars (upTo d s.rest), fs.put fd t) ∧
      t.content = s.content ∧ t.pos = s.pos + reach d s.rest ∧ t.Ready :=
  readUntilLoop_run d hbuf hs hready fuel hfuel (.zeros bufSize) rfl rfl []

lemma chomp_chars (line : Octets) :
    (if (chars line).getLast? = some (fromCharCode TextFileStream.cr) then (chars line).dropLast
      else chars line) =
      chars (chomp line) := by
  have hlast : (chars line).getLast? = some (fromCharCode TextFileStream.cr) ↔
      line.getLast? = some TextFileStream.cr := by
    rw [chars, List.getLast?_map, Option.map_eq_some_iff]
    constructor
    · rintro ⟨byte, hbyte, hcode⟩
      rw [hbyte, fromCharCode_inj.mp hcode]
    · intro h
      exact ⟨_, h, rfl⟩
  by_cases h : line.getLast? = some TextFileStream.cr
  · rw [if_pos (hlast.mpr h), chomp, if_pos h, chars, chars, List.map_dropLast]
  · rw [if_neg (mt hlast.mp h), chomp, if_neg h]

lemma readLine_run {fs : Files} {fd : ℤ} {s : FStream} (hs : fs.openFiles (key fd) = some s)
    (hready : s.Ready)
    {fuel : ℕ} (hfuel : s.rest.length < fuel) :
    ∃ t : FStream, TextFileStream.readLine fuel fd fs =
        .ok (chars (chomp (upTo TextFileStream.lf s.rest)), fs.put fd t) ∧
      t.content = s.content ∧ t.pos = s.pos + reach TextFileStream.lf s.rest ∧ t.Ready := by
  obtain ⟨t, hrun, ht⟩ := readUntil_run TextFileStream.lf (by decide : 1 ≤ 32) hs hready hfuel
  refine ⟨t, ?_, ht⟩
  rw [TextFileStream.readLine, TextFileStream.readUntil, bind_ok hrun, pure_run, chomp_chars]

/-- The lines of a text: the pieces between newlines, one carriage return at the end of each taken
off. -/
def linesOf (text : Octets) : List JsString :=
  (pieces TextFileStream.lf text).map fun line => chars (chomp line)

lemma readLinesLoop_run (fuel : ℕ) {fs : Files} {fd : ℤ} {s : FStream}
    (hs : fs.openFiles (key fd) = some s)
    (hready : s.Ready) (hfuel : s.rest.length < fuel) (lines : List JsString) :
    ∃ t : FStream, TextFileStream.readLinesLoop fd fuel lines s.pos fs =
        .ok (lines ++ linesOf s.rest, fs.put fd t) ∧
      t.content = s.content ∧ t.pos = s.pos + s.rest.length := by
  induction fuel generalizing fs s lines with
  | zero => omega
  | succ fuel ih =>
    obtain ⟨t, hline, hcontent, hpos, -⟩ := readLine_run hs hready hfuel
    have htell : FileStream.tellRead fd (fs.put fd t) = .ok ((t.pos : ℤ), fs.put fd t.clear) := by
      rw [FileStream.tellRead, fileTellRead, fileTell_run (put_openFiles fs fd t), put_put]
    have hrest : t.clear.rest = s.rest.drop (reach TextFileStream.lf s.rest) :=
      FStream.rest_advance s _ _ hcontent hpos
    rw [TextFileStream.readLinesLoop, bind_ok hline, bind_ok htell, hpos]
    by_cases hend : s.rest = []
    · refine ⟨t.clear, ?_, hcontent, ?_⟩
      · simp [hend, upTo, reach, chomp, chars, linesOf, pure_run]
      · simpa [hend, reach] using hpos
    · have hmoves : 0 < reach TextFileStream.lf s.rest := reach_pos hend
      have hwithin : reach TextFileStream.lf s.rest ≤ s.rest.length := reach_le_length _ _
      rw [if_neg (by omega), ← hpos]
      obtain ⟨u, hrun, hucontent, hupos⟩ := ih (put_openFiles fs fd t.clear) t.ready_clear
        (by rw [hrest, List.length_drop]; omega)
        (lines ++ [chars (chomp (upTo TextFileStream.lf s.rest))])
      refine ⟨u, ?_, hucontent.trans hcontent, ?_⟩
      · rw [← t.clear_pos, hrun, put_put, hrest, linesOf, linesOf, pieces_of_ne_nil hend,
          List.map_cons, List.append_assoc, List.singleton_append]
      · rw [hupos, hrest, List.length_drop, t.clear_pos, hpos]
        omega

lemma readLines_run {fs : Files} {fd : ℤ} {s : FStream} (hs : fs.openFiles (key fd) = some s)
    {fuel : ℕ}
    (hfuel : s.rest.length < fuel) :
    ∃ t : FStream, TextFileStream.readLines fuel fd fs = .ok (linesOf s.rest, fs.put fd t) ∧
      t.content = s.content ∧ t.pos = s.pos + s.rest.length := by
  have htell : FileStream.tellRead fd fs = .ok ((s.pos : ℤ), fs.put fd s.clear) := fileTell_run hs
  obtain ⟨t, hrun, ht⟩ :=
    readLinesLoop_run fuel (put_openFiles fs fd s.clear) s.ready_clear hfuel []
  refine ⟨t, ?_, ht⟩
  rw [TextFileStream.readLines, bind_ok htell, ← s.clear_pos, hrun, put_put]
  rfl

lemma seekRead_set {fs : Files} {fd : ℤ} {s : FStream} (hs : fs.openFiles (key fd) = some s)
    (pos : ℕ) :
    FileStream.seekRead fd pos 0 fs = .ok ((), fs.put fd { s.clear with pos := pos }) := by
  have hpos : (0 : ℤ) ≤ s.clear.base .beg + pos := by simp [FStream.base]
  rw [FileStream.seekRead, fileSeekRead, fileSeek_run hs pos 0 (rfl : seekDir 0 = pure .beg),
    FStream.seek,
    if_pos hpos]
  simp [FStream.base, FStream.clear]

def Returns {α : Type} (m : Js α) (fs : Files) (fd : ℤ) (content : Octets) (value : α)
    (stop : ℕ) : Prop :=
  ∃ t : FStream, m fs = .ok (value, fs.put fd t) ∧ t.content = content ∧ t.pos = stop

/-- Reading line by line is splitting the file: from a position that a seek set, from where an
earlier read stopped, and for `readLines` from any state of the stream. -/
theorem reading_splits_file (fs : Files) (fd : ℤ) (s : FStream)
    (hs : fs.openFiles (key fd) = some s) :
    (∀ (pos : ℕ) (d : UInt8) (bufSize fuel : ℕ), 1 ≤ bufSize → s.content.length < fuel →
      Returns (do FileStream.seekRead fd pos 0
                  AsciiEnDecStreamImpl.readUntil fuel fd (some [fromCharCode d]) bufSize) fs fd
                    s.content
        (chars (upTo d (s.content.drop pos))) (pos + reach d (s.content.drop pos))) ∧
    (s.Ready → ∀ (d : UInt8) (bufSize fuel : ℕ), 1 ≤ bufSize → s.content.length < fuel →
      Returns (AsciiEnDecStreamImpl.readUntil fuel fd (some [fromCharCode d]) bufSize) fs fd
        s.content
        (chars (upTo d s.rest)) (s.pos + reach d s.rest)) ∧
    (∀ fuel : ℕ, s.content.length < fuel →
      Returns (TextFileStream.readLines fuel fd) fs fd s.content (linesOf s.rest)
        (s.pos + s.rest.length)) := by
  have hshort : ∀ pos : ℕ, (s.content.drop pos).length ≤ s.content.length := fun pos => by
    rw [List.length_drop]
    omega
  refine ⟨?_, ?_, ?_⟩
  · intro pos d bufSize fuel hbuf hfuel
    obtain ⟨t, hrun, hcontent, hpos, -⟩ := readUntil_run d hbuf
      (put_openFiles fs fd { s.clear with pos := pos }) (Or.inl rfl)
        (lt_of_le_of_lt (hshort pos) hfuel)
    refine ⟨t, ?_, hcontent, hpos⟩
    rw [bind_ok (seekRead_set hs pos), hrun, put_put]
    rfl
  · intro hready d bufSize fuel hbuf hfuel
    obtain ⟨t, hrun, hcontent, hpos, -⟩ :=
      readUntil_run d hbuf hs hready (lt_of_le_of_lt (hshort s.pos) hfuel)
    exact ⟨t, hrun, hcontent, hpos⟩
  · intro fuel hfuel
    exact readLines_run hs (lt_of_le_of_lt (hshort s.pos) hfuel)

def sampleText : Octets := [97, 13, 10, 10, 98]

def sampleFiles : Files := ⟨2, fun k => if k = 1 then some (.opened sampleText) else none⟩

theorem reading_splits_sample :
    Returns (do FileStream.seekRead 1 3 0
                AsciiEnDecStreamImpl.readUntil 9 1 (some [10]) 1) sampleFiles 1 sampleText [] 4 ∧
      Returns (AsciiEnDecStreamImpl.readUntil 9 1 (some [10]) 2) sampleFiles 1 sampleText
        [97, 13] 3 ∧
      Returns (TextFileStream.readLines 9 1) sampleFiles 1 sampleText [[97], [], [98]] 5 := by
  obtain ⟨hseek, hnext, hlines⟩ := reading_splits_file sampleFiles 1 (.opened sampleText) rfl
  exact ⟨hseek 3 10 1 9 (by decide) (by decide), hnext (Or.inl rfl) 10 2 9 (by decide) (by decide),
    hlines 9 (by decide)⟩

end Catter.Io
