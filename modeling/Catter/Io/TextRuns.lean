import Catter.Io.TextStream
import Catter.Library.Cursor

/-! A text stream is a text with a cursor, over every sequence of its operations. -/

namespace Catter.Io

open Text Library Library.Lines

-- What a file keeps of a string: one octet of each character.
def kept (data : JsString) : JsString :=
  (spread data).map fun character => fromCharCode (charCode character)

def chompLine (line : JsString) : JsString :=
  if line.getLast? = some (fromCharCode TextFileStream.cr) then line.dropLast else line

inductive TextOp
  | write (data : JsString)
  | append (data : JsString)
  | read (chars : ℕ)
  | readUntil (delimiter : UInt8)
  | readLine
  | readLines
  | readEntireFile

inductive Reply
  | done
  | text (chars : JsString)
  | lines (lines : List JsString)
deriving DecidableEq

namespace TextOp

def call (engine : Engine) (fuel : ℕ) (fd : ℤ) : TextOp → Js Reply
  | write data => do
    TextFileStream.write fd data
    return .done
  | append data => do
    TextFileStream.append fd data
    return .done
  | read chars => do return .text (← TextFileStream.read engine fd chars)
  | readUntil delimiter =>
    do return .text (← TextFileStream.readUntil fuel fd [fromCharCode delimiter])
  | readLine => do return .text (← TextFileStream.readLine fuel fd)
  | readLines => do return .lines (← TextFileStream.readLines fuel fd)
  | readEntireFile => do return .text (← TextFileStream.readEntireFile engine fd)

def Counts : TextOp → Prop
  | read chars => chars < 2 ^ 31
  | _ => True

def apply : TextOp → Cursor UInt16 → Reply × Cursor UInt16
  | write data, c => (.done, c.write (kept data))
  | append data, c => (.done, c.append (kept data))
  | read chars, c => (.text (c.read chars).1, (c.read chars).2)
  | readUntil delimiter, c =>
    (.text (c.readUntil (fromCharCode delimiter)).1, (c.readUntil (fromCharCode delimiter)).2)
  | readLine, c =>
    (.text (chompLine (c.readUntil (fromCharCode TextFileStream.lf)).1),
      (c.readUntil (fromCharCode TextFileStream.lf)).2)
  | readLines, c =>
    (.lines ((c.readPieces (fromCharCode TextFileStream.lf)).1.map chompLine),
      (c.readPieces (fromCharCode TextFileStream.lf)).2)
  | readEntireFile, c => (.text c.content, .finish c.content)

end TextOp

def callAll (engine : Engine) (fuel : ℕ) (fd : ℤ) : List TextOp → Js (List Reply)
  | [] => pure []
  | op :: ops => do
    let reply ← op.call engine fuel fd
    let replies ← callAll engine fuel fd ops
    return reply :: replies

def applyAll : List TextOp → Cursor UInt16 → List Reply × Cursor UInt16
  | [], c => ([], c)
  | op :: ops, c =>
    let (reply, c) := op.apply c
    let (replies, c) := applyAll ops c
    (reply :: replies, c)

/-- The stream is the text: its flags are up where the cursor is stuck. -/
structure Represents (s : FStream) (c : Cursor UInt16) : Prop where
  content : c.content = chars s.content
  pos : c.pos = s.pos
  stuck : c.stuck = !s.good

structure Room (engine : Engine) (fuel : ℕ) (length : ℕ) : Prop where
  arguments : length ≤ engine.maxArguments
  position : length < 2 ^ 31
  fuel : length < fuel

variable {engine : Engine} {fuel : ℕ} {fs : Files} {fd : ℤ} {s : FStream} {c : Cursor UInt16}

namespace Represents

variable (h : Represents s c)

include h

lemma rest : c.rest = chars s.rest := by
  rw [Cursor.rest, h.content, h.pos, FStream.rest, chars, chars, List.map_drop]

lemma ready : s.Ready := by
  cases hgood : s.good with
  | true => exact Or.inl hgood
  | false =>
    have hstuck : c.stuck = true := by rw [h.stuck, hgood]; rfl
    apply Or.inr
    have hend := c.stuck_at_end hstuck
    rw [h.pos, h.content, chars, List.length_map] at hend
    rw [FStream.rest, hend, List.drop_length]

lemma length : c.content.length = s.content.length := by
  rw [h.content, chars, List.length_map]

lemma pos_le : s.pos ≤ s.content.length := by
  have hwithin := c.within
  rwa [h.pos, h.length] at hwithin

end Represents

lemma encode_front (data : JsString) :
    (AsciiEnDecStreamImpl.encode data).buffer.take (AsciiEnDecStreamImpl.encode data).length =
      (spread data).map charCode := List.take_length

lemma kept_eq (data : JsString) : kept data = chars ((spread data).map charCode) := by
  rw [kept, chars, List.map_map]
  rfl

lemma written_within {content : Octets} {pos : ℕ} (hpos : pos ≤ content.length) (data : Octets) :
    written content pos data = content.take pos ++ data ++ content.drop (pos + data.length) := by
  by_cases hdata : data = []
  · simp [written, hdata]
  · rw [written, if_neg hdata, Nat.sub_eq_zero_of_le hpos, List.replicate_zero, List.append_nil]

lemma represents_write (h : Represents s c) (data : Octets) :
    Represents (s.write data) (c.write (chars data)) := by
  cases hgood : s.good with
  | true =>
    have hstuck : c.stuck = false := by rw [h.stuck, hgood]; rfl
    rw [FStream.write_of_good hgood, Cursor.write,
      if_neg (by rw [hstuck]; exact Bool.false_ne_true)]
    constructor
    · simp only [Cursor.overwritten, h.content, h.pos, written_within h.pos_le, chars,
        List.map_append, List.map_take,
        List.map_drop, List.length_map]
    · simp only [h.pos, chars, List.length_map]
    · exact (congrArg Bool.not hgood).symm
  | false =>
    have hstuck : c.stuck = true := by rw [h.stuck, hgood]; rfl
    have hnot : ¬ s.good = true := Bool.eq_false_iff.mp hgood
    rw [FStream.write_of_not_good hnot, Cursor.write, if_pos hstuck]
    refine ⟨h.content, h.pos, ?_⟩
    rw [hstuck]
    simp [FStream.good]

lemma write_refines (hs : fs.openFiles (key fd) = some s) (h : Represents s c) (data : JsString) :
    ∃ t, TextFileStream.write fd data fs = .ok ((), fs.put fd t) ∧
      Represents t (c.write (kept data)) := by
  refine ⟨_, write_run hs _, ?_⟩
  rw [encode_front, kept_eq]
  exact represents_write h _

lemma append_refines (hs : fs.openFiles (key fd) = some s) (h : Represents s c) (data : JsString) :
    ∃ t, TextFileStream.append fd data fs = .ok ((), fs.put fd t) ∧
      Represents t (c.append (kept data)) := by
  have hend : s.clear.seek 0 .end = { s.clear with pos := s.content.length } := by
    simp [FStream.seek, FStream.base]
  have hat : Represents (s.clear.seek 0 .end) (Cursor.finish c.content) := by
    rw [hend]
    exact ⟨h.content, h.length, rfl⟩
  obtain ⟨t, hrun, ht⟩ := write_refines (put_openFiles fs fd _) hat data
  refine ⟨t, ?_, ?_⟩
  · rw [TextFileStream.append, FileStream.seekWrite, fileSeekWrite,
      bind_ok (fileSeek_run hs 0 2 rfl), hrun, put_put]
  · rwa [Cursor.finish_write] at ht

lemma decode_run {raw : Uint8Array} (hroom : raw.length ≤ engine.maxArguments) (fs : Files) :
    AsciiEnDecStreamImpl.decode engine raw fs = .ok (chars raw.octets, fs) := by
  rw [AsciiEnDecStreamImpl.decode, if_neg (Nat.not_lt.mpr hroom)]
  rfl

lemma fileStream_read_run (hs : fs.openFiles (key fd) = some s) {n : ℕ} (hn : n ≠ 0)
    (hcount : n < 2 ^ 31) :
    ∃ raw, FileStream.read fd n fs = .ok (raw, fs.put fd (s.read n).2) ∧
      raw.octets = (s.read n).1 := by
  have hle : (s.read n).1.length ≤ n := by
    simp only [FStream.read]
    split_ifs
    · exact List.length_take_le _ _
    · exact Nat.zero_le _
  have hread := fileReadN_run hs n (List.replicate n 0) (by rw [List.length_replicate])
  have hfits : 0 + (s.read n).1.length ≤ (overlay (List.replicate n 0) (s.read n).1).length := by
    rw [overlay_length, List.length_replicate, Nat.zero_add]
    exact hle
  refine ⟨⟨_, 0, _, hfits⟩, ?_, ?_⟩
  · rw [FileStream.read, if_neg (by omega), if_neg (by exact_mod_cast hn), if_neg (by omega)]
    refine (bind_ok hread).trans ?_
    simp only [dif_pos hfits]
    rfl
  · simp only [Uint8Array.octets, List.drop_zero, overlay, List.length_replicate]
    rw [List.take_take, Nat.min_eq_left hle, List.take_left]

lemma read_good (hready : s.Ready) {n : ℕ} (hn : n ≠ 0) :
    (s.read n).2.good = !decide (s.rest.length < n) := by
  by_cases hgood : s.good = true
  · have hshort : (s.rest.take n).length < n ↔ s.rest.length < n := by
      rw [List.length_take]
      omega
    rw [FStream.read_of_good hgood]
    simp only [FStream.good, hshort, Bool.and_self]
  · have hnil : s.rest = [] := hready.resolve_left hgood
    rw [FStream.read_of_not_good hgood, hnil]
    simp [FStream.good, Nat.pos_of_ne_zero hn]

lemma represents_read (h : Represents s c) {n : ℕ} (hn : n ≠ 0) :
    (c.read n).1 = chars (s.read n).1 ∧ Represents (s.read n).2 (c.read n).2 := by
  obtain ⟨htaken, hcontent, hpos, -⟩ := FStream.read_ready h.ready n
  have hlength : c.rest.length = s.rest.length := by rw [h.rest, chars, List.length_map]
  refine ⟨?_, ?_, ?_, ?_⟩
  · rw [Cursor.read_fst, htaken, h.rest, chars, chars, List.map_take]
  · rw [Cursor.read_content, hcontent, h.content]
  · rw [Cursor.read_pos, hpos, h.pos, List.length_take, List.length_take, hlength]
  · rw [Cursor.read_stuck hn, read_good h.ready hn, Bool.not_not, hlength]

lemma put_self (hs : fs.openFiles (key fd) = some s) : fs.put fd s = fs := by
  rw [Files.put, ← hs, Function.update_eq_self]

lemma read_refines (hs : fs.openFiles (key fd) = some s) (h : Represents s c)
    (hroom : c.content.length ≤ engine.maxArguments) {n : ℕ} (hcount : n < 2 ^ 31) :
    ∃ t, TextFileStream.read engine fd n fs = .ok ((c.read n).1, fs.put fd t) ∧
      Represents t (c.read n).2 := by
  by_cases hn : n = 0
  · subst hn
    have hread : FileStream.read fd (0 : ℕ) fs = .ok (.zeros 0, fs) := rfl
    refine ⟨s, ?_, h⟩
    rw [TextFileStream.read, AsciiEnDecStreamImpl.read, bind_ok hread, decode_run (Nat.zero_le _),
      put_self hs]
    rfl
  · obtain ⟨raw, hread, hoctets⟩ := fileStream_read_run hs hn hcount
    obtain ⟨htext, hafter⟩ := represents_read h hn
    have hsmall : raw.length ≤ engine.maxArguments := by
      rw [← raw.octets_length, hoctets, (FStream.read_ready h.ready n).1, List.length_take,
        FStream.rest, List.length_drop]
      have hlength := h.length
      omega
    refine ⟨_, ?_, hafter⟩
    rw [TextFileStream.read, AsciiEnDecStreamImpl.read, bind_ok hread, decode_run hsmall,
      hoctets, htext]

lemma put_inj {t t' : FStream} (h : fs.put fd t = fs.put fd t') : t = t' := by
  have hentry := congrArg (fun fs => Files.openFiles fs (key fd)) h
  simpa using hentry

-- The delimiter, where it is met, is left by a seek, which clears the flags; otherwise the last
-- read was short.
lemma readUntilLoop_good (d : UInt8) {bufSize : ℕ} (hbuf : 1 ≤ bufSize)
    (hs : fs.openFiles (key fd) = some s)
    (hready : s.Ready) (buffer : Uint8Array) (hoff : buffer.byteOffset = 0)
    (hlen : buffer.length = bufSize)
    (result : JsString) {text : JsString} {t : FStream}
    (h : AsciiEnDecStreamImpl.readUntilLoop fd (some (fromCharCode d)) bufSize fuel buffer
      result fs =
      .ok (text, fs.put fd t)) :
    t.good = decide (d ∈ s.rest) := by
  induction fuel generalizing fs s buffer result with
  | zero => cases h
  | succ fuel ih =>
    obtain ⟨buffer', hread, hoff', hlen', hoctets⟩ := readBuf_front_run hs buffer hoff
    rw [hlen] at hread hlen' hoctets
    obtain ⟨htaken, hcontent, hpos, hready'⟩ := FStream.read_ready hready bufSize
    rw [htaken] at hread hoctets
    rw [AsciiEnDecStreamImpl.readUntilLoop, bind_ok hread] at h
    simp only [hoctets, scan_eq] at h
    have hrest : s.rest = s.rest.take bufSize ++ s.rest.drop bufSize :=
      (List.take_append_drop _ _).symm
    by_cases hmem : d ∈ s.rest.take bufSize
    · have hland : ((s.read bufSize).2.pos : ℤ) +
          (((0 + (upTo d (s.rest.take bufSize)).length : ℕ) :
            ℤ) - (s.rest.take bufSize).length + 1) =
            (s.pos + ((upTo d (s.rest.take bufSize)).length + 1) : ℕ) := by
        rw [hpos]
        push_cast
        omega
      simp only [hmem, if_true] at h
      rw [bind_ok (seekRead_run (put_openFiles _ _ _) hland), pure_run, put_put] at h
      have hstream := put_inj (Prod.mk.inj (Except.ok.inj h)).2
      rw [← hstream, decide_eq_true (List.mem_of_mem_take hmem)]
      rfl
    · simp only [hmem, if_false] at h
      have hiff : d ∈ s.rest ↔ d ∈ s.rest.drop bufSize := by
        conv_lhs => rw [hrest, List.mem_append, or_iff_right hmem]
      by_cases hshort : (s.rest.take bufSize).length < bufSize
      · rw [if_pos hshort, pure_run] at h
        have hstream := put_inj (Prod.mk.inj (Except.ok.inj h)).2
        have hend : s.rest.length < bufSize := by
          rw [List.length_take] at hshort
          omega
        have hnone : d ∉ s.rest := by rwa [List.take_of_length_le hend.le] at hmem
        rw [← hstream, read_good hready (by omega), decide_eq_true hend, decide_eq_false hnone]
        rfl
      · rw [if_neg hshort] at h
        have hnext : (s.read bufSize).2.rest = s.rest.drop bufSize := by
          rw [FStream.rest_advance s _ _ hcontent hpos]
          rw [List.length_take] at hshort ⊢
          rw [Nat.min_eq_left (by omega)]
        rw [← put_put fs fd (s.read bufSize).2 t] at h
        rw [ih (put_openFiles fs fd _) hready' buffer' hoff' hlen' _ h, hnext, decide_eq_decide]
        exact hiff.symm

lemma fromCharCode_injective : Function.Injective fromCharCode := fun _ _ => fromCharCode_inj.mp

lemma readUntil_refines (hs : fs.openFiles (key fd) = some s) (h : Represents s c)
    (hfuel : c.content.length < fuel)
    (d : UInt8) :
    ∃ t, TextFileStream.readUntil fuel fd [fromCharCode d] fs =
        .ok ((c.readUntil (fromCharCode d)).1, fs.put fd t) ∧
      Represents t (c.readUntil (fromCharCode d)).2 := by
  have hshort : s.rest.length < fuel := by
    have hlength := h.length
    rw [FStream.rest, List.length_drop]
    omega
  obtain ⟨t, hrun, hcontent, hpos, -⟩ := readUntil_run d (by decide : 1 ≤ 32) hs h.ready hshort
  have hgood := readUntilLoop_good d (by decide : 1 ≤ 32) hs h.ready (.zeros 32) rfl rfl [] hrun
  refine ⟨t, ?_, ?_, ?_, ?_⟩
  · rw [TextFileStream.readUntil, hrun, Cursor.readUntil_fst, h.rest, chars, chars,
      upTo_map fromCharCode_injective]
  · rw [Cursor.readUntil_content, hcontent, h.content]
  · rw [Cursor.readUntil_pos, hpos, h.pos, h.rest, chars, reach_map fromCharCode_injective]
  · simp only [Cursor.readUntil_stuck, hgood, h.rest, chars,
      List.mem_map_of_injective fromCharCode_injective,
      decide_not]

lemma chompLine_chars (line : Octets) : chompLine (chars line) = chars (chomp line) :=
  chomp_chars line

lemma readLine_refines (hs : fs.openFiles (key fd) = some s) (h : Represents s c)
    (hfuel : c.content.length < fuel) :
    ∃ t, TextFileStream.readLine fuel fd fs =
        .ok (chompLine (c.readUntil (fromCharCode TextFileStream.lf)).1, fs.put fd t) ∧
      Represents t (c.readUntil (fromCharCode TextFileStream.lf)).2 := by
  obtain ⟨t, hrun, ht⟩ := readUntil_refines hs h hfuel TextFileStream.lf
  refine ⟨t, ?_, ht⟩
  rw [TextFileStream.readLine, bind_ok hrun, pure_run, chompLine]

lemma bind_eq_ok {α β : Type} {m : Js α} {f : α → Js β} {b : β} {fs' : Files}
    (h : (m >>= f) fs = .ok (b, fs')) :
    ∃ a mid, m fs = .ok (a, mid) ∧ f a mid = .ok (b, fs') := by
  cases hm : m fs with
  | error e =>
    rw [bind_error hm] at h
    cases h
  | ok r =>
    obtain ⟨a, mid⟩ := r
    rw [bind_ok hm] at h
    exact ⟨a, mid, rfl, h⟩

lemma tellRead_clears {pos : ℤ} {fs' : Files} (h : FileStream.tellRead fd fs = .ok (pos, fs')) :
    ∃ t, fs'.openFiles (key fd) = some t ∧ t.good = true := by
  cases hs : fs.openFiles (key fd) with
  | none =>
    obtain ⟨e, he⟩ := find_closed hs
    rw [FileStream.tellRead, fileTellRead, fileTell, bind_error he] at h
    cases h
  | some s =>
    rw [FileStream.tellRead, fileTellRead, fileTell_run hs] at h
    cases h
    exact ⟨s.clear, put_openFiles _ _ _, rfl⟩

lemma readLinesLoop_good {lines lines' : List JsString} {currentPos : ℤ} {fs' : Files}
    (h : TextFileStream.readLinesLoop fd fuel lines currentPos fs = .ok (lines', fs')) :
    ∃ t, fs'.openFiles (key fd) = some t ∧ t.good = true := by
  induction fuel generalizing fs lines currentPos with
  | zero => cases h
  | succ fuel ih =>
    obtain ⟨line, mid, -, h⟩ := bind_eq_ok h
    obtain ⟨newPos, told, htell, h⟩ := bind_eq_ok h
    split_ifs at h
    · cases h
      exact tellRead_clears htell
    · exact ih h

lemma readLines_refines (hs : fs.openFiles (key fd) = some s) (h : Represents s c)
    (hfuel : c.content.length < fuel) :
    ∃ t, TextFileStream.readLines fuel fd fs =
        .ok ((c.readPieces (fromCharCode TextFileStream.lf)).1.map chompLine, fs.put fd t) ∧
      Represents t (c.readPieces (fromCharCode TextFileStream.lf)).2 := by
  have hlength := h.length
  have hshort : s.rest.length < fuel := by
    rw [FStream.rest, List.length_drop]
    omega
  obtain ⟨t, hrun, hcontent, hpos⟩ := readLines_run hs hshort
  obtain ⟨pos, mid, -, hloop⟩ := bind_eq_ok hrun
  obtain ⟨t', ht', hgood⟩ := readLinesLoop_good hloop
  obtain rfl : t = t' := by simpa using ht'
  refine ⟨t, ?_, ?_, ?_, ?_⟩
  · have hlines : (c.readPieces (fromCharCode TextFileStream.lf)).1.map chompLine =
        linesOf s.rest := by
      rw [Cursor.readPieces, h.rest, chars, pieces_map fromCharCode_injective,
        List.map_map, linesOf]
      apply List.map_congr_left
      intro line _
      exact chompLine_chars line
    rw [hrun, hlines]
  · exact h.content.trans (congrArg chars hcontent.symm)
  · have hwithin := h.pos_le
    rw [hpos, FStream.rest, List.length_drop]
    exact hlength.trans (by omega)
  · exact (congrArg Bool.not hgood).symm

lemma fileStream_readEntireFile_run (hs : fs.openFiles (key fd) = some s)
    (hsize : s.content.length < 2 ^ 31)
    (hpos : s.pos < 2 ^ 31) (js : QuickJs) :
    ∃ raw t, FileStream.readEntireFile js fd fs = .ok (raw, fs.put fd t) ∧ raw.octets = s.content ∧
      t.content = s.content ∧ t.pos = s.content.length ∧ t.good = true := by
  have hback := (seek_back_iff s ((s.pos : ℤ).bmod (2 ^ 32))).mpr
    ((position_back_iff s.pos).mpr hpos)
  have hsized := fileSize_run js hs
  rw [hback] at hsized
  have hseek : FileStream.seekRead fd 0 0 (fs.put fd s.clear) =
      .ok ((), fs.put fd (.opened s.content)) := by
    have hset := seekRead_set (put_openFiles fs fd s.clear) 0
    rwa [put_put] at hset
  have hargument (fs : Files) : argument js (valueFrom js (.signed 64) s.content.length) fs =
      .ok ((s.content.length : ℤ), fs) := by
    rw [argument, position_back, (position_back_iff _).mpr hsize]
    rfl
  rw [FileStream.readEntireFile, bind_ok hsized, bind_ok hseek, bind_ok (hargument _)]
  by_cases hempty : s.content.length = 0
  · refine ⟨.zeros 0, .opened s.content, ?_, ?_, rfl, hempty.symm, rfl⟩
    · rw [hempty]
      rfl
    · rw [List.length_eq_zero_iff.mp hempty]
      rfl
  · obtain ⟨raw, hread, hoctets⟩ :=
      fileStream_read_run (put_openFiles fs fd (.opened s.content)) hempty hsize
    have hready : (FStream.opened s.content).Ready := Or.inl rfl
    have hrest : (FStream.opened s.content).rest = s.content := List.drop_zero
    obtain ⟨htaken, hcontent, hend, -⟩ := FStream.read_ready hready s.content.length
    rw [hrest, List.take_length] at htaken hend
    have hgood := read_good hready hempty
    rw [hrest, decide_eq_false (Nat.lt_irrefl _)] at hgood
    refine ⟨raw, _, ?_, ?_, hcontent, ?_, hgood⟩
    · rw [hread, put_put]
    · rw [hoctets, htaken]
    · rw [hend]
      exact Nat.zero_add _

lemma readEntireFile_refines (hs : fs.openFiles (key fd) = some s) (h : Represents s c)
    (hroom : c.content.length ≤ engine.maxArguments) (hposition : c.content.length < 2 ^ 31) :
    ∃ t, TextFileStream.readEntireFile engine fd fs = .ok (c.content, fs.put fd t) ∧
      Represents t (.finish c.content) := by
  have hlength := h.length
  have hwithin := h.pos_le
  obtain ⟨raw, t, hrun, hoctets, hcontent, hpos, hgood⟩ :=
    fileStream_readEntireFile_run hs (by omega) (by omega) engine.toQuickJs
  have hsmall : raw.length ≤ engine.maxArguments := by
    rw [← raw.octets_length, hoctets]
    omega
  refine ⟨t, ?_, ?_, ?_, ?_⟩
  · rw [TextFileStream.readEntireFile, bind_ok hrun, decode_run hsmall, hoctets, h.content]
  · exact h.content.trans (congrArg chars hcontent.symm)
  · exact hlength.trans hpos.symm
  · exact (congrArg Bool.not hgood).symm

lemma call_refines (hs : fs.openFiles (key fd) = some s) (h : Represents s c)
    (hroom : Room engine fuel c.content.length)
    (op : TextOp) (hcount : op.Counts) :
    ∃ t, op.call engine fuel fd fs = .ok ((op.apply c).1, fs.put fd t) ∧
      Represents t (op.apply c).2 := by
  cases op with
  | write data =>
    obtain ⟨t, hrun, ht⟩ := write_refines hs h data
    exact ⟨t, bind_ok hrun, ht⟩
  | append data =>
    obtain ⟨t, hrun, ht⟩ := append_refines hs h data
    exact ⟨t, bind_ok hrun, ht⟩
  | read n =>
    obtain ⟨t, hrun, ht⟩ := read_refines hs h hroom.arguments hcount
    exact ⟨t, bind_ok hrun, ht⟩
  | readUntil d =>
    obtain ⟨t, hrun, ht⟩ := readUntil_refines hs h hroom.fuel d
    exact ⟨t, bind_ok hrun, ht⟩
  | readLine =>
    obtain ⟨t, hrun, ht⟩ := readLine_refines hs h hroom.fuel
    exact ⟨t, bind_ok hrun, ht⟩
  | readLines =>
    obtain ⟨t, hrun, ht⟩ := readLines_refines hs h hroom.fuel
    exact ⟨t, bind_ok hrun, ht⟩
  | readEntireFile =>
    obtain ⟨t, hrun, ht⟩ := readEntireFile_refines hs h hroom.arguments hroom.position
    exact ⟨t, bind_ok hrun, ht⟩

lemma length_le_apply (op : TextOp) (c : Cursor UInt16) :
    c.content.length ≤ (op.apply c).2.content.length := by
  cases op with
  | write data => exact Cursor.length_le_write _ c
  | append data => exact Cursor.length_le_append _ c
  | read n => exact (congrArg List.length (Cursor.read_content n c)).ge
  | readUntil | readLine | readLines | readEntireFile => exact le_rfl

lemma length_le_applyAll (ops : List TextOp) (c : Cursor UInt16) :
    c.content.length ≤ (applyAll ops c).2.content.length := by
  induction ops generalizing c with
  | nil => exact le_rfl
  | cons op ops ih => exact (length_le_apply op c).trans (ih (op.apply c).2)

lemma Room.mono {length length' : ℕ} (h : Room engine fuel length') (hle : length ≤ length') :
    Room engine fuel length :=
  ⟨hle.trans h.arguments, hle.trans_lt h.position, hle.trans_lt h.fuel⟩

lemma opened_represents (content : Octets) :
    Represents (.opened content) (.start (chars content)) := ⟨rfl, rfl, rfl⟩

lemma kept_latin {data : JsString} (h : ∀ unit ∈ data, unit < 256) : kept data = data := by
  have hchar {unit : UInt16} (hunit : unit < 256) : fromCharCode (charCode [unit]) = unit := by
    rw [UInt16.lt_iff_toNat_lt] at hunit
    apply UInt16.toNat_inj.mp
    simpa [fromCharCode, charCode] using hunit
  induction data using spread.induct with
  | case1 => rfl
  | case2 unit => rw [kept, spread, List.map_cons, hchar (h unit List.mem_cons_self), List.map_nil]
  | case3 unit next rest hpair =>
    have hunit := h unit List.mem_cons_self
    simp only [isHighSurrogate, Bool.and_eq_true, decide_eq_true_eq,
      UInt16.le_iff_toNat_le] at hpair
    rw [UInt16.lt_iff_toNat_lt] at hunit
    simp at hunit hpair
    omega
  | case4 unit next rest hsingle ih =>
    have hrest := ih fun u hu => h u (List.mem_cons_of_mem _ hu)
    rw [kept, spread, if_neg hsingle, List.map_cons, hchar (h unit List.mem_cons_self)]
    exact congrArg _ hrest

/-- Whatever is done with a text stream, the replies and the file are those of a text with a
cursor. -/
theorem text_stream_refines (engine : Engine) (fuel : ℕ) (ops : List TextOp)
    (hs : fs.openFiles (key fd) = some s)
    (h : Represents s c) (hcounts : ∀ op ∈ ops, op.Counts)
    (hroom : Room engine fuel (applyAll ops c).2.content.length) :
    ∃ t, callAll engine fuel fd ops fs = .ok ((applyAll ops c).1, fs.put fd t) ∧
      Represents t (applyAll ops c).2 := by
  induction ops generalizing fs s c with
  | nil => exact ⟨s, by rw [callAll, pure_run, put_self hs]; rfl, h⟩
  | cons op ops ih =>
    have hfirst := (length_le_apply op c).trans (length_le_applyAll ops (op.apply c).2)
    obtain ⟨t, hcall, ht⟩ :=
      call_refines hs h (hroom.mono hfirst) op (hcounts op List.mem_cons_self)
    obtain ⟨u, hrest, hu⟩ :=
      ih (put_openFiles fs fd t) ht (fun op hop => hcounts op (List.mem_cons_of_mem _ hop)) hroom
    refine ⟨u, ?_, hu⟩
    rw [callAll, bind_ok hcall, bind_ok hrest, pure_run, put_put]
    rfl

def sampleEngine : Engine where
  toQuickJs := wholeNumbers
  maxArguments := 100
  tooMany := lit "too many arguments"

theorem text_stream_refines_sample :
    ∃ t, callAll sampleEngine 9 1 [.readLine, .append [233], .read 3, .write [98], .readEntireFile,
      .readLines]
        sampleFiles =
        .ok ([.text [97], .done, .text [], .done, .text [97, 13, 10, 10, 98, 233], .lines []],
          sampleFiles.put 1 t) ∧
      Represents t (.finish [97, 13, 10, 10, 98, 233]) := by
  have hopen : sampleFiles.openFiles (key 1) = some (.opened sampleText) := rfl
  have hrun := text_stream_refines sampleEngine 9
    [.readLine, .append [233], .read 3, .write [98], .readEntireFile, .readLines] hopen
    (opened_represents sampleText) (by simp [TextOp.Counts]) ⟨by decide, by decide, by decide⟩
  have happly :
      applyAll [.readLine, .append [233], .read 3, .write [98], .readEntireFile, .readLines]
        (.start (chars sampleText)) =
        ([.text [97], .done, .text [], .done, .text [97, 13, 10, 10, 98, 233], .lines []],
          .finish [97, 13, 10, 10, 98, 233]) := by
    rfl
  rw [happly] at hrun
  exact hrun

end Catter.Io
