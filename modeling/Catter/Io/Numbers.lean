import Catter.Io.Operations

/-! Integers on their way to JavaScript and back, and the file positions among them. -/

namespace Catter.Io

open Text

def Fits (bits : ℕ) (v : ℤ) : Prop := -2 ^ bits ≤ 2 * v ∧ 2 * v < 2 ^ bits

instance (bits : ℕ) (v : ℤ) : Decidable (Fits bits v) := inferInstanceAs (Decidable (_ ∧ _))

/-- The numbers of QuickJS, which are exact up to 2 ^ 53. -/
structure QuickJs where
  Value : Type
  isNumber : Value → Bool
  newInt64 : ℤ → Value
  toInt64 : Value → Option ℤ
  newUint32 : ℕ → Value
  toUint32 : Value → Option ℕ
  int64_exact (v : ℤ) : |v| ≤ 2 ^ 53 → isNumber (newInt64 v) = true ∧ toInt64 (newInt64 v) = some v
  uint32_exact (v : ℕ) : v < 2 ^ 32 → isNumber (newUint32 v) = true ∧
    toUint32 (newUint32 v) = some v

inductive Num
  | unsigned (bits : ℕ) (narrow : bits ≤ 32)
  | signed (bits : ℕ)

lemma bmod_of_fits {bits : ℕ} {v : ℤ} (h : Fits bits v) : v.bmod (2 ^ bits) = v := by
  obtain ⟨hlow, hhigh⟩ := h
  apply Int.bmod_eq_of_le_mul_two
  · push_cast
    omega
  · push_cast
    omega

lemma fits_bmod (bits : ℕ) (v : ℤ) : Fits bits (v.bmod (2 ^ bits)) := by
  have hpos : 0 < 2 ^ bits := Nat.two_pow_pos bits
  have hlow := Int.le_bmod (x := v) hpos
  have hhigh := Int.bmod_lt (x := v) hpos
  push_cast at hlow hhigh
  constructor
  · omega
  · omega

lemma Fits.mono {bits bits' : ℕ} {v : ℤ} (h : Fits bits v) (hle : bits ≤ bits') : Fits bits' v := by
  have hpow : (2 : ℤ) ^ bits ≤ 2 ^ bits' := pow_le_pow_right₀ (by decide) hle
  obtain ⟨hlow, hhigh⟩ := h
  constructor
  · linarith
  · linarith

lemma Fits.exact {v : ℤ} (h : Fits 32 v) : |v| ≤ 2 ^ 53 := by
  obtain ⟨hlow, hhigh⟩ := h
  apply abs_le.mpr
  constructor
  · linarith
  · linarith

lemma fits_nat_iff (n : ℕ) : Fits 32 n ↔ n < 2 ^ 31 := by
  rw [Fits]
  omega

section Boundary

variable (js : QuickJs)

def valueFrom (num : Num) (value : ℤ) : js.Value :=
  match num with
  | .unsigned _ _ => js.newUint32 (value % 2 ^ 32).toNat
  | .signed _ => js.newInt64 (value.bmod (2 ^ 32))

def valueTo (num : Num) (val : js.Value) : Option ℤ :=
  if !js.isNumber val then none
  else match num with
    | .unsigned bits _ => (js.toUint32 val).map fun (temp : ℕ) => (temp : ℤ) % 2 ^ bits
    | .signed bits => (js.toInt64 val).map fun temp => temp.bmod (2 ^ bits)

def argument (val : js.Value) : Js ℤ :=
  match valueTo js (.signed 64) val with
  | some arg => pure arg
  | none => Js.throwQjs (lit "Failed to convert function parameter")

def tellReadValue (fd : ℤ) : Js js.Value := do
  let pos ← FileStream.tellRead fd
  return valueFrom js (.signed 64) pos

def tellWriteValue (fd : ℤ) : Js js.Value := do
  let pos ← FileStream.tellWrite fd
  return valueFrom js (.signed 64) pos

def FileStream.fileSize (fd : ℤ) : Js js.Value := do
  let currentPos ← tellReadValue js fd
  FileStream.seekRead fd 0 2
  let size ← tellReadValue js fd
  let offset ← argument js currentPos
  FileStream.seekRead fd offset 0
  return size

def Yields (m : Js js.Value) (fs : Files) (v : ℤ) (fs' : Files) : Prop :=
  ∃ val, m fs = .ok (val, fs') ∧ valueTo js (.signed 64) val = some v

lemma valueTo_valueFrom (bits : ℕ) (v : ℤ) :
    valueTo js (.signed bits) (valueFrom js (.signed bits) v) =
      some ((v.bmod (2 ^ 32)).bmod (2 ^ bits)) := by
  obtain ⟨hnumber, hvalue⟩ := js.int64_exact _ (fits_bmod 32 v).exact
  simp only [valueTo, valueFrom, hnumber, hvalue]
  rfl

lemma round_trip_iff {bits : ℕ} {v : ℤ} (h : Fits bits v) :
    valueTo js (.signed bits) (valueFrom js (.signed bits) v) = some v ↔ Fits 32 v := by
  rw [valueTo_valueFrom, Option.some_inj]
  constructor
  · intro hback
    obtain hle | hle := Nat.le_total bits 32
    · exact h.mono hle
    · rw [bmod_of_fits ((fits_bmod 32 v).mono hle)] at hback
      rw [← hback]
      exact fits_bmod 32 v
  · intro hfits
    rw [bmod_of_fits hfits, bmod_of_fits h]

lemma unsigned_round_trip {bits : ℕ} (narrow : bits ≤ 32) {v : ℤ} (h0 : 0 ≤ v) (h : v < 2 ^ bits) :
    valueTo js (.unsigned bits narrow) (valueFrom js (.unsigned bits narrow) v) = some v := by
  have hpow : (2 : ℤ) ^ bits ≤ 2 ^ 32 := pow_le_pow_right₀ (by decide) narrow
  have hwhole : v % 2 ^ 32 = v := Int.emod_eq_of_lt h0 (h.trans_le hpow)
  have hback : (v.toNat : ℤ) % 2 ^ bits = v := by
    rw [Int.toNat_of_nonneg h0]
    exact Int.emod_eq_of_lt h0 h
  obtain ⟨hnumber, hvalue⟩ := js.uint32_exact v.toNat (by omega)
  simp only [valueTo, valueFrom, hwhole, hnumber, hvalue, Option.map_some, hback]
  rfl

lemma position_back (pos : ℕ) :
    valueTo js (.signed 64) (valueFrom js (.signed 64) pos) = some ((pos : ℤ).bmod (2 ^ 32)) := by
  rw [valueTo_valueFrom, bmod_of_fits ((fits_bmod 32 _).mono (by decide))]

lemma position_back_iff (pos : ℕ) : (pos : ℤ).bmod (2 ^ 32) = pos ↔ pos < 2 ^ 31 := by
  rw [← fits_nat_iff]
  constructor
  · intro h
    rw [← h]
    exact fits_bmod 32 _
  · exact bmod_of_fits

lemma tell_yields_iff {m : Js js.Value} {fs : Files} {fd : ℤ} {s : FStream}
    (hm : m fs = .ok (valueFrom js (.signed 64) s.pos, fs.put fd s.clear)) :
    Yields js m fs s.pos (fs.put fd s.clear) ↔ s.pos < 2 ^ 31 := by
  rw [← position_back_iff]
  constructor
  · rintro ⟨val, hval, hback⟩
    rw [hm] at hval
    cases hval
    rw [position_back, Option.some_inj] at hback
    exact hback
  · intro hpos
    exact ⟨_, hm, (position_back js s.pos).trans (congrArg some hpos)⟩

lemma seek_back_iff (s : FStream) (back : ℤ) :
    FStream.seek { s.clear with pos := s.content.length } back .beg = s.clear ↔ back = s.pos := by
  rw [FStream.seek, FStream.base, Nat.cast_zero, zero_add]
  constructor
  · intro h
    split_ifs at h with hsign
    · have hpos : back.toNat = s.pos := congrArg FStream.pos h
      omega
    · cases congrArg FStream.fail h
  · rintro rfl
    rw [if_pos (Int.natCast_nonneg s.pos), Int.toNat_natCast]
    rfl

section Open

variable {fs : Files} {fd : ℤ} {s : FStream} (hs : fs.openFiles (key fd) = some s)

include hs

lemma tellReadValue_run :
    tellReadValue js fd fs = .ok (valueFrom js (.signed 64) s.pos, fs.put fd s.clear) := by
  rw [tellReadValue, FileStream.tellRead, fileTellRead, bind_ok (fileTell_run hs), pure_run]

lemma tellWriteValue_run :
    tellWriteValue js fd fs = .ok (valueFrom js (.signed 64) s.pos, fs.put fd s.clear) := by
  rw [tellWriteValue, FileStream.tellWrite, fileTellWrite, bind_ok (fileTell_run hs), pure_run]

lemma fileSize_run :
    FileStream.fileSize js fd fs =
      .ok (valueFrom js (.signed 64) s.content.length,
        fs.put fd ({ s.clear with pos := s.content.length }.seek ((s.pos : ℤ).bmod (2 ^ 32))
          .beg)) := by
  have hend : s.clear.clear.seek 0 .end = { s.clear with pos := s.content.length } := by
    simp [FStream.seek, FStream.base, FStream.clear]
  have hargument (fs : Files) :
      argument js (valueFrom js (.signed 64) s.pos) fs = .ok ((s.pos : ℤ).bmod (2 ^ 32), fs) := by
    rw [argument, position_back]
    rfl
  rw [FileStream.fileSize, bind_ok (tellReadValue_run js hs), FileStream.seekRead, fileSeekRead,
    bind_ok (fileSeek_run (put_openFiles fs fd s.clear) 0 2 rfl), hend, put_put,
    bind_ok (tellReadValue_run js (put_openFiles fs fd _)), put_put, bind_ok (hargument _),
      FileStream.seekRead,
    fileSeekRead, bind_ok (fileSeek_run (put_openFiles fs fd _) _ 0 rfl), put_put, pure_run]
  rfl

lemma fileSize_yields_iff :
    Yields js (FileStream.fileSize js fd) fs s.content.length (fs.put fd s.clear) ↔
      s.content.length < 2 ^ 31 ∧ s.pos < 2 ^ 31 := by
  rw [← position_back_iff, ← position_back_iff, ← seek_back_iff]
  constructor
  · rintro ⟨val, hval, hback⟩
    rw [fileSize_run js hs] at hval
    obtain ⟨rfl, hfiles⟩ := Prod.mk.inj (Except.ok.inj hval)
    rw [position_back, Option.some_inj] at hback
    have hstream := congrArg (fun fs => Files.openFiles fs (key fd)) hfiles
    dsimp only at hstream
    rw [put_openFiles, put_openFiles, Option.some_inj] at hstream
    exact ⟨hback, hstream⟩
  · rintro ⟨hlength, hstream⟩
    have hrun := fileSize_run js hs
    rw [hstream] at hrun
    exact ⟨_, hrun, (position_back js _).trans (congrArg some hlength)⟩

end Open

theorem integers_cross_iff :
    (∀ (bits : ℕ) (v : ℤ), Fits bits v →
      (valueTo js (.signed bits) (valueFrom js (.signed bits) v) = some v ↔ Fits 32 v)) ∧
    ∀ (fs : Files) (fd : ℤ) (s : FStream), fs.openFiles (key fd) = some s →
      (Yields js (tellReadValue js fd) fs s.pos (fs.put fd s.clear) ↔ s.pos < 2 ^ 31) ∧
      (Yields js (tellWriteValue js fd) fs s.pos (fs.put fd s.clear) ↔ s.pos < 2 ^ 31) ∧
      (Yields js (FileStream.fileSize js fd) fs s.content.length (fs.put fd s.clear) ↔
        s.content.length < 2 ^ 31 ∧ s.pos < 2 ^ 31) := by
  constructor
  · intro bits v h
    exact round_trip_iff js h
  · intro fs fd s hs
    exact ⟨tell_yields_iff js (tellReadValue_run js hs),
      tell_yields_iff js (tellWriteValue_run js hs),
      fileSize_yields_iff js hs⟩

end Boundary

def wholeNumbers : QuickJs where
  Value := ℤ
  isNumber _ := true
  newInt64 v := v
  toInt64 v := some v
  newUint32 v := v
  toUint32 v := some (v % 2 ^ 32).toNat
  int64_exact _ _ := ⟨rfl, rfl⟩
  uint32_exact v h := by
    refine ⟨rfl, ?_⟩
    rw [Option.some_inj]
    omega

theorem integers_cross_small :
    valueTo wholeNumbers (.signed 64) (valueFrom wholeNumbers (.signed 64) (-2 ^ 31)) =
      some (-2 ^ 31) ∧
    Yields wholeNumbers (FileStream.fileSize wholeNumbers 1)
      (noFiles.put 1 ⟨[97, 98, 99], 1, true, true⟩) 3
      (noFiles.put 1 ⟨[97, 98, 99], 1, false, false⟩) := by
  obtain ⟨hround, hfiles⟩ := integers_cross_iff wholeNumbers
  constructor
  · exact (hround 64 (-2 ^ 31) (by decide)).mpr (by decide)
  · have hsize := (hfiles (noFiles.put 1 ⟨[97, 98, 99], 1, true, true⟩) 1 _
      (put_openFiles _ _ _)).2.2
    rw [put_put] at hsize
    exact hsize.mpr (by decide)

theorem large_position_wraps :
    ¬∀ (js : QuickJs) (bits : ℕ) (v : ℤ), Fits bits v → |v| ≤ 2 ^ 53 →
      valueTo js (.signed bits) (valueFrom js (.signed bits) v) = some v := by
  intro h
  exact absurd (h wholeNumbers 64 3000000000 (by decide) (by decide)) (by decide)

end Catter.Io
