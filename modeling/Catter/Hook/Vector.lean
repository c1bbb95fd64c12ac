import Catter.Hook.Command

/-! What the builder's operations leave in the two areas: vectors are laid out string
after string, and nothing outside the free part is touched. -/

namespace Catter.Hook

open Text Library.Region

variable (p : Platform)

def size (strs : List CString) : ℕ := (strs.map fun s => s.stored.length).sum

def Laid (area : Memory) (argv : ℕ → Option ℕ) : ℕ → ℕ → List CString → Prop
  | _, _, [] => True
  | slot, off, s :: strs =>
    argv slot = some off ∧ Holds area off s.stored ∧
      Laid area argv (slot + 1) (off + s.stored.length) strs

@[simp] lemma size_nil : size [] = 0 := rfl

@[simp] lemma size_cons (s : CString) (strs : List CString) :
    size (s :: strs) = s.stored.length + size strs := by
  simp [size]

@[simp] lemma size_append (strs strs' : List CString) :
    size (strs ++ strs') = size strs + size strs' := by
  simp [size]

lemma laid_append {area : Memory} {argv : ℕ → Option ℕ} {slot off : ℕ} {strs strs' : List CString}
    (h : Laid area argv slot off strs)
    (h' : Laid area argv (slot + strs.length) (off + size strs) strs') :
    Laid area argv slot off (strs ++ strs') := by
  induction strs generalizing slot off with
  | nil => exact h'
  | cons s strs ih =>
    obtain ⟨hslot, hholds, hrest⟩ := h
    refine ⟨hslot, hholds, ih hrest ?_⟩
    rw [size_cons, List.length_cons] at h'
    rwa [Nat.add_assoc, Nat.add_comm 1, Nat.add_assoc]

lemma Laid.frame {area area' : Memory} {argv argv' : ℕ → Option ℕ} {slot off lo hi slo shi : ℕ}
    {strs : List CString} (h : Laid area argv slot off strs) (harea : SameOutside lo hi area area')
    (hargv : SameOutside slo shi argv argv') (hoff : off + size strs ≤ lo)
    (hslot : slot + strs.length ≤ slo) :
    Laid area' argv' slot off strs := by
  induction strs generalizing slot off with
  | nil => trivial
  | cons s strs ih =>
    obtain ⟨hs, hholds, hrest⟩ := h
    rw [size_cons] at hoff
    rw [List.length_cons] at hslot
    refine ⟨?_, hholds.frame harea (Or.inl (by omega)), ih hrest (by omega) (by omega)⟩
    rw [hargv slot (by omega)]
    exact hs

lemma Laid.get {area : Memory} {argv : ℕ → Option ℕ} {slot off : ℕ} {strs : List CString}
    (h : Laid area argv slot off strs) (k : ℕ) (hk : k < strs.length) :
    ∃ o, argv (slot + k) = some o ∧ Holds area o strs[k].stored := by
  induction strs generalizing slot off k with
  | nil => exact absurd hk (Nat.not_lt_zero k)
  | cons s strs ih =>
    obtain ⟨hs, hholds, hrest⟩ := h
    cases k with
    | zero => exact ⟨off, hs, hholds⟩
    | succ k =>
      obtain ⟨o, ho, hheld⟩ := ih hrest k (Nat.lt_of_succ_lt_succ hk)
      rw [Nat.add_assoc, Nat.add_comm 1] at ho
      exact ⟨o, ho, hheld⟩

namespace CmdBuilder

-- The free part is what lies behind `append_ptr` and `append_argv_ptr`.
structure Keeps (b b' : CmdBuilder) : Prop where
  area : SameOutside b.appendPtr p.bufSize b.area b'.area
  argv : SameOutside b.appendArgvPtr p.maxArgc b.argv b'.argv
  appendPtr : b'.appendPtr = b.appendPtr
  appendArgvPtr : b'.appendArgvPtr = b.appendArgvPtr
  executablePathPtr : b'.executablePathPtr = b.executablePathPtr

lemma Keeps.refl (b : CmdBuilder) : Keeps p b b :=
  ⟨SameOutside.refl _ _ _, SameOutside.refl _ _ _, rfl, rfl, rfl⟩

variable {p}

lemma Keeps.trans {b b' b'' : CmdBuilder} (h : Keeps p b b') (h' : Keeps p b' b'') :
    Keeps p b b'' := by
  constructor
  · apply h.area.trans
    rw [← h.appendPtr]
    exact h'.area
  · apply h.argv.trans
    rw [← h.appendArgvPtr]
    exact h'.argv
  · rw [h'.appendPtr, h.appendPtr]
  · rw [h'.appendArgvPtr, h.appendArgvPtr]
  · rw [h'.executablePathPtr, h.executablePathPtr]

/-! Storing arguments. -/

variable (p)

lemma storeArg_fits (b : CmdBuilder) (buf : Buffer) (s : CString)
    (hslot : b.appendArgvPtr < p.maxArgc - 1)
    (hroom : buf.top + s.stored.length ≤ buf.end_) :
    ∃ area, storeArg p b buf (some s) =
        ({ b with area, argv := Function.update b.argv b.appendArgvPtr (some buf.top),
                  appendArgvPtr := b.appendArgvPtr + 1 },
          { buf with top := buf.top + s.stored.length }, some buf.top) ∧
      Holds area buf.top s.stored ∧
        SameOutside buf.top (buf.top + s.stored.length) b.area area := by
  obtain ⟨area, hstore, hholds, hsame⟩ := Buffer.store_fits s b.area hroom
  refine ⟨area, ?_, hholds, hsame⟩
  rw [storeArg, if_neg (by omega), hstore]

lemma storeArg_overflows (b : CmdBuilder) (buf : Buffer) (s : CString) (hle : buf.top ≤ buf.end_)
    (h : ¬ (b.appendArgvPtr < p.maxArgc - 1 ∧ buf.top + s.stored.length ≤ buf.end_)) :
    ∃ area, storeArg p b buf (some s) = ({ b with area }, buf, none) ∧
      SameOutside buf.top buf.end_ b.area area := by
  by_cases hslot : p.maxArgc - 1 ≤ b.appendArgvPtr
  · exact ⟨b.area, by rw [storeArg, if_pos hslot], SameOutside.refl _ _ _⟩
  · obtain ⟨area, hstore, hsame⟩ := Buffer.store_overflows s b.area hle (by omega)
    exact ⟨area, by rw [storeArg, if_neg hslot, hstore], hsame⟩

lemma storeArgs_fits (b : CmdBuilder) (buf : Buffer) (strs : List CString)
    (hslots : b.appendArgvPtr + strs.length ≤ p.maxArgc - 1)
    (hroom : buf.top + size strs ≤ buf.end_) :
    ∃ area argv, storeArgs p b buf strs =
        ({ b with area, argv, appendArgvPtr := b.appendArgvPtr + strs.length },
          { buf with top := buf.top + size strs }, true) ∧
      Laid area argv b.appendArgvPtr buf.top strs ∧
      SameOutside buf.top (buf.top + size strs) b.area area ∧
      SameOutside b.appendArgvPtr (b.appendArgvPtr + strs.length) b.argv argv := by
  induction strs generalizing b buf with
  | nil => exact ⟨b.area, b.argv, rfl, trivial, SameOutside.refl _ _ _, SameOutside.refl _ _ _⟩
  | cons s strs ih =>
    rw [List.length_cons] at hslots
    rw [size_cons] at hroom
    obtain ⟨area, hstore, hholds, hsame⟩ := storeArg_fits p b buf s (by omega) (by omega)
    obtain ⟨area', argv', hrest, hlaid, harea, hargv⟩ :=
      ih { b with area, argv := Function.update b.argv b.appendArgvPtr (some buf.top),
                  appendArgvPtr := b.appendArgvPtr + 1 }
        { buf with top := buf.top + s.stored.length } (by simp only; omega) (by simp only; omega)
    simp only at hrest hlaid harea hargv
    refine ⟨area', argv', ?_, ⟨?_, ?_, hlaid⟩, ?_, ?_⟩
    · rw [storeArgs, hstore]
      simp only [hrest, List.length_cons, size_cons, Nat.add_assoc, Nat.add_comm 1]
    · rw [hargv b.appendArgvPtr (by omega), Function.update_self]
    · exact hholds.frame harea (Or.inl le_rfl)
    · rw [size_cons]
      apply SameOutside.trans (hsame.mono le_rfl (by omega))
      exact harea.mono (by omega) (by omega)
    · rw [List.length_cons]
      apply SameOutside.trans (sameOutside_update b.argv _ le_rfl (by omega))
      exact hargv.mono (by omega) (by omega)

lemma storeArgs_cons {b b' : CmdBuilder} {buf buf' : Buffer} {s : CString} {strs : List CString}
    (h : storeArgs p b buf (s :: strs) = (b', buf', true)) :
    ∃ b₁ buf₁, storeArg p b buf (some s) = (b₁, buf₁, some buf.top) ∧ storeArgs p b₁ buf₁ strs =
      (b', buf', true) := by
  rw [storeArgs] at h
  cases hs : storeArg p b buf (some s) with
  | mk b₁ rest =>
    obtain ⟨buf₁, stored⟩ := rest
    rw [hs] at h
    cases stored with
    | none => simp at h
    | some o =>
      have ho : o = buf.top := by
        simp only [storeArg, Buffer.store] at hs
        split_ifs at hs
        · simp at hs
        · cases hc : copy s.stored b.area buf.top buf.end_ with
          | mk area top => cases top <;> simp_all
      subst ho
      exact ⟨b₁, buf₁, rfl, h⟩

lemma storeArgs_overflows (b : CmdBuilder) (buf : Buffer) (strs : List CString)
    (hle : buf.top ≤ buf.end_)
    (h : ¬ (b.appendArgvPtr + strs.length ≤ p.maxArgc - 1 ∧ buf.top + size strs ≤ buf.end_))
    (hslot : b.appendArgvPtr ≤ p.maxArgc - 1) :
    ∃ area argv slot buf', storeArgs p b buf strs =
        ({ b with area, argv, appendArgvPtr := slot }, buf', false) ∧
      SameOutside buf.top buf.end_ b.area area ∧
        SameOutside b.appendArgvPtr p.maxArgc b.argv argv := by
  induction strs generalizing b buf with
  | nil => exact absurd ⟨hslot, hle⟩ h
  | cons s strs ih =>
    rw [List.length_cons, size_cons] at h
    by_cases hfits : b.appendArgvPtr < p.maxArgc - 1 ∧ buf.top + s.stored.length ≤ buf.end_
    · obtain ⟨area, hstore, -, hsame⟩ := storeArg_fits p b buf s hfits.1 hfits.2
      obtain ⟨area', argv', slot', buf', hrest, harea, hargv⟩ :=
        ih { b with area, argv := Function.update b.argv b.appendArgvPtr (some buf.top),
                    appendArgvPtr := b.appendArgvPtr + 1 }
          { buf with top := buf.top + s.stored.length } hfits.2 (by simp only; omega)
            (by simp only; omega)
      simp only at hrest harea hargv
      refine ⟨area', argv', slot', buf', ?_, ?_, ?_⟩
      · rw [storeArgs, hstore]
        exact hrest
      · apply SameOutside.trans (hsame.mono le_rfl hfits.2)
        exact harea.mono (by omega) le_rfl
      · apply SameOutside.trans (sameOutside_update b.argv _ le_rfl (by omega))
        exact hargv.mono (by omega) le_rfl
    · obtain ⟨area, hstore, hsame⟩ := storeArg_overflows p b buf s hle hfits
      refine ⟨area, b.argv, b.appendArgvPtr, buf, ?_, hsame, SameOutside.refl _ _ _⟩
      rw [storeArgs, hstore]

end CmdBuilder

end Catter.Hook
