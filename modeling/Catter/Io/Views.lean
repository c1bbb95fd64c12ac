import Catter.Io.Operations
import Catter.Library.Patch

/-! Views of a buffer on their way to a file and back. -/

namespace Catter.Io

open Library.Patch

-- `write` where the write position is put, and `readBuf` from there. The views may share one
-- buffer.
def writeThenRead (fd : ℤ) (pos : ℕ) (data into : Uint8Array) : Js (ℕ × Uint8Array) := do
  FileStream.seekWrite fd pos 0
  FileStream.write fd data
  FileStream.seekRead fd pos 0
  FileStream.readBuf fd into

def ViewsHonoured (fs : Files) (fd : ℤ) (s : FStream) (pos : ℕ) (data into : Uint8Array) : Prop :=
  ∃ n into' fs' t, writeThenRead fd pos data into fs = .ok ((n, into'), fs') ∧
    fs'.openFiles (key fd) = some t ∧ t.content = written s.content pos data.octets ∧
    n = ((t.content.drop pos).take into.length).length ∧
    into'.buffer = patch into.buffer into.byteOffset ((t.content.drop pos).take n)

lemma overlay_eq_patch {buffer : ArrayBuffer} {octets : Octets}
    (h : octets.length ≤ buffer.length) :
    overlay buffer octets = patch buffer 0 octets := by
  rw [overlay, patch, List.take_zero, List.nil_append, Nat.zero_add]
  apply List.take_of_length_le
  rw [List.length_append, List.length_drop]
  omega

lemma written_inj {content : Octets} {pos : ℕ} {octets octets' : Octets}
    (hlength : octets.length = octets'.length)
    (h : written content pos octets = written content pos octets') : octets = octets' := by
  have htake := written_take content pos octets
  rw [h, hlength, written_take] at htake
  exact htake.symm

namespace Uint8Array

-- The bytes that the call reaches: as many as the view has, from the front of its buffer.
def front (a : Uint8Array) : Octets := a.buffer.take a.length

@[simp] lemma front_length (a : Uint8Array) : a.front.length = a.length := by
  have := a.inside
  rw [front, List.length_take]
  omega

lemma front_eq_octets {a : Uint8Array} (h : a.byteOffset = 0 ∨ a.length = 0) :
    a.front = a.octets := by
  rw [front, octets]
  obtain h | h := h
  · rw [h, List.drop_zero]
  · rw [h, List.take_zero, List.take_zero]

end Uint8Array

section Open

variable {fs : Files} {fd : ℤ} {s : FStream} (hs : fs.openFiles (key fd) = some s)

include hs

lemma seek_run (pos : ℕ) :
    fileSeek fd pos 0 fs = .ok ((), fs.put fd ⟨s.content, pos, false, false⟩) := by
  have hseek : s.clear.seek pos .beg = ⟨s.content, pos, false, false⟩ := by
    simp [FStream.seek, FStream.base, FStream.clear]
  rw [fileSeek_run hs pos 0 rfl, hseek]

lemma readBuf_good_run (hgood : s.good = true) (into : Uint8Array) :
    ∃ into' fs' t, FileStream.readBuf fd into fs =
      .ok (((s.rest.take into.length).length, into'), fs') ∧
      fs'.openFiles (key fd) = some t ∧ t.content = s.content ∧
      into'.buffer = overlay into.buffer (s.rest.take into.length) := by
  have htaken : (s.read into.length).1 = s.rest.take into.length := by
    rw [FStream.read_of_good hgood]
  have hcontent : (s.read into.length).2.content = s.content := by rw [FStream.read_of_good hgood]
  rw [← htaken]
  exact ⟨_, _, _, readBuf_run hs into, put_openFiles _ _ _, hcontent, rfl⟩

lemma writeThenRead_run (pos : ℕ) {data into : Uint8Array} (hlength : into.length = data.length) :
    ∃ into' fs' t, writeThenRead fd pos data into fs = .ok ((data.length, into'), fs') ∧
      fs'.openFiles (key fd) = some t ∧ t.content = written s.content pos data.front ∧
      into'.buffer = overlay into.buffer data.front := by
  have hwrite := write_run (put_openFiles fs fd ⟨s.content, pos, false, false⟩) data
  rw [put_put, FStream.write_of_good rfl] at hwrite
  have hseek := seek_run
    (put_openFiles fs fd ⟨written s.content pos data.front, pos + data.front.length, false, false⟩)
      pos
  rw [put_put] at hseek
  have hrun : writeThenRead fd pos data into fs =
      FileStream.readBuf fd into
        (fs.put fd ⟨written s.content pos data.front, pos, false, false⟩) := by
    rw [writeThenRead, FileStream.seekWrite, fileSeekWrite, bind_ok (seek_run hs pos),
      bind_ok hwrite]
    exact bind_ok hseek
  obtain ⟨into', fs', t, hread, ht, hcontent, hbuffer⟩ :=
    readBuf_good_run (put_openFiles fs fd ⟨written s.content pos data.front, pos, false, false⟩) rfl
      into
  have hback : ((written s.content pos data.front).drop pos).take into.length = data.front := by
    have htake := written_take s.content pos data.front
    rwa [Uint8Array.front_length, ← hlength] at htake
  rw [FStream.rest, hback] at hread hbuffer
  rw [Uint8Array.front_length] at hread
  exact ⟨into', fs', t, hrun.trans hread, ht, hcontent, hbuffer⟩

lemma viewsHonoured_iff (pos : ℕ) {data into : Uint8Array} (hlength : into.length = data.length) :
    ViewsHonoured fs fd s pos data into ↔
      data.front = data.octets ∧ Coincide into.buffer 0 into.byteOffset data.octets := by
  have hinside := into.inside
  obtain ⟨into', fs', t, hrun, ht, hcontent, hbuffer⟩ := writeThenRead_run hs pos hlength
  have hback : (t.content.drop pos).take data.length = data.front := by
    have htake := written_take s.content pos data.front
    rwa [Uint8Array.front_length, ← hcontent] at htake
  rw [overlay_eq_patch (by rw [Uint8Array.front_length]; omega)] at hbuffer
  constructor
  · rintro ⟨n, into'', fs'', t', hrun', ht', hcontent', hn, hbuffer'⟩
    rw [hrun] at hrun'
    cases hrun'
    rw [ht] at ht'
    cases ht'
    have hoctets : data.front = data.octets := by
      apply written_inj _ (hcontent.symm.trans hcontent')
      rw [Uint8Array.front_length, Uint8Array.octets_length]
    refine ⟨hoctets, ?_⟩
    rw [← patch_eq_iff (Nat.zero_le _) (by omega), ← hoctets, ← hbuffer, hbuffer', hback]
  · rintro ⟨hoctets, hcoincide⟩
    refine ⟨_, into', fs', t, hrun, ht, ?_, ?_, ?_⟩
    · rw [hcontent, hoctets]
    · rw [hlength, hback, Uint8Array.front_length]
    · rw [hback, hbuffer, hoctets]
      exact (patch_eq_iff (Nat.zero_le _) (by omega)).mpr hcoincide

end Open

lemma front_views_honoured {fs : Files} {fd : ℤ} {s : FStream} (hs : fs.openFiles (key fd) = some s)
    (pos : ℕ)
    {data into : Uint8Array} (hlength : into.length = data.length)
    (hdata : data.byteOffset = 0 ∨ data.length = 0)
    (hinto : into.byteOffset = 0 ∨ into.length = 0) :
    ViewsHonoured fs fd s pos data into := by
  rw [viewsHonoured_iff hs pos hlength]
  refine ⟨Uint8Array.front_eq_octets hdata, ?_⟩
  obtain hinto | hinto := hinto
  · rw [hinto]
    exact coincide_self _ _ _
  · intro k hk
    rw [Uint8Array.octets_length] at hk
    omega

theorem views_honoured_iff (fs : Files) (fd : ℤ) (s : FStream) (hs : fs.openFiles (key fd) = some s)
    (pos : ℕ)
    (data into : Uint8Array) (hlength : into.length = data.length) :
    ViewsHonoured fs fd s pos data into ↔
      data.front = data.octets ∧ Coincide into.buffer 0 into.byteOffset data.octets :=
  viewsHonoured_iff hs pos hlength

theorem views_honoured_front :
    ViewsHonoured (noFiles.put 1 (.opened [97])) 1 (.opened [97]) 3 ⟨[98, 99], 0, 2, by decide⟩
      ⟨[0, 0, 0], 0, 2, by decide⟩ := by
  apply (views_honoured_iff _ 1 _ (put_openFiles noFiles 1 (.opened [97])) 3
    ⟨[98, 99], 0, 2, by decide⟩
    ⟨[0, 0, 0], 0, 2, by decide⟩ rfl).mpr
  decide

theorem offset_lost :
    ¬∀ (fs : Files) (fd : ℤ) (s : FStream), fs.openFiles (key fd) = some s →
      ∀ (pos : ℕ) (data into : Uint8Array),
      into.length = data.length → ViewsHonoured fs fd s pos data into := by
  intro h
  obtain ⟨n, into', fs', t, hrun, ht, hcontent, -⟩ :=
    h (noFiles.put 1 (.opened [])) 1 (.opened []) (put_openFiles _ _ _) 0
      ⟨[98, 99], 1, 1, by decide⟩
      ⟨[0], 0, 1, by decide⟩ rfl
  cases hrun
  cases ht
  exact absurd hcontent (by decide)

end Catter.Io
