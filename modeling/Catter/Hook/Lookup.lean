import Catter.Hook.Session

/-! The search for an environment variable, read by read, and the session in a buffer of any
size. -/

namespace Catter.Hook

open Text Library.Region

/-! Every read of a string stays at or before its terminator; there is no result where one does
not. -/

namespace Bounded

def length : Str → Option ℕ
  | [] => none
  | c :: cs => if c = 0 then some 0 else (length cs).map (· + 1)

def equalN : Str → Str → ℕ → Option Bool
  | _, _, 0 => some true
  | l :: lhs, r :: rhs, n + 1 => if l ≠ r then some false else equalN lhs rhs n
  | _, _, _ + 1 => none

def search (key : CString) (keySize : ℕ) : List CString → Option (Option CString)
  | [] => some none
  | current :: envp =>
    match equalN key.stored current.stored keySize with
    | none => none
    | some false => search key keySize envp
    | some true =>
      match current.stored[keySize]? with
      | none => none
      | some c => if c ≠ 61 then search key keySize envp else some (some current)

def getEnvEntry (envp : List CString) (key : CString) : Option (Option CString) := do
  let keySize ← length key.stored
  search key keySize envp

def getEnvValue (envp : List CString) (key : CString) : Option (Option CString) := do
  let keySize ← length key.stored
  let found ← search key keySize envp
  return found.map fun current => current.drop (keySize + 1)

lemma length_stored (s : CString) : length s.stored = some s.bytes.length := by
  obtain ⟨bytes, hnul⟩ := s
  change length (bytes ++ [0]) = some bytes.length
  induction bytes with
  | nil => rfl
  | cons c cs ih =>
    rw [List.mem_cons, not_or] at hnul
    rw [List.cons_append, length, if_neg (Ne.symm hnul.1), ih hnul.2]
    rfl

lemma equalN_stored (key current : CString) :
    equalN key.stored current.stored key.bytes.length =
      some (key.bytes.isPrefixOf current.bytes) := by
  obtain ⟨bytes, hnul⟩ := key
  obtain ⟨text, htext⟩ := current
  change equalN (bytes ++ [0]) (text ++ [0]) bytes.length = some (bytes.isPrefixOf text)
  clear htext
  induction bytes generalizing text with
  | nil => cases text <;> rfl
  | cons c cs ih =>
    rw [List.mem_cons, not_or] at hnul
    cases text with
    | nil =>
      rw [List.cons_append, List.nil_append, List.length_cons, equalN, if_pos (Ne.symm hnul.1)]
      rfl
    | cons d ds =>
      rw [List.cons_append, List.cons_append, List.length_cons, equalN, ih hnul.2]
      by_cases h : c = d
      · simp [h, List.isPrefixOf]
      · simp [h, List.isPrefixOf]

lemma search_eq (key : CString) (envp : List CString) :
    search key key.bytes.length envp = some (Hook.getEnvEntry envp key) := by
  induction envp with
  | nil => rfl
  | cons current envp ih =>
    rw [search, equalN_stored, Hook.getEnvEntry, List.find?_cons, isEntryOf]
    cases hprefix : key.bytes.isPrefixOf current.bytes with
    | false => exact ih
    | true =>
      have hle : key.bytes.length ≤ current.bytes.length :=
        (List.isPrefixOf_iff_prefix.mp hprefix).length_le
      simp only [CString.stored, Bool.true_and]
      rcases hle.eq_or_lt with heq | hlt
      · have hnull : (current.bytes ++ [0])[key.bytes.length]? = some 0 := by
          rw [heq, List.getElem?_concat_length]
        have hnone : current.bytes[key.bytes.length]? = none := List.getElem?_eq_none heq.ge
        rw [hnull, hnone]
        exact ih
      · rw [List.getElem?_append_left hlt, List.getElem?_eq_getElem hlt]
        by_cases hequal : current.bytes[key.bytes.length] = 61
        · simp [hequal]
        · have hbeq : (current.bytes[key.bytes.length] == 61) = false :=
            beq_eq_false_iff_ne.mpr hequal
          simp only [Option.some_beq_some, hbeq, hequal, ne_eq, not_false_eq_true, if_true]
          exact ih

lemma getEnvEntry_eq (envp : List CString) (key : CString) :
    getEnvEntry envp key = some (Hook.getEnvEntry envp key) := by
  rw [getEnvEntry, length_stored]
  exact search_eq key envp

lemma getEnvValue_eq (envp : List CString) (key : CString) :
    getEnvValue envp key = some (Hook.getEnvValue envp key) := by
  rw [getEnvValue, length_stored]
  simp only [Option.bind_eq_bind, Option.bind_some, search_eq]
  rfl

end Bounded

inductive FirstEntry (envp : List CString) (key : CString) : Option (CString × CString) → Prop
  | found {before after : List CString} {current value : CString}
      (henvp : envp = before ++ current :: after)
      (hcurrent : current.bytes = entry key.bytes value.bytes)
      (hbefore : ∀ other ∈ before, ∀ value, other.bytes ≠ entry key.bytes value) :
      FirstEntry envp key (some (current, value))
  | missing (hnone : ∀ other ∈ envp, ∀ value, other.bytes ≠ entry key.bytes value) :
    FirstEntry envp key none

lemma not_isEntryOf {key other : CString} (h : isEntryOf key other = false) (value : Str) :
    other.bytes ≠ entry key.bytes value := by
  intro hentry
  rw [isEntryOf_iff.mpr ⟨value, hentry⟩] at h
  exact absurd h.symm Bool.false_ne_true

lemma firstEntry (envp : List CString) (key : CString) :
    ∃ found, FirstEntry envp key found ∧ getEnvEntry envp key = found.map Prod.fst ∧
      getEnvValue envp key = found.map Prod.snd := by
  rw [getEnvValue]
  cases hfound : getEnvEntry envp key with
  | none =>
    refine ⟨none, FirstEntry.missing ?_, rfl, rfl⟩
    intro other hmem
    apply not_isEntryOf
    rw [← Bool.not_eq_true]
    exact List.find?_eq_none.mp hfound other hmem
  | some current =>
    obtain ⟨hcurrent, before, after, henvp, hbefore⟩ := List.find?_eq_some_iff_append.mp hfound
    obtain ⟨value, hvalue⟩ := isEntryOf_iff.mp hcurrent
    have hdrop : (current.drop (key.bytes.length + 1)).bytes = value := drop_entry hvalue
    refine ⟨some (current, current.drop (key.bytes.length + 1)), FirstEntry.found henvp ?_ ?_,
      rfl, rfl⟩
    · rw [hdrop, hvalue]
    · intro other hmem
      apply not_isEntryOf
      simpa using hbefore other hmem

/-! Persisting the session. -/

-- A session points into the environment, or into its buffer once it is persisted.
inductive TextPtr
  | environment (text : CString)
  | buffer (addr : ℕ)

def TextPtr.Reads (mem : Memory) (text : CString) : TextPtr → Prop
  | environment held => held = text
  | buffer addr => Holds mem addr text.stored

structure Pointers where
  proxyPath : Option TextPtr
  selfId : Option TextPtr
  necessaryEnvpEntry : Option TextPtr × Option TextPtr

def Pointers.isValid (s : Pointers) : Bool := s.proxyPath.isSome && s.selfId.isSome

namespace Session

def pointers (s : Session) : Pointers where
  proxyPath := s.proxyPath.map .environment
  selfId := s.selfId.map .environment
  necessaryEnvpEntry :=
    (s.necessaryEnvpEntry.1.map .environment, s.necessaryEnvpEntry.2.map .environment)

def storePtr (buf : Buffer) (mem : Memory) (text : Option CString) :
    Memory × Buffer × Option TextPtr :=
  let (mem, buf, stored) := buf.store text mem
  (mem, buf, stored.map .buffer)

def persistInto (size : ℕ) (s : Session) (mem : Memory) : Pointers × Memory :=
  if s.isValid then
    let (mem, buf, proxyPath) := storePtr ⟨0, size⟩ mem s.proxyPath
    let (mem, buf, selfId) := storePtr buf mem s.selfId
    let (mem, buf, pathEntry) := storePtr buf mem s.necessaryEnvpEntry.1
    let (mem, _, idEntry) := storePtr buf mem s.necessaryEnvpEntry.2
    ({ proxyPath, selfId, necessaryEnvpEntry := (pathEntry, idEntry) }, mem)
  else (s.pointers, mem)

lemma storePtr_none (buf : Buffer) (mem : Memory) (text : CString) (hle : buf.top ≤ buf.end_)
    (h : buf.end_ < buf.top + text.stored.length) :
    ∃ mem', storePtr buf mem (some text) = (mem', buf, none) ∧
      SameOutside buf.top buf.end_ mem mem' := by
  obtain ⟨mem', hstore, hsame⟩ := Buffer.store_overflows text mem hle h
  refine ⟨mem', ?_, hsame⟩
  rw [storePtr, hstore]
  rfl

lemma storePtr_some (buf : Buffer) (mem : Memory) (text : CString)
    (h : buf.top + text.stored.length ≤ buf.end_) :
    ∃ mem', storePtr buf mem (some text) =
        (mem', { buf with top := buf.top + text.stored.length }, some (.buffer buf.top)) ∧
      Holds mem' buf.top text.stored ∧
        SameOutside buf.top (buf.top + text.stored.length) mem mem' := by
  obtain ⟨mem', hstore, hholds, hsame⟩ := Buffer.store_fits text mem h
  refine ⟨mem', ?_, hholds, hsame⟩
  rw [storePtr, hstore]
  rfl

lemma storePtr_frame (buf : Buffer) (mem : Memory) (text : Option CString)
    (hle : buf.top ≤ buf.end_) :
    ∃ mem' top stored, storePtr buf mem text = (mem', { buf with top }, stored) ∧ buf.top ≤ top ∧
      top ≤ buf.end_ ∧
      SameOutside buf.top buf.end_ mem mem' := by
  cases text with
  | none => exact ⟨mem, buf.top, none, rfl, le_rfl, hle, SameOutside.refl _ _ _⟩
  | some text =>
    by_cases hroom : buf.top + text.stored.length ≤ buf.end_
    · obtain ⟨mem', hstore, -, hsame⟩ := storePtr_some buf mem text hroom
      exact ⟨mem', _, _, hstore, Nat.le_add_right _ _, hroom, hsame.mono le_rfl hroom⟩
    · obtain ⟨mem', hstore, hsame⟩ := storePtr_none buf mem text hle (by omega)
      exact ⟨mem', buf.top, none, hstore, le_rfl, hle, hsame⟩

lemma persistInto_entries (size : ℕ) {s : Session} (hvalid : s.isValid = true)
    {mem mem₁ mem₂ : Memory}
    {buf₁ : Buffer} {top : ℕ} {proxyPath selfId : Option TextPtr}
    (hfirst : storePtr ⟨0, size⟩ mem s.proxyPath = (mem₁, buf₁, proxyPath))
    (hsecond : storePtr buf₁ mem₁ s.selfId = (mem₂, ⟨top, size⟩, selfId)) (hle : top ≤ size) :
    ∃ entries mem', s.persistInto size mem = (⟨proxyPath, selfId, entries⟩, mem') ∧
      SameOutside top size mem₂ mem' := by
  obtain ⟨mem₃, top₃, stored₃, hthird, hlow, hhigh, hsame⟩ :=
    storePtr_frame ⟨top, size⟩ mem₂ s.necessaryEnvpEntry.1 hle
  obtain ⟨mem₄, top₄, stored₄, hfourth, -, -, hsame'⟩ :=
    storePtr_frame ⟨top₃, size⟩ mem₃ s.necessaryEnvpEntry.2 hhigh
  refine ⟨(stored₃, stored₄), mem₄, ?_, hsame.trans (hsame'.mono hlow le_rfl)⟩
  rw [persistInto, if_pos hvalid]
  simp only [hfirst, hsecond, hthird, hfourth]

lemma persistInto_reads (size : ℕ) {s : Session} {proxy selfId : CString}
    (hproxy : s.proxyPath = some proxy)
    (hself : s.selfId = some selfId) (mem : Memory) :
    ∃ loaded mem', s.persistInto size mem = (loaded, mem') ∧ SameOutside 0 size mem mem' ∧
      (proxy.stored.length + selfId.stored.length ≤ size ∧ loaded.proxyPath = some (.buffer 0) ∧
          loaded.selfId = some (.buffer proxy.stored.length) ∧ Holds mem' 0 proxy.stored ∧
          Holds mem' proxy.stored.length selfId.stored ∨
        size < proxy.stored.length + selfId.stored.length ∧ loaded.isValid = false) := by
  have hvalid : s.isValid = true := by rw [isValid, hproxy, hself]; rfl
  by_cases hroom : proxy.stored.length ≤ size
  · obtain ⟨mem₁, hfirst, hholds₁, hsame₁⟩ :=
      storePtr_some ⟨0, size⟩ mem proxy (by simpa using hroom)
    simp only [Nat.zero_add] at hfirst hholds₁ hsame₁
    rw [← hproxy] at hfirst
    by_cases hroom' : proxy.stored.length + selfId.stored.length ≤ size
    · obtain ⟨mem₂, hsecond, hholds₂, hsame₂⟩ :=
        storePtr_some ⟨proxy.stored.length, size⟩ mem₁ selfId hroom'
      simp only at hholds₂ hsame₂
      rw [← hself] at hsecond
      obtain ⟨entries, mem', hpersist, hsame⟩ :=
        persistInto_entries size hvalid hfirst hsecond hroom'
      simp only at hsame
      refine ⟨_, mem', hpersist, ?_, Or.inl ⟨hroom', rfl, rfl, ?_, ?_⟩⟩
      · apply (hsame₁.mono le_rfl hroom).trans
        apply (hsame₂.mono (Nat.zero_le _) hroom').trans
        exact hsame.mono (Nat.zero_le _) le_rfl
      · have hkept := hholds₁.frame hsame₂ (Or.inl (by omega))
        exact hkept.frame hsame (Or.inl (by omega))
      · exact hholds₂.frame hsame (Or.inl le_rfl)
    · obtain ⟨mem₂, hsecond, hsame₂⟩ :=
        storePtr_none ⟨proxy.stored.length, size⟩ mem₁ selfId hroom (by simp only; omega)
      simp only at hsame₂
      rw [← hself] at hsecond
      obtain ⟨entries, mem', hpersist, hsame⟩ :=
        persistInto_entries size hvalid hfirst hsecond hroom
      refine ⟨_, mem', hpersist, ?_, Or.inr ⟨by omega, rfl⟩⟩
      apply (hsame₁.mono le_rfl hroom).trans
      apply (hsame₂.mono (Nat.zero_le _) le_rfl).trans
      exact hsame.mono (Nat.zero_le _) le_rfl
  · obtain ⟨mem₁, hfirst, hsame₁⟩ :=
      storePtr_none ⟨0, size⟩ mem proxy (Nat.zero_le _) (by simp only; omega)
    rw [← hproxy] at hfirst
    obtain ⟨mem₂, top, stored, hsecond, hlow, hhigh, hsame₂⟩ :=
      storePtr_frame ⟨0, size⟩ mem₁ s.selfId (Nat.zero_le _)
    obtain ⟨entries, mem', hpersist, hsame⟩ := persistInto_entries size hvalid hfirst hsecond hhigh
    refine ⟨_, mem', hpersist, ?_, Or.inr ⟨by omega, rfl⟩⟩
    exact (hsame₁.trans hsame₂).trans (hsame.mono (Nat.zero_le _) le_rfl)

lemma fromEnv_texts (environment : List CString) :
    (fromEnv environment).proxyPath = getEnvValue environment keyProxyPath ∧
      (fromEnv environment).selfId = getEnvValue environment keyCommandId := by
  simp only [fromEnv]
  split_ifs
  · exact ⟨rfl, rfl⟩
  · exact ⟨rfl, rfl⟩

lemma pointers_isValid (s : Session) : s.pointers.isValid = s.isValid := by
  simp [pointers, Pointers.isValid, isValid]

-- The library's own buffer has room for two paths.
lemma persist_isValid (p : Platform) (s : Session) (mem : Memory) :
    (s.persist p mem).isValid = (s.persistInto (p.pathMax * 2) mem).1.isValid := by
  cases hvalid : s.isValid with
  | false =>
    rw [persist, persistInto, hvalid, if_neg Bool.false_ne_true, if_neg Bool.false_ne_true,
      pointers_isValid]
  | true =>
    have hsome := hvalid
    rw [isValid, Bool.and_eq_true, Option.isSome_iff_exists, Option.isSome_iff_exists] at hsome
    obtain ⟨⟨proxy, hproxy⟩, selfId, hself⟩ := hsome
    rw [persist, persistInto, hvalid, if_pos rfl, if_pos rfl]
    simp only [hproxy, hself, storeText, storePtr]
    generalize Buffer.store ⟨0, p.pathMax * 2⟩ (some proxy) mem = first
    obtain ⟨mem₁, buf₁, stored₁⟩ := first
    simp only
    generalize Buffer.store buf₁ (some selfId) mem₁ = second
    obtain ⟨mem₂, buf₂, stored₂⟩ := second
    cases stored₁ <;> cases stored₂ <;> rfl

end Session

structure Captures (environment : List CString) (size : ℕ) (loaded : Pointers) (mem : Memory) :
    Prop where
  valid_iff : loaded.isValid = true ↔ ∃ proxy selfId, getEnvValue environment keyProxyPath =
    some proxy ∧
    getEnvValue environment keyCommandId = some selfId ∧
      proxy.bytes.length + selfId.bytes.length + 2 ≤ size
  reads : loaded.isValid = true → ∃ proxy selfId a b, getEnvValue environment keyProxyPath =
    some proxy ∧
    getEnvValue environment keyCommandId = some selfId ∧ loaded.proxyPath = some (.buffer a) ∧
    loaded.selfId = some (.buffer b) ∧ Holds mem a proxy.stored ∧ Holds mem b selfId.stored

lemma captures (environment : List CString) (size : ℕ) (mem : Memory) :
    ∃ loaded mem', (Session.fromEnv environment).persistInto size mem = (loaded, mem') ∧
      SameOutside 0 size mem mem' ∧
      Captures environment size loaded mem' := by
  obtain ⟨hproxy, hself⟩ := Session.fromEnv_texts environment
  cases hvalid : (Session.fromEnv environment).isValid with
  | false =>
    have hpersist : (Session.fromEnv environment).persistInto size mem =
        ((Session.fromEnv environment).pointers, mem) := by
      rw [Session.persistInto, hvalid, if_neg Bool.false_ne_true]
    refine ⟨_, mem, hpersist, SameOutside.refl _ _ _, ?_⟩
    constructor
    · rw [Session.pointers_isValid, hvalid]
      apply iff_of_false Bool.false_ne_true
      rintro ⟨proxy, selfId, hproxy', hself', -⟩
      rw [Session.isValid, hproxy, hself, hproxy', hself'] at hvalid
      exact Bool.false_ne_true hvalid.symm
    · intro hpointers
      rw [Session.pointers_isValid, hvalid] at hpointers
      exact absurd hpointers Bool.false_ne_true
  | true =>
    rw [Session.isValid, Bool.and_eq_true, Option.isSome_iff_exists, Option.isSome_iff_exists]
      at hvalid
    obtain ⟨⟨proxy, hpath⟩, selfId, hid⟩ := hvalid
    have hsizes : proxy.stored.length + selfId.stored.length =
        proxy.bytes.length + selfId.bytes.length + 2 := by
      simp only [CString.stored, List.length_append, List.length_singleton]
      omega
    obtain ⟨loaded, mem', hpersist, hsame, hloaded⟩ := Session.persistInto_reads size hpath hid mem
    rw [hpath] at hproxy
    rw [hid] at hself
    refine ⟨loaded, mem', hpersist, hsame, ?_⟩
    rcases hloaded with ⟨hroom, hbuffer, hbuffer', hholds, hholds'⟩ | ⟨hfull, hinvalid⟩
    · have hloaded : loaded.isValid = true := by rw [Pointers.isValid, hbuffer, hbuffer']; rfl
      constructor
      · exact iff_of_true hloaded ⟨proxy, selfId, hproxy.symm, hself.symm, by omega⟩
      · exact fun _ => ⟨proxy, selfId, _, _, hproxy.symm, hself.symm, hbuffer, hbuffer',
          hholds, hholds'⟩
    · constructor
      · rw [hinvalid]
        apply iff_of_false Bool.false_ne_true
        rintro ⟨proxy', selfId', hproxy', hself', hfits⟩
        rw [← hproxy, Option.some.injEq] at hproxy'
        rw [← hself, Option.some.injEq] at hself'
        subst hproxy' hself'
        omega
      · intro hloaded
        rw [hinvalid] at hloaded
        exact absurd hloaded Bool.false_ne_true

theorem lookup_and_capture_exact (environment : List CString) (key : CString) (size : ℕ)
    (mem : Memory) :
    (∃ found, FirstEntry environment key found ∧ Bounded.getEnvEntry environment key =
      some (found.map Prod.fst) ∧
        Bounded.getEnvValue environment key = some (found.map Prod.snd)) ∧
      ∃ loaded mem', (Session.fromEnv environment).persistInto size mem = (loaded, mem') ∧
        SameOutside 0 size mem mem' ∧ Captures environment size loaded mem' := by
  obtain ⟨found, hfirst, hentry, hvalue⟩ := firstEntry environment key
  refine ⟨⟨found, hfirst, ?_, ?_⟩, captures environment size mem⟩
  · rw [Bounded.getEnvEntry_eq, hentry]
  · rw [Bounded.getEnvValue_eq, hvalue]

end Catter.Hook
