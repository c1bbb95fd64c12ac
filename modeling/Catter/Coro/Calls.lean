import Catter.Coro.Lazy
import Catter.Library.Interaction

/-! Coroutines of `coro::Lazy` that await each other. A coroutine starts when it is called, on top
of its caller; one that is suspended leaves its frame on the heap, and one that ends resumes the one
that awaits it. -/

namespace Catter.Coro

open Library

variable {O A X R : Type}

/-- The rest of the body of a coroutine: `operation` awaits libuv, `call` awaits a coroutine that is
called there. -/
inductive Body (O A X R : Type)
  | coReturn (value : R)
  | throw (x : X)
  | operation (o : O) (k : Except X A → Body O A X R)
  | call (callee : Body O A X R) (k : Except X R → Body O A X R)

inductive Place (O A X R : Type)
  | running
  | operation (k : Except X A → Body O A X R)
  | call (callee : ℕ) (k : Except X R → Body O A X R)
  | final
  | destroyed

-- `none` is `std::noop_coroutine()`.
structure Frame (O A X R : Type) where
  place : Place O A X R
  promise : Promise R X
  previous : Option ℕ

-- `asked` are the operations that were started; `waiting` is the handle in the awaiter of the
-- outstanding one.
structure Heap (O A X R : Type) where
  frames : ℕ → Frame O A X R
  next : ℕ
  asked : List O
  waiting : Option ℕ

inductive Fault
  | notDone
  | notSuspended
  | outOfFuel
deriving DecidableEq

namespace Heap

variable (m : Heap O A X R)

def set (id : ℕ) (frame : Frame O A X R) : Heap O A X R :=
  { m with frames := Function.update m.frames id frame }

def fresh [Inhabited R] : Frame O A X R := ⟨.running, ⟨default, none⟩, none⟩

def create [Inhabited R] : Heap O A X R := { m.set m.next fresh with next := m.next + 1 }

/-- `final_suspend`. -/
def finish (self : ℕ) (promise : Promise R X) : Heap O A X R :=
  m.set self { m.frames self with place := .final, promise := promise }

def start (self : ℕ) (o : O) (k : Except X A → Body O A X R) : Heap O A X R :=
  { m.set self { m.frames self with place := .operation k } with
    asked := m.asked ++ [o]
    waiting := some self }

def done (id : ℕ) : Bool :=
  match (m.frames id).place with
  | .final => true
  | _ => false

/-- `set_previous`, and the suspension of the caller. -/
def await (self callee : ℕ) (k : Except X R → Body O A X R) : Heap O A X R :=
  (m.set callee { m.frames callee with previous := some self }).set self
    { m.frames self with place := .call callee k }

def destroy (id : ℕ) : Heap O A X R := m.set id { m.frames id with place := .destroyed }

/-- `await_resume`, and then the destructor of the coroutine, which asserts that it is done. -/
def take (callee : ℕ) : Except Fault (Except X R × Heap O A X R) :=
  if m.done callee then .ok ((m.frames callee).promise.awaitResume, m.destroy callee)
    else .error .notDone

end Heap

section Machine

variable [Inhabited R] (refused : O → Option X)

-- An operation that cannot be started throws in `await_ready`.
def run : Body O A X R → ℕ → Heap O A X R → Except Fault (Heap O A X R)
  | .coReturn value, self, m => .ok (m.finish self { (m.frames self).promise with result := value })
  | .throw x, self, m => .ok (m.finish self { (m.frames self).promise with exception := some x })
  | .operation o k, self, m =>
    match refused o with
    | some x => run (k (.error x)) self m
    | none => .ok (m.start self o k)
  | .call callee k, self, m =>
    match run callee m.next m.create with
    | .error e => .error e
    | .ok m' =>
      if m'.done m.next then
        match m'.take m.next with
        | .error e => .error e
        | .ok (outcome, m'') => run (k outcome) self m''
      else .ok (m'.await self m.next k)

-- The symmetric transfer at the end of a coroutine, and at the ends of those that it resumes.
def continues : ℕ → ℕ → Heap O A X R → Except Fault (Heap O A X R)
  | 0, _, _ => .error .outOfFuel
  | fuel + 1, self, m =>
    if m.done self then
      match (m.frames self).previous with
      | none => .ok m
      | some caller =>
        match (m.frames caller).place with
        | .call callee k =>
          match m.take callee with
          | .error e => .error e
          | .ok (outcome, m') =>
            match run refused (k outcome) caller m' with
            | .error e => .error e
            | .ok m'' => continues fuel caller m''
        | _ => .error .notSuspended
    else .ok m

/-- The callback of the outstanding operation resumes the coroutine that awaits it. -/
def answer (a : A) (m : Heap O A X R) : Except Fault (Heap O A X R) :=
  match m.waiting with
  | none => .error .notSuspended
  | some self =>
    match (m.frames self).place with
    | .operation k =>
      match run refused (k (.ok a)) self { m with waiting := none } with
      | .error e => .error e
      | .ok m' => continues refused (self + 1) self m'
    | _ => .error .notSuspended

def answers : List A → Heap O A X R → Except Fault (Heap O A X R)
  | [], m => .ok m
  | a :: as, m =>
    if m.done 0 then .ok m
    else match answer refused a m with
      | .error e => .error e
      | .ok m' => answers as m'

def Heap.empty : Heap O A X R := ⟨fun _ => Heap.fresh, 0, [], none⟩

/-- `uv::wait`, as far as these events get. -/
def wait (body : Body O A X R) (as : List A) : Except Fault (Option (Except X R) × Heap O A X R) :=
  match run refused body 0 Heap.empty.create with
  | .error e => .error e
  | .ok m =>
    match answers refused as m with
    | .error e => .error e
    | .ok m' =>
      if m'.done 0 then
        match m'.take 0 with
        | .error e => .error e
        | .ok (outcome, m'') => .ok (some outcome, m'')
      else .ok (none, m')

end Machine

/-- The same body as a program that calls functions. -/
def direct (refused : O → Option X) : Body O A X R → Interaction O A (Except X R)
  | .coReturn value => .done (.ok value)
  | .throw x => .done (.error x)
  | .operation o k =>
    match refused o with
    | some x => direct refused (k (.error x))
    | none => .ask o fun a => direct refused (k (.ok a))
  | .call callee k => (direct refused callee).bind fun outcome => direct refused (k outcome)

/-! The coroutines above a suspended one are suspended in the calls that wait for it. -/

variable (refused : O → Option X)

/-- `self` is awaited by the first of `callers`, that one by the second, up to `top`; `K` is what
they go on with. -/
inductive Awaited (m : Heap O A X R) (top : ℕ) :
    ℕ → List ℕ → (Except X R → Interaction O A (Except X R)) → Prop
  | here {K : Except X R → Interaction O A (Except X R)}
      (hK : ∀ outcome, K outcome = .done outcome) :
    Awaited m top top [] K
  | up {self caller : ℕ} {callers : List ℕ} {k : Except X R → Body O A X R}
    {K K' : Except X R → Interaction O A (Except X R)}
    (hprevious : (m.frames self).previous = some caller)
    (hplace : (m.frames caller).place = .call self k)
    (hclean : (m.frames caller).promise.exception = none)
    (hlt : caller < self) (h : Awaited m top caller callers K')
    (hK : ∀ outcome, K outcome = (direct refused (k outcome)).bind K') :
    Awaited m top self (caller :: callers) K

/-- The coroutine `top` and those from `base` on, which it has called, stand where the rest of the
program does. -/
inductive Stands (m : Heap O A X R) (base top : ℕ) : Interaction O A (Except X R) → Prop
  | ended {outcome : Except X R} (hdone : (m.frames top).place = .final)
    (houtcome : (m.frames top).promise.awaitResume = outcome) (hwaiting : m.waiting = none)
    (hgone : ∀ j, base ≤ j → j < m.next → (m.frames j).place = .destroyed) :
    Stands m base top (.done outcome)
  | suspended {self : ℕ} {callers : List ℕ} {o : O} {k : Except X A → Body O A X R}
    {rest : A → Interaction O A (Except X R)} {K : Except X R → Interaction O A (Except X R)}
    (hwaiting : m.waiting = some self) (hplace : (m.frames self).place = .operation k)
    (hclean : (m.frames self).promise.exception = none)
    (hawaited : Awaited refused m top self callers K)
    (hmembers : ∀ j ∈ self :: callers, j = top ∨ (base ≤ j ∧ j < m.next))
    (hgone : ∀ j, base ≤ j → j < m.next → j ∈ self :: callers ∨ (m.frames j).place = .destroyed)
    (hrest : ∀ a, rest a = (direct refused (k (.ok a))).bind K) : Stands m base top (.ask o rest)

structure Kept (m m' : Heap O A X R) (ran : ℕ) : Prop where
  next : m.next ≤ m'.next
  others : ∀ j, j < m.next → j ≠ ran → m'.frames j = m.frames j
  previous : (m'.frames ran).previous = (m.frames ran).previous

section Heap

variable (m : Heap O A X R)

@[simp] lemma set_same (id : ℕ) (frame : Frame O A X R) : (m.set id frame).frames id = frame := by
  simp [Heap.set]

lemma set_other {id j : ℕ} (hj : j ≠ id) (frame : Frame O A X R) :
    (m.set id frame).frames j = m.frames j := by
  simp [Heap.set, hj]

lemma start_same (self : ℕ) (o : O) (k : Except X A → Body O A X R) :
    (m.start self o k).frames self = { m.frames self with place := .operation k } :=
  set_same m self _

lemma destroy_same (id : ℕ) : ((m.destroy id).frames id).place = .destroyed := by
  rw [Heap.destroy, set_same]

lemma destroy_other {id j : ℕ} (hj : j ≠ id) : (m.destroy id).frames j = m.frames j :=
  set_other m hj _

lemma kept_set (self : ℕ) (place : Place O A X R) (promise : Promise R X) :
    Kept m (m.set self { m.frames self with place := place, promise := promise }) self := by
  refine ⟨le_rfl, fun j _ hj => set_other m hj _, ?_⟩
  rw [set_same]

lemma Heap.done_iff (id : ℕ) : m.done id = true ↔ (m.frames id).place = .final := by
  rw [Heap.done]
  cases (m.frames id).place <;> simp

end Heap

lemma Kept.trans {m m' m'' : Heap O A X R} {self : ℕ} (h : Kept m m' self) (h' : Kept m' m'' self) :
    Kept m m'' self := by
  refine ⟨h.next.trans h'.next, ?_, h'.previous.trans h.previous⟩
  intro j hj hne
  rw [h'.others j (hj.trans_le h.next) hne, h.others j hj hne]

variable {refused}

namespace Awaited

variable {m m' : Heap O A X R} {top self : ℕ} {callers : List ℕ}
    {K : Except X R → Interaction O A (Except X R)}

lemma callers_lt (h : Awaited refused m top self callers K) : ∀ j ∈ callers, j < self := by
  induction h with
  | here hK => exact fun j hj => absurd hj List.not_mem_nil
  | up hprevious hplace hclean hlt h hK ih =>
    intro j hj
    rcases List.mem_cons.mp hj with rfl | hj
    · exact hlt
    · exact (ih j hj).trans hlt

lemma top_mem (h : Awaited refused m top self callers K) : top ∈ self :: callers := by
  induction h with
  | here hK => exact List.mem_cons_self
  | up hprevious hplace hclean hlt h hK ih => exact List.mem_cons_of_mem _ ih

lemma top_le (h : Awaited refused m top self callers K) : ∀ j ∈ self :: callers, top ≤ j := by
  induction h with
  | here hK => exact fun j hj => (List.mem_singleton.mp hj).ge
  | up hprevious hplace hclean hlt h hK ih =>
    intro j hj
    rcases List.mem_cons.mp hj with rfl | hj
    · exact (ih _ List.mem_cons_self).trans hlt.le
    · exact ih j hj

lemma top_suspended (h : Awaited refused m top self callers K)
    (hself : (m.frames self).place ≠ .final) :
    (m.frames top).place ≠ .final := by
  induction h with
  | here hK => exact hself
  | up hprevious hplace hclean hlt h hK ih =>
    apply ih
    rw [hplace]
    exact fun hcall => nomatch hcall

lemma congr (h : Awaited refused m top self callers K)
    (hprevious : ∀ j ∈ self :: callers, j ≠ top → (m'.frames j).previous = (m.frames j).previous)
    (hplace : ∀ j ∈ callers, (m'.frames j).place = (m.frames j).place)
    (hpromise : ∀ j ∈ callers, (m'.frames j).promise = (m.frames j).promise) :
    Awaited refused m' top self callers K := by
  induction h with
  | here hK => exact .here hK
  | up hprev hcall hclean hlt h hK ih =>
    have htop := h.top_le _ List.mem_cons_self
    refine .up ?_ ?_ ?_ hlt (ih ?_ ?_ ?_) hK
    · rw [hprevious _ List.mem_cons_self (by omega), hprev]
    · rw [hplace _ List.mem_cons_self, hcall]
    · rw [hpromise _ List.mem_cons_self, hclean]
    · exact fun j hj => hprevious j (List.mem_cons_of_mem _ hj)
    · exact fun j hj => hplace j (List.mem_cons_of_mem _ hj)
    · exact fun j hj => hpromise j (List.mem_cons_of_mem _ hj)

lemma append {mid : ℕ} {callers' : List ℕ} {K' : Except X R → Interaction O A (Except X R)}
    (h : Awaited refused m mid self callers K) (h' : Awaited refused m top mid callers' K') :
    Awaited refused m top self (callers ++ callers') fun outcome => (K outcome).bind K' := by
  induction h with
  | here hK =>
    simp only [hK, Interaction.done_bind]
    exact h'
  | up hprev hcall hclean hlt h hK ih =>
    apply Awaited.up hprev hcall hclean hlt ih
    intro outcome
    rw [hK, Interaction.bind_assoc]

end Awaited

namespace Stands

variable {m m' : Heap O A X R} {base base' top mid : ℕ} {o : O}
    {rest : A → Interaction O A (Except X R)}

lemma congr (h : Stands refused m base top (.ask o rest)) (hwaiting : m'.waiting = m.waiting)
    (hnext : m'.next = m.next)
    (hplace : ∀ j, j = top ∨ base ≤ j → (m'.frames j).place = (m.frames j).place)
    (hpromise : ∀ j, j = top ∨ base ≤ j → (m'.frames j).promise = (m.frames j).promise)
    (hprevious : ∀ j, base ≤ j → j ≠ top → (m'.frames j).previous = (m.frames j).previous) :
    Stands refused m' base top (.ask o rest) := by
  cases h with
  | suspended hwaits hself hclean hawaited hmembers hgone hrest =>
    have hin {j : ℕ} (hj : j ∈ _ :: _) : j = top ∨ base ≤ j := (hmembers j hj).imp_right And.left
    refine .suspended (hwaiting.trans hwaits) ?_ ?_ (hawaited.congr ?_ ?_ ?_) ?_ ?_ hrest
    · rw [hplace _ (hin List.mem_cons_self), hself]
    · rw [hpromise _ (hin List.mem_cons_self), hclean]
    · exact fun j hj hne => hprevious j ((hin hj).resolve_left hne) hne
    · exact fun j hj => hplace j (hin (List.mem_cons_of_mem _ hj))
    · exact fun j hj => hpromise j (hin (List.mem_cons_of_mem _ hj))
    · rwa [hnext]
    · intro j hbase hj
      rw [hplace j (Or.inr hbase)]
      exact hgone j hbase (hnext ▸ hj)

lemma bind {callers : List ℕ} {K : Except X R → Interaction O A (Except X R)}
    (h : Stands refused m base mid (.ask o rest)) (hawaited : Awaited refused m top mid callers K)
    (hmembers : ∀ j ∈ mid :: callers, j = top ∨ (base' ≤ j ∧ j < m.next)) (hbase : base' ≤ base)
    (hgone : ∀ j, base' ≤ j → j < base → j ∈ mid :: callers ∨ (m.frames j).place = .destroyed) :
    Stands refused m base' top ((Interaction.ask o rest).bind K) := by
  cases h with
  | @suspended self inner _ _ _ K₁ hwaits hself hclean hinner hmembers' hgone' hrest =>
    have hmid := hinner.top_mem
    refine .suspended hwaits hself hclean (hinner.append hawaited) ?_ ?_ ?_
    · intro j hj
      rw [← List.cons_append, List.mem_append] at hj
      rcases hj with hj | hj
      · rcases hmembers' j hj with rfl | ⟨hj, hlt⟩
        · exact hmembers _ List.mem_cons_self
        · exact Or.inr ⟨hbase.trans hj, hlt⟩
      · exact hmembers j (List.mem_cons_of_mem _ hj)
    · intro j hj hlt
      rw [← List.cons_append, List.mem_append]
      by_cases hcase : j < base
      · refine (hgone j hj hcase).imp_left fun hmem => ?_
        rcases List.mem_cons.mp hmem with rfl | hmem
        · exact Or.inl hmid
        · exact Or.inr hmem
      · exact (hgone' j (not_lt.mp hcase) hlt).imp_left Or.inl
    · intro a
      rw [hrest, Interaction.bind_assoc]

lemma lower {d : Interaction O A (Except X R)} (h : Stands refused m base top d)
    (hbase : base' ≤ base)
    (hgone : ∀ j, base' ≤ j → j < base → (m.frames j).place = .destroyed) :
    Stands refused m base' top d := by
  cases h with
  | ended hdone houtcome hwaiting hgone' =>
    refine .ended hdone houtcome hwaiting ?_
    intro j hj hlt
    by_cases hcase : j < base
    · exact hgone j hj hcase
    · exact hgone' j (not_lt.mp hcase) hlt
  | suspended hwaits hself hclean hawaited hmembers hgone' hrest =>
    refine .suspended hwaits hself hclean hawaited ?_ ?_ hrest
    · exact fun j hj => (hmembers j hj).imp_right fun hin => ⟨hbase.trans hin.1, hin.2⟩
    · intro j hj hlt
      by_cases hcase : j < base
      · exact Or.inr (hgone j hj hcase)
      · exact hgone' j (not_lt.mp hcase) hlt

lemma not_done (h : Stands refused m base top (.ask o rest)) : m.done top = false := by
  cases h with
  | suspended hwaits hself hclean hawaited hmembers hgone hrest =>
    rw [Bool.eq_false_iff, Ne, Heap.done_iff]
    apply hawaited.top_suspended
    rw [hself]
    exact fun hoperation => nomatch hoperation

end Stands

lemma take_run {m : Heap O A X R} {callee : ℕ} (h : (m.frames callee).place = .final) :
    m.take callee = .ok ((m.frames callee).promise.awaitResume, m.destroy callee) :=
  if_pos ((m.done_iff callee).mpr h)

lemma Awaited.kept {m m' : Heap O A X R} {top self : ℕ} {callers : List ℕ}
    {K : Except X R → Interaction O A (Except X R)} (h : Awaited refused m top self callers K)
    (hkept : Kept m m' self) (hmembers : ∀ j ∈ self :: callers, j < m.next) :
    Awaited refused m' top self callers K := by
  have hcaller {j : ℕ} (hj : j ∈ callers) : m'.frames j = m.frames j :=
    hkept.others j (hmembers j (List.mem_cons_of_mem _ hj)) (h.callers_lt j hj).ne
  refine h.congr ?_ (fun j hj => by rw [hcaller hj]) (fun j hj => by rw [hcaller hj])
  intro j hj _
  rcases List.mem_cons.mp hj with rfl | hj
  · exact hkept.previous
  · rw [hcaller hj]

variable (refused) in
structure Rooted (m : Heap O A X R) (d : Interaction O A (Except X R)) : Prop where
  next : 0 < m.next
  previous : (m.frames 0).previous = none
  stands : Stands refused m 1 0 d

/-- Before the coroutine `ran` goes on: all but those of its chain are gone. -/
structure Resumes (m : Heap O A X R) (ran : ℕ) (callers : List ℕ) : Prop where
  next : 0 < m.next
  previous : (m.frames 0).previous = none
  waiting : m.waiting = none
  clean : (m.frames ran).promise.exception = none
  members : ∀ j ∈ ran :: callers, j < m.next
  gone : ∀ j, 1 ≤ j → j < m.next → j ∈ ran :: callers ∨ (m.frames j).place = .destroyed

lemma Kept.previous_root {m m' : Heap O A X R} {self : ℕ} (h : Kept m m' self)
    (hnext : 0 < m.next) :
    (m'.frames 0).previous = (m.frames 0).previous := by
  by_cases hself : self = 0
  · rw [← hself, h.previous]
  · rw [h.others 0 hnext (Ne.symm hself)]

namespace Resumes

variable {m m' : Heap O A X R} {self : ℕ} {callers : List ℕ}
    {K : Except X R → Interaction O A (Except X R)}

lemma rooted {o : O} {rest : A → Interaction O A (Except X R)} (h : Resumes m self callers)
    (hawaited : Awaited refused m 0 self callers K) (hkept : Kept m m' self)
    (hstands : Stands refused m' m.next self (.ask o rest)) :
    Rooted refused m' ((Interaction.ask o rest).bind K) := by
  have hmembers {j : ℕ} (hj : j ∈ self :: callers) : j < m'.next :=
    (h.members j hj).trans_le hkept.next
  refine ⟨h.next.trans_le hkept.next, (hkept.previous_root h.next).trans h.previous, ?_⟩
  refine hstands.bind (hawaited.kept hkept h.members) ?_ h.next ?_
  · intro j hj
    exact (Nat.eq_zero_or_pos j).imp_right fun hpos => ⟨hpos, hmembers hj⟩
  · intro j hpos hj
    by_cases hself : j = self
    · exact Or.inl (hself ▸ List.mem_cons_self)
    · rw [hkept.others j hj hself]
      exact h.gone j hpos hj

lemma taken {caller : ℕ} (h : Resumes m self (caller :: callers)) (hlt : caller < self)
    (hkept : Kept m m' self)
    (hwaiting : m'.waiting = none) (hcaller : (m'.frames caller).promise.exception = none)
    (hgone : ∀ j, m.next ≤ j → j < m'.next → (m'.frames j).place = .destroyed) :
    Resumes (m'.destroy self) caller callers := by
  refine ⟨h.next.trans_le hkept.next, ?_, hwaiting, ?_, ?_, ?_⟩
  · rw [destroy_other m' (by omega), hkept.previous_root h.next, h.previous]
  · rwa [destroy_other m' hlt.ne]
  · exact fun j hj => (h.members j (List.mem_cons_of_mem _ hj)).trans_le hkept.next
  · intro j hpos hj
    by_cases hself : j = self
    · exact Or.inr (hself ▸ destroy_same m' self)
    · rw [destroy_other m' hself]
      by_cases hold : j < m.next
      · rw [hkept.others j hold hself]
        exact (h.gone j hpos hold).imp_left fun hmem => (List.mem_cons.mp hmem).resolve_left hself
      · exact Or.inr (hgone j (not_lt.mp hold) hj)

end Resumes

section Machine

variable [Inhabited R]

lemma create_other {m : Heap O A X R} {j : ℕ} (hj : j ≠ m.next) : m.create.frames j = m.frames j :=
  set_other m hj _

lemma create_new (m : Heap O A X R) : m.create.frames m.next = Heap.fresh := set_same m _ _

variable (refused) in
lemma run_stands (body : Body O A X R) {m : Heap O A X R} {self : ℕ} (hself : self < m.next)
    (hwaiting : m.waiting = none) (hclean : (m.frames self).promise.exception = none) :
    ∃ m', run refused body self m = .ok m' ∧ Kept m m' self ∧
      m'.asked = m.asked ++ (direct refused body).asked [] ∧
        Stands refused m' m.next self (direct refused body) := by
  induction body generalizing m self with
  | coReturn value =>
    refine ⟨_, rfl, kept_set m self _ _, (List.append_nil _).symm, .ended ?_ ?_ hwaiting ?_⟩
    · rw [Heap.finish, set_same]
    · rw [Heap.finish, set_same, Promise.awaitResume, hclean]
    · exact fun j hj hlt => absurd hlt (not_lt.mpr hj)
  | throw x =>
    refine ⟨_, rfl, kept_set m self _ _, (List.append_nil _).symm, .ended ?_ ?_ hwaiting ?_⟩
    · rw [Heap.finish, set_same]
    · rw [Heap.finish, set_same]
      rfl
    · exact fun j hj hlt => absurd hlt (not_lt.mpr hj)
  | operation o k ih =>
    cases hrefused : refused o with
    | some x =>
      simp only [run, direct, hrefused]
      exact ih (.error x) hself hwaiting hclean
    | none =>
      simp only [run, direct, hrefused]
      have hkept : Kept m (m.start self o k) self := by
        obtain ⟨hnext, hothers, hprevious⟩ := kept_set m self (.operation k) (m.frames self).promise
        exact ⟨hnext, hothers, hprevious⟩
      refine ⟨_, rfl, hkept, rfl, .suspended (k := k) rfl ?_ ?_ (.here fun _ => rfl) ?_ ?_ ?_⟩
      · rw [start_same]
      · rwa [start_same]
      · exact fun j hj => Or.inl (List.mem_singleton.mp hj)
      · exact fun j hj hlt => absurd hlt (not_lt.mpr hj)
      · exact fun a => (Interaction.bind_done _).symm
  | call callee k ihcallee ihk =>
    have hne : self ≠ m.next := hself.ne
    have hnew : (m.create.frames m.next).promise.exception = none := by rw [create_new]; rfl
    have hcreated : m.next < m.create.next := Nat.lt_succ_self m.next
    have hstart : m.create.waiting = none := hwaiting
    obtain ⟨m₁, hrun, hkept, hasked, hstands⟩ := ihcallee hcreated hstart hnew
    have hbelow {j : ℕ} (hj : j < m.next) : m₁.frames j = m.frames j := by
      rw [hkept.others j (hj.trans (Nat.lt_succ_self _)) hj.ne, create_other hj.ne]
    have hnext : m.next + 1 ≤ m₁.next := hkept.next
    cases hdirect : direct refused callee with
    | done outcome =>
      rw [hdirect] at hstands hasked
      cases hstands with
      | ended hdone houtcome hwait hgone =>
        have htaken := take_run hdone
        rw [houtcome] at htaken
        have hbelow' {j : ℕ} (hj : j < m.next) : (m₁.destroy m.next).frames j = m.frames j := by
          rw [destroy_other m₁ hj.ne, hbelow hj]
        have hclean' : ((m₁.destroy m.next).frames self).promise.exception = none := by
          rw [hbelow' hself, hclean]
        have hself' : self < (m₁.destroy m.next).next := hself.trans hnext
        obtain ⟨m₃, hrun', hkept', hasked', hstands'⟩ := ihk outcome hself' hwait hclean'
        refine ⟨m₃, ?_, ⟨?_, ?_, ?_⟩, ?_, ?_⟩
        · simp only [run, hrun, (m₁.done_iff _).mpr hdone, if_true, htaken, hrun']
        · exact (Nat.le_succ _).trans (hnext.trans hkept'.next)
        · intro j hj hother
          rw [hkept'.others j (hj.trans hnext) hother, hbelow' hj]
        · rw [hkept'.previous, hbelow' hself]
        · rw [hasked']
          simp only [direct, hdirect, Interaction.done_bind]
          exact congrArg (· ++ _) (hasked.trans (List.append_nil _))
        · simp only [direct, hdirect, Interaction.done_bind]
          apply hstands'.lower ((Nat.le_succ _).trans hnext)
          intro j hj hlt
          rw [hkept'.others j hlt (by omega)]
          by_cases hcallee : j = m.next
          · rw [hcallee, destroy_same]
          · rw [destroy_other m₁ hcallee]
            exact hgone j (Nat.lt_of_le_of_ne hj (Ne.symm hcallee)) hlt
    | ask o rest =>
      rw [hdirect] at hstands hasked
      set m₂ := m₁.await self m.next k with hm₂
      have hself₂ : m₂.frames self = { m₁.frames self with place := .call m.next k } := by
        rw [hm₂, Heap.await, set_same]
      have hcallee₂ : m₂.frames m.next = { m₁.frames m.next with previous := some self } := by
        rw [hm₂, Heap.await, set_other _ (Ne.symm hne), set_same]
      have hother₂ {j : ℕ} (hj : j ≠ self) (hj' : j ≠ m.next) : m₂.frames j = m₁.frames j := by
        rw [hm₂, Heap.await, set_other _ hj, set_other _ hj']
      have hchild : Stands refused m₂ (m.next + 1) m.next (.ask o rest) := by
        have hsame {j : ℕ} (hj : j = m.next ∨ m.next + 1 ≤ j) :
            (m₂.frames j).place = (m₁.frames j).place ∧
              (m₂.frames j).promise = (m₁.frames j).promise := by
          by_cases hcallee : j = m.next
          · rw [hcallee, hcallee₂]
            exact ⟨rfl, rfl⟩
          · rw [hother₂ (by omega) hcallee]
            exact ⟨rfl, rfl⟩
        refine hstands.congr rfl rfl (fun j hj => (hsame hj).1) (fun j hj => (hsame hj).2) ?_
        intro j hj hcallee
        rw [hother₂ (by omega) hcallee]
      have hawaited : Awaited refused m₂ self m.next [self] fun outcome =>
          direct refused (k outcome) := by
        refine .up ?_ ?_ ?_ hself (.here fun _ => rfl) fun outcome => (Interaction.bind_done _).symm
        · rw [hcallee₂]
        · rw [hself₂]
        · rw [hself₂, hbelow hself, hclean]
      refine ⟨m₂, ?_, ⟨?_, ?_, ?_⟩, ?_, ?_⟩
      · simp only [run, hrun, hstands.not_done]
        rfl
      · exact (Nat.le_succ _).trans hnext
      · intro j hj hother
        rw [hother₂ hother hj.ne, hbelow hj]
      · rw [hself₂, hbelow hself]
      · simp only [direct, hdirect]
        exact hasked
      · simp only [direct, hdirect]
        refine hchild.bind hawaited ?_ (Nat.le_succ _) ?_
        · intro j hj
          rcases List.mem_cons.mp hj with rfl | hj
          · exact Or.inr ⟨le_rfl, hnext⟩
          · exact Or.inl (List.mem_singleton.mp hj)
        · intro j hj hlt
          obtain rfl : j = m.next := by omega
          exact Or.inl List.mem_cons_self

section Chain

variable {m m₁ : Heap O A X R} {self fuel : ℕ} {callers : List ℕ}
    {K : Except X R → Interaction O A (Except X R)}

variable (refused) in
lemma continues_suspended (hfuel : self < fuel) (hdone : m.done self = false) :
    continues refused fuel self m = .ok m := by
  cases fuel with
  | zero => exact absurd hfuel (Nat.not_lt_zero self)
  | succ fuel => simp only [continues, hdone, Bool.false_eq_true, if_false]

-- On the callers: when the coroutine ends, the next of them is resumed with the chain that is left.
lemma continues_rooted (body : Body O A X R) (h : Resumes m self callers) (hfuel : self < fuel)
    (hawaited : Awaited refused m 0 self callers K) :
    ∃ m₁ m', run refused body self m = .ok m₁ ∧ continues refused fuel self m₁ = .ok m' ∧
      m'.asked = m.asked ++ ((direct refused body).bind K).asked [] ∧
      Rooted refused m' ((direct refused body).bind K) := by
  induction callers generalizing body m self fuel K with
  | nil =>
    obtain ⟨m₁, hrun, hkept, hasked, hstands⟩ :=
      run_stands refused body (h.members _ List.mem_cons_self) h.waiting h.clean
    cases hdirect : direct refused body with
    | ask o rest =>
      rw [hdirect] at hstands hasked
      exact ⟨m₁, m₁, hrun, continues_suspended refused hfuel hstands.not_done, hasked,
        h.rooted hawaited hkept hstands⟩
    | done outcome =>
      rw [hdirect] at hstands hasked
      cases hstands with
      | ended hdone houtcome hwaiting hgone =>
        cases hawaited with
        | here hK =>
          have hprevious := hkept.previous.trans h.previous
          refine ⟨m₁, m₁, hrun, ?_, ?_, ?_⟩
          · cases fuel with
            | zero => exact absurd hfuel (Nat.not_lt_zero 0)
            | succ fuel => simp only [continues, (m₁.done_iff 0).mpr hdone, if_true, hprevious]
          · simp only [Interaction.done_bind, hK]
            exact hasked
          · simp only [Interaction.done_bind, hK]
            refine ⟨h.next.trans_le hkept.next, hprevious, .ended hdone houtcome hwaiting ?_⟩
            intro j hpos hj
            by_cases hold : j < m.next
            · rw [hkept.others j hold (by omega)]
              refine (h.gone j hpos hold).resolve_left fun hmem => ?_
              have := List.mem_singleton.mp hmem
              omega
            · exact hgone j (not_lt.mp hold) hj
  | cons caller callers ih =>
    obtain ⟨m₁, hrun, hkept, hasked, hstands⟩ :=
      run_stands refused body (h.members _ List.mem_cons_self) h.waiting h.clean
    cases hdirect : direct refused body with
    | ask o rest =>
      rw [hdirect] at hstands hasked
      exact ⟨m₁, m₁, hrun, continues_suspended refused hfuel hstands.not_done, hasked,
        h.rooted hawaited hkept hstands⟩
    | done outcome =>
      rw [hdirect] at hstands hasked
      cases hstands with
      | ended hdone houtcome hwaiting hgone =>
        have hbehind := hawaited.kept hkept h.members
        have hbelow := hbehind.callers_lt
        cases hbehind with
        | @up _ _ _ k _ K' hprevious hplace hclean hlt hchain hK =>
          have htaken := take_run hdone
          rw [houtcome] at htaken
          cases fuel with
          | zero => exact absurd hfuel (Nat.not_lt_zero self)
          | succ fuel =>
            have hresumes := h.taken hlt hkept hwaiting hclean hgone
            have hother {j : ℕ} (hj : j ∈ caller :: callers) : (m₁.destroy self).frames j =
              m₁.frames j :=
              destroy_other m₁ (hbelow j hj).ne
            have hchain' : Awaited refused (m₁.destroy self) 0 caller callers K' := by
              refine hchain.congr (fun j hj _ => by rw [hother hj]) ?_ ?_
              · exact fun j hj => by rw [hother (List.mem_cons_of_mem _ hj)]
              · exact fun j hj => by rw [hother (List.mem_cons_of_mem _ hj)]
            obtain ⟨m₂, m', hrun', hcontinues, hasked', hrooted⟩ :=
              ih (k outcome) hresumes (by omega : caller < fuel) hchain'
            refine ⟨m₁, m', hrun, ?_, ?_, ?_⟩
            · simp only [continues, (m₁.done_iff self).mpr hdone, if_true, hprevious, hplace,
                htaken, hrun', hcontinues]
            · rw [hasked', Interaction.done_bind, hK]
              exact congrArg (· ++ _) (hasked.trans (List.append_nil _))
            · rw [Interaction.done_bind, hK]
              exact hrooted

end Chain

lemma answer_rooted {m : Heap O A X R} {o : O} {rest : A → Interaction O A (Except X R)} (a : A)
    (h : Rooted refused m (.ask o rest)) :
    ∃ m', answer refused a m = .ok m' ∧ m'.asked = m.asked ++ (rest a).asked [] ∧
      Rooted refused m' (rest a) := by
  obtain ⟨hnext, hprevious, hstands⟩ := h
  cases hstands with
  | @suspended self callers _ k _ K hwaiting hplace hclean hawaited hmembers hgone hrest =>
    have hresumes : Resumes { m with waiting := none } self callers := by
      refine ⟨hnext, hprevious, rfl, hclean, ?_, hgone⟩
      intro j hj
      rcases hmembers j hj with rfl | hin
      · exact hnext
      · exact hin.2
    have hchain : Awaited refused { m with waiting := none } 0 self callers K :=
      hawaited.congr (fun _ _ _ => rfl) (fun _ _ => rfl) (fun _ _ => rfl)
    obtain ⟨m₁, m', hrun, hcontinues, hasked, hrooted⟩ :=
      continues_rooted (k (.ok a)) hresumes (Nat.lt_succ_self self) hchain
    refine ⟨m', ?_, ?_, ?_⟩
    · simp only [answer, hwaiting, hplace, hrun, hcontinues]
    · rw [hrest]
      exact hasked
    · rw [hrest]
      exact hrooted

lemma answers_rooted (as : List A) {m : Heap O A X R} {d : Interaction O A (Except X R)}
    (h : Rooted refused m d) :
    ∃ m' asked, answers refused as m = .ok m' ∧ d.asked as = d.asked [] ++ asked ∧
      m'.asked = m.asked ++ asked ∧
      Rooted refused m' (d.after as) := by
  induction as generalizing m d with
  | nil =>
    refine ⟨m, [], rfl, (List.append_nil _).symm, (List.append_nil _).symm, ?_⟩
    cases d with
    | done outcome => exact h
    | ask o rest => exact h
  | cons a as ih =>
    cases d with
    | done outcome =>
      have hdone : m.done 0 = true := by
        cases h.stands with
        | ended hdone houtcome hwaiting hgone => exact (m.done_iff 0).mpr hdone
      exact ⟨m, [], if_pos hdone, rfl, (List.append_nil _).symm, h⟩
    | ask o rest =>
      obtain ⟨m₁, hanswer, hasked₁, hrooted₁⟩ := answer_rooted a h
      obtain ⟨m', asked, hanswers, hsplit, hasked, hrooted⟩ := ih hrooted₁
      refine ⟨m', (rest a).asked [] ++ asked, ?_, ?_, ?_, hrooted⟩
      · simp only [answers, h.stands.not_done, Bool.false_eq_true, if_false, hanswer, hanswers]
      · exact congrArg (o :: ·) hsplit
      · rw [hasked, hasked₁, List.append_assoc]

variable (refused) in
/-- Coroutines that await coroutines start the operations that functions calling functions would,
with the outcome that these would have; nothing is resumed that is not suspended, nothing destroyed
that is not done, and in the end no coroutine is left. -/
theorem awaiting_is_calling (body : Body O A X R) (as : List A) :
    ∃ m, wait refused body as = .ok (((direct refused body).after as).result, m) ∧
      m.asked = (direct refused body).asked as ∧
      (((direct refused body).after as).result.isSome → ∀ j < m.next, (m.frames j).place =
        .destroyed) := by
  have hcreated : (Heap.empty : Heap O A X R).create.next = 1 := rfl
  have hfresh : (Heap.empty : Heap O A X R).create.frames 0 = Heap.fresh := create_new Heap.empty
  obtain ⟨m₁, hrun, hkept, hasked₁, hstands⟩ :=
    run_stands refused body (hcreated ▸ Nat.one_pos) rfl (hfresh ▸ rfl)
  have hrooted : Rooted refused m₁ (direct refused body) :=
    ⟨Nat.one_pos.trans_le hkept.next, hkept.previous.trans (hfresh ▸ rfl), hstands⟩
  obtain ⟨m, asked, hanswers, hsplit, hasked, hend⟩ := answers_rooted as hrooted
  have hall : m.asked = (direct refused body).asked as := by
    rw [hasked, hasked₁, hsplit]
    rfl
  cases hafter : (direct refused body).after as with
  | done outcome =>
    rw [hafter] at hend
    cases hend.stands with
    | ended hdone houtcome hwaiting hgone =>
      have htaken := take_run hdone
      rw [houtcome] at htaken
      refine ⟨m.destroy 0, ?_, hall, ?_⟩
      · simp only [wait, hrun, hanswers, (m.done_iff 0).mpr hdone, if_true, htaken,
          Interaction.result]
      · intro _ j hj
        by_cases hroot : j = 0
        · rw [hroot, destroy_same]
        · rw [destroy_other m hroot]
          exact hgone j (Nat.pos_of_ne_zero hroot) hj
  | ask o rest =>
    rw [hafter] at hend
    refine ⟨m, ?_, hall, fun hsome => absurd hsome (by simp [Interaction.result])⟩
    simp only [wait, hrun, hanswers, hend.stands.not_done, Bool.false_eq_true, if_false,
      Interaction.result]

end Machine

end Catter.Coro
