import Mathlib.Tactic
import Catter.Library.Decimal
import Catter.Qjs.Calls

/-! The references that js.cc takes: `run_js_file` and the two functions that it
attaches to the promise of a module. -/

namespace Catter.Js

open Text Library.Decimal Library.References Library.References.Ledger Qjs

/-- What the loop over the pending jobs does up to its end, with the calls of the two attached
functions in between; the engine hands out the arguments for the time of a call. -/
inductive Jobs (Heap Val : Type)
  | ends (threw : Bool)
  | resolves (next : Heap → Jobs Heap Val) (after : Heap → Heap)
  | rejects (argv : List Val) (next : Heap → Jobs Heap Val) (after : Heap → Heap)

def Jobs.lends {Heap Val : Type} : Jobs Heap Val → List Val
  | rejects argv _ _ => argv
  | _ => []

structure ModuleJS (Heap Val : Type) extends CallbackJS Heap Val where
  isPromise : Val → Bool
  evalModule : Str → Str → Heap → Val × Heap
  hasException : Heap → Bool
  executePendingJobs : Heap → Jobs Heap Val × Heap

variable {Heap Val : Type} [DecidableEq Val]

def Jobs.Lawful (js : ModuleJS Heap Val) : Jobs Heap Val → Prop
  | ends _ => True
  | resolves next after =>
    js.Obeys [] [] (fun jobs => (jobs.lends : Multiset Val)) (fun h => (next h, after h)) ∧
      ∀ h, (next h).Lawful js
  | rejects argv next after =>
    js.Obeys [] argv (fun jobs => (jobs.lends : Multiset Val)) (fun h => (next h, after h)) ∧
      ∀ h, (next h).Lawful js

-- Jobs alone call the attached functions, where no script replaces the `then` of promises.
structure ModuleRules (js : ModuleJS Heap Val) : Prop extends CallbackRules js.toCallbackJS where
  evalModule : ∀ content filepath, js.Obeys [] [] (fun v => {v}) (js.evalModule content filepath)
  executePendingJobs :
    js.Obeys [] [] (fun jobs => (jobs.lends : Multiset Val)) js.executePendingJobs
  jobs : ∀ h, (js.executePendingJobs h).1.Lawful js

/-- The `const char* filename` of `on_promise_reject`. -/
inductive Filename (Val : Type)
  | null
  | literal (text : Str)
  | cString (s : Str × Val)

namespace Filename

def text : Filename Val → Option Str
  | null => none
  | literal text => some text
  | cString s => some s.1

def refs : Filename Val → Multiset Val
  | cString s => {s.2}
  | _ => 0

end Filename

section

variable (js : ModuleJS Heap Val)

def reasonText (message : Option (Str × Val)) : Str :=
  lit "Promise rejected with reason: " ++ message.elim (lit "unknown") Prod.fst

def positionTrace (message : Option (Str × Val)) (filename : Filename Val)
    (line column : Int32) : Str :=
  match filename.text with
  | some text =>
    reasonText message ++ lit "\n at " ++ text ++ lit ":" ++ formatInt line.toInt ++ lit ":" ++
      formatInt column.toInt
  | none => reasonText message

-- `-1` where the property is not there
def toInt32 (v : Val) : Call Heap Int32 :=
  if js.isUndefined v then return -1 else js.call [v] [] (js.toInt32 v)

def filenameOf (v : Val) : Call Heap (Filename Val) :=
  if js.isUndefined v then return .literal (lit "unknown")
  else do
    match ← jsToCString js.toQuickJS v with
    | none => return .null
    | some s => return .cString s

def stackTrace (reason : Val) (message : Option (Str × Val)) : Call Heap (Option Str) := do
  let stackVal ← jsGetPropertyStr js.toQuickJS reason (lit "stack")
  if js.isUndefined stackVal then do
    jsFreeValue js.toQuickJS stackVal
    return none
  else do
    match ← jsToCString js.toQuickJS stackVal with
    | none => do
      jsFreeValue js.toQuickJS stackVal
      return none
    | some stackStr => do
      jsFreeCString js.toQuickJS (some stackStr)
      jsFreeValue js.toQuickJS stackVal
      return some (reasonText message ++ lit "\nStack: " ++ stackStr.1)

def position (reason : Val) : Call Heap (Filename Val × Int32 × Int32) := do
  let filenameVal ← jsGetPropertyStr js.toQuickJS reason (lit "fileName")
  let linenoVal ← jsGetPropertyStr js.toQuickJS reason (lit "lineNumber")
  let columnVal ← jsGetPropertyStr js.toQuickJS reason (lit "column")
  let filename ← filenameOf js filenameVal
  let line ← toInt32 js linenoVal
  let column ← toInt32 js columnVal
  jsFreeValue js.toQuickJS filenameVal
  jsFreeValue js.toQuickJS linenoVal
  jsFreeValue js.toQuickJS columnVal
  return (filename, line, column)

/-- What it stores in `error_strace`, and the pointer that it forgets. -/
def onPromiseReject : List Val → Call Heap (Str × Filename Val)
  | [] => return (lit "Promise rejected with no reason.", .null)
  | reason :: _ => do
    let message ← jsToCString js.toQuickJS reason
    if js.isObject reason then do
      match ← stackTrace js reason message with
      | some trace => do
        jsFreeCString js.toQuickJS message
        return (trace, .null)
      | none => do
        let (filename, line, column) ← position js reason
        jsFreeCString js.toQuickJS message
        return (positionTrace message filename line column, filename)
    else do
      jsFreeCString js.toQuickJS message
      return (reasonText message, .null)

def HasStack (reason : Val) : Prop :=
  ∀ h, js.isUndefined (js.getPropertyStr reason (lit "stack") h).1 = false ∧
    (js.toCString (js.getPropertyStr reason (lit "stack") h).1
      (js.getPropertyStr reason (lit "stack") h).2).1.isSome = true

/-! The statics, with the calls of `on_promise_reject` that there were. -/

inductive Verdict
  | pending
  | fulfilled
  | rejected (trace : Str)

structure Rejection (Val : Type) where
  argv : List Val
  filename : Filename Val

structure Statics (Val : Type) where
  verdict : Verdict
  rejections : List (Rejection Val)

def current : Call Heap Heap := fun h => (.ok h, h)

def runJobs : Jobs Heap Val → Statics Val → Call Heap (Bool × Statics Val)
  | .ends threw, statics => return (threw, statics)
  | .resolves next after, statics => do
    let h ← current
    js.call [] [] fun h => ((), after h)
    runJobs (next h) { statics with verdict := .fulfilled }
  | .rejects argv next after, statics => do
    let (trace, filename) ← onPromiseReject js argv
    let h ← current
    js.call [] argv fun h => ((), after h)
    runJobs (next h) ⟨.rejected trace, statics.rejections ++ [⟨argv, filename⟩]⟩

def executeJobs : Call Heap (Bool × Statics Val) := do
  let jobs ← js.call [] [] js.executePendingJobs
  runJobs js jobs ⟨.pending, []⟩

def Rejection.Clean (r : Rejection Val) : Prop :=
  ∀ reason ∈ r.argv.head?, js.isObject reason = true → HasStack js reason

open Classical in
/-- The C strings that were forgotten, each that of the `fileName` of an object without a stack. -/
noncomputable def leaked (rejections : List (Rejection Val)) : Multiset Val :=
  (rejections.map fun r => if r.Clean js then 0 else r.filename.refs).sum

/-! `run_js_file`; the wrappers are destroyed in the reverse of the order in which they stand. -/

def evalModule (content filepath : Str) : Call Heap (Except Exception (Value Val)) := do
  let val ← js.call [] [] (js.evalModule content filepath)
  if ← (fun h => (.ok (js.hasException h), h)) then do
    jsFreeValue js.toQuickJS val
    let details ← dump js.toQuickJS
    return .error details
  else return .ok (Value.ofRvalue val)

def jobsVerdict (threw : Bool) (verdict : Verdict) : Except Exception Unit :=
  if threw then .error (lit "Error while executing pending job.")
  else
    match verdict with
    | .pending => .error (lit "Inner error after executing js async jobs!")
    | .fulfilled => .ok ()
    | .rejected trace => .error (lit "Module loading with error:\n " ++ trace)

def checkPromise (promiseRet promiseObj : Val) :
    Call Heap (Except Exception Unit × List (Rejection Val)) := do
  let cResolveFunc ← Function.fromRaw js.toQuickJS (lit "__catter_onResolve")
  let cRejectFunc ← Function.fromRaw js.toQuickJS (lit "__catter_onReject")
  match ← Object.getProperty js.toQuickJS promiseRet (lit "then") with
  | .error details => do
    Value.destroy js.toQuickJS cRejectFunc
    Value.destroy js.toQuickJS cResolveFunc
    return (.error details, [])
  | .ok thenFunc => do
    let res ← jsCall js.toQuickJS (Value.value js.toQuickJS thenFunc) promiseObj
      [Value.value js.toQuickJS cResolveFunc, Value.value js.toQuickJS cRejectFunc]
    jsFreeValue js.toQuickJS res
    let (threw, statics) ← executeJobs js
    Value.destroy js.toQuickJS thenFunc
    Value.destroy js.toQuickJS cRejectFunc
    Value.destroy js.toQuickJS cResolveFunc
    return (jobsVerdict threw statics.verdict, statics.rejections)

def checkedOrNot (checkError : Bool) (promiseRet promiseObj : Val) :
    Call Heap (Except Exception Unit × List (Rejection Val)) :=
  if js.isPromise promiseObj && checkError then checkPromise js promiseRet promiseObj
    else return (.ok (), [])

def runJsFile (content filepath : Str) (checkError : Bool) :
    Call Heap (Except Exception Unit × List (Rejection Val)) := do
  match ← evalModule js content filepath with
  | .error details => return (.error details, [])
  | .ok ret => do
    match ← Value.toObject js.toQuickJS (Value.value js.toQuickJS ret) with
    | none => do
      Value.destroy js.toQuickJS ret
      return (.error (lit "Inner exception!, this exception should not happen."), [])
    | some promiseRet => do
      let promiseObj ← Value.copy js.toQuickJS promiseRet
      let result ← checkedOrNot js checkError (Value.value js.toQuickJS promiseRet)
        (Value.value js.toQuickJS promiseObj)
      Value.destroy js.toQuickJS promiseObj
      Value.destroy js.toQuickJS promiseRet
      Value.destroy js.toQuickJS ret
      return result

end

variable {js : ModuleJS Heap Val} {owned : Multiset Val} (rules : ModuleRules js)

include rules

lemma toInt32_keeps {v : Val} (hv : js.counted v = true → v ∈ owned) :
    js.Keeps owned (toInt32 js v) fun _ => owned := by
  rw [toInt32]
  split_ifs
  · exact Keeps.pure rfl
  · have hlend : ∀ w ∈ [v], js.counted w = true → w ∈ owned := by simpa using hv
    have hkeeps := keeps_lend (rules.toInt32 v) hlend
    simpa only [zero_add] using hkeeps

lemma filenameOf_keeps {v : Val} (hv : js.counted v = true → v ∈ owned) :
    js.Keeps owned (filenameOf js v) fun filename => filename.refs + owned := by
  rw [filenameOf]
  split_ifs
  · exact Keeps.pure (zero_add owned).symm
  · apply Keeps.bind (toCString_keeps rules.toOwnershipRules hv)
    intro s
    cases s with
    | none => exact Keeps.pure rfl
    | some s => exact Keeps.pure rfl

lemma stackTrace_keeps {reason : Val} (hreason : js.counted reason = true → reason ∈ owned)
    (message : Option (Str × Val)) : js.Keeps owned (stackTrace js reason message) fun _ =>
      owned := by
  apply Keeps.bind (getPropertyStr_keeps rules.toOwnershipRules hreason _)
  intro stackVal
  split_ifs
  · apply Keeps.bind (freeValue_keeps rules.toOwnershipRules stackVal)
    intro _
    exact Keeps.pure rfl
  · apply Keeps.bind (toCString_keeps rules.toOwnershipRules (by simp))
    intro stackStr
    cases stackStr with
    | none =>
      have hnone : holder (none : Option (Str × Val)) + ({stackVal} + owned) = {stackVal} + owned :=
        zero_add _
      rw [hnone]
      apply Keeps.bind (freeValue_keeps rules.toOwnershipRules stackVal)
      intro _
      exact Keeps.pure rfl
    | some stackStr =>
      apply Keeps.bind (freeCString_keeps rules.toOwnershipRules (some stackStr))
      intro _
      apply Keeps.bind (freeValue_keeps rules.toOwnershipRules stackVal)
      intro _
      exact Keeps.pure rfl

lemma position_keeps {reason : Val} (hreason : js.counted reason = true → reason ∈ owned) :
    js.Keeps owned (position js reason) fun found => found.1.refs + owned := by
  apply Keeps.bind (getPropertyStr_keeps rules.toOwnershipRules hreason _)
  intro filenameVal
  apply Keeps.bind (getPropertyStr_keeps rules.toOwnershipRules
    (fun h => Multiset.mem_add.mpr (Or.inr (hreason h))) _)
  intro linenoVal
  apply Keeps.bind (getPropertyStr_keeps rules.toOwnershipRules
    (fun h => Multiset.mem_add.mpr (Or.inr (Multiset.mem_add.mpr (Or.inr (hreason h))))) _)
  intro columnVal
  apply Keeps.bind (filenameOf_keeps rules (by simp))
  intro filename
  apply Keeps.bind (toInt32_keeps rules (by simp))
  intro line
  apply Keeps.bind (toInt32_keeps rules (by simp))
  intro column
  have hsorted : filename.refs + ({columnVal} + ({linenoVal} + ({filenameVal} + owned))) =
      {filenameVal} + ({linenoVal} + ({columnVal} + (filename.refs + owned))) := by
    abel
  rw [hsorted]
  apply Keeps.bind (freeValue_keeps rules.toOwnershipRules filenameVal)
  intro _
  apply Keeps.bind (freeValue_keeps rules.toOwnershipRules linenoVal)
  intro _
  apply Keeps.bind (freeValue_keeps rules.toOwnershipRules columnVal)
  intro _
  exact Keeps.pure rfl

lemma onPromiseReject_keeps {argv : List Val}
    (hargv : ∀ v ∈ argv, js.counted v = true → v ∈ owned) :
    js.Keeps owned (onPromiseReject js argv) fun left => left.2.refs + owned := by
  cases argv with
  | nil => exact Keeps.pure (zero_add owned).symm
  | cons reason rest =>
    have hreason := hargv reason List.mem_cons_self
    apply Keeps.bind (toCString_keeps rules.toOwnershipRules hreason)
    intro message
    have hlent : js.counted reason = true → reason ∈ holder message + owned := fun h =>
      Multiset.mem_add.mpr (Or.inr (hreason h))
    split_ifs
    · apply Keeps.bind (stackTrace_keeps rules hlent message)
      intro trace
      cases trace with
      | some trace =>
        apply Keeps.bind (freeCString_keeps rules.toOwnershipRules message)
        intro _
        exact Keeps.pure (zero_add owned).symm
      | none =>
        apply Keeps.bind (position_keeps rules hlent)
        rintro ⟨filename, line, column⟩
        rw [add_left_comm]
        apply Keeps.bind (freeCString_keeps rules.toOwnershipRules message)
        intro _
        exact Keeps.pure rfl
    · apply Keeps.bind (freeCString_keeps rules.toOwnershipRules message)
      intro _
      exact Keeps.pure (zero_add owned).symm

omit rules in
lemma lent_run {α : Type} {v : Val} {gives : α → Multiset Val} {f : Heap → α × Heap} {h : Heap}
    (hf : js.Obeys [v] [] gives f) (hv : js.counted v = true → v ∈ owned)
    (hb : js.Balanced owned h) :
    js.call [v] [] f h = (.ok (f h).1, (f h).2) ∧ js.Balanced (gives (f h).1 + owned) (f h).2 := by
  have hnothing : js.Balanced (([] : List Val) + owned) h := by simpa using hb
  refine call_balanced hf ?_ hnothing
  intro w hw hcounted
  rw [List.mem_singleton] at hw
  subst hw
  exact hb.alive (hv hcounted) hcounted

lemma stackTrace_found {reason : Val} {h : Heap}
    (hreason : js.counted reason = true → reason ∈ owned)
    (hstack : HasStack js reason) (message : Option (Str × Val)) (hb : js.Balanced owned h) :
    ∃ trace h', stackTrace js reason message h = (.ok (some trace), h') ∧ js.Balanced owned h' := by
  obtain ⟨hdefined, hconverts⟩ := hstack h
  obtain ⟨hget, hgot⟩ := lent_run (rules.getPropertyStr reason (lit "stack")) hreason hb
  obtain ⟨hconvert, hconverted⟩ :=
    lent_run (rules.toCString (js.getPropertyStr reason (lit "stack") h).1) (by simp) hgot
  obtain ⟨stackStr, hstr⟩ := Option.isSome_iff_exists.mp hconverts
  rw [hstr] at hconvert hconverted
  have hfreed := (freeCString_keeps rules.toOwnershipRules (some stackStr)).run hconverted
  obtain ⟨_, h₁, hfreeStr, hb₁⟩ := hfreed
  obtain ⟨_, h₂, hfreeVal, hb₂⟩ := (freeValue_keeps rules.toOwnershipRules _).run hb₁
  have hgetStr : jsGetPropertyStr js.toQuickJS reason (lit "stack") h = _ := hget
  have hconvertStr : jsToCString js.toQuickJS _ _ = _ := hconvert
  refine ⟨reasonText message ++ lit "\nStack: " ++ stackStr.1, h₂, ?_, hb₂⟩
  rw [stackTrace, Library.Triples.bind_ok hgetStr,
    if_neg (by rw [hdefined]; exact Bool.false_ne_true),
    Library.Triples.bind_ok hconvertStr]
  exact (Library.Triples.bind_ok hfreeStr).trans (Library.Triples.bind_ok hfreeVal)

lemma onPromiseReject_null {reason : Val} {rest : List Val} {h : Heap}
    (hreason : js.counted reason = true → reason ∈ owned) (hb : js.Balanced owned h)
    (hstack : js.isObject reason = false ∨ HasStack js reason) :
    ∃ trace h', onPromiseReject js (reason :: rest) h = (.ok (trace, .null), h') ∧
      js.Balanced owned h' := by
  have hrules := rules.toOwnershipRules
  obtain ⟨message, h₁, hmessage, hb₁⟩ := (toCString_keeps hrules hreason).run hb
  have hlent : js.counted reason = true → reason ∈ holder message + owned := fun hcounted =>
    Multiset.mem_add.mpr (Or.inr (hreason hcounted))
  rw [onPromiseReject, Library.Triples.bind_ok hmessage]
  by_cases hobject : js.isObject reason = true
  · have hfound := hstack.resolve_left (by rw [hobject]; decide)
    obtain ⟨trace, h₂, htrace, hb₂⟩ := stackTrace_found rules hlent hfound message hb₁
    obtain ⟨_, h₃, hfree, hb₃⟩ := (freeCString_keeps hrules message).run hb₂
    refine ⟨trace, h₃, ?_, hb₃⟩
    rw [if_pos hobject, Library.Triples.bind_ok htrace]
    exact Library.Triples.bind_ok hfree
  · obtain ⟨_, h₂, hfree, hb₂⟩ := (freeCString_keeps hrules message).run hb₁
    refine ⟨reasonText message, h₂, ?_, hb₂⟩
    rw [if_neg hobject, Library.Triples.bind_ok hfree]
    rfl

lemma onPromiseReject_run {argv : List Val} {h : Heap} (hb : js.Balanced (argv + owned) h) :
    ∃ trace filename h', onPromiseReject js argv h = (.ok (trace, filename), h') ∧
      js.Balanced (filename.refs + (argv + owned)) h' ∧
        ((⟨argv, filename⟩ : Rejection Val).Clean js → filename.refs = 0) := by
  have hargv : ∀ v ∈ argv, js.counted v = true → v ∈ (argv + owned : Multiset Val) := fun v hv _ =>
    Multiset.mem_add.mpr (Or.inl (Multiset.mem_coe.mpr hv))
  obtain ⟨⟨trace, filename⟩, h', hrun, hafter⟩ := (onPromiseReject_keeps rules hargv).run hb
  refine ⟨trace, filename, h', hrun, hafter, fun hclean => ?_⟩
  cases argv with
  | nil =>
    rw [onPromiseReject] at hrun
    cases hrun
    rfl
  | cons reason rest =>
    have hstack : js.isObject reason = false ∨ HasStack js reason := by
      by_cases hobject : js.isObject reason = true
      · exact Or.inr (hclean reason rfl hobject)
      · exact Or.inl (Bool.eq_false_of_not_eq_true hobject)
    obtain ⟨trace', h'', hnull, -⟩ :=
      onPromiseReject_null rules (hargv reason List.mem_cons_self) hb hstack
    rw [hnull] at hrun
    cases hrun
    rfl

open Classical in
omit rules [DecidableEq Val] in
lemma leaked_append (rejections : List (Rejection Val)) {r : Rejection Val}
    (hr : r.Clean js → r.filename.refs = 0) :
    leaked js (rejections ++ [r]) = r.filename.refs + leaked js rejections := by
  have hlast : (if r.Clean js then 0 else r.filename.refs) = r.filename.refs := by
    split_ifs with hclean
    · exact (hr hclean).symm
    · rfl
  rw [leaked, leaked, List.map_append, List.sum_append, add_comm]
  simp [hlast]

omit rules in
lemma resume_run {argv : List Val} {next : Heap → Jobs Heap Val} {after : Heap → Heap} {h : Heap}
    (hobeys : js.Obeys [] argv (fun jobs => (jobs.lends : Multiset Val))
      (fun h => (next h, after h)))
    (hb : js.Balanced (argv + owned) h) :
    js.call [] argv (fun h => ((), after h)) h = (.ok (), after h) ∧
      js.Balanced ((next h).lends + owned) (after h) :=
  ⟨if_pos ⟨by simp, hb.loose⟩, hb.trade (hobeys h (by simp) hb.loose)⟩

lemma runJobs_run (jobs : Jobs Heap Val) (hlawful : jobs.Lawful js) (statics : Statics Val)
    {h : Heap}
    (hb : js.Balanced (jobs.lends + (leaked js statics.rejections + owned)) h) :
    ∃ result h', runJobs js jobs statics h = (.ok result, h') ∧
      js.Balanced (leaked js result.2.rejections + owned) h' := by
  induction jobs generalizing statics h with
  | ends threw =>
    change js.Balanced (([] : List Val) + (leaked js statics.rejections + owned)) h at hb
    rw [Multiset.coe_nil, zero_add] at hb
    exact ⟨(threw, statics), h, rfl, hb⟩
  | resolves next after ih =>
    obtain ⟨hobeys, hnext⟩ := hlawful
    obtain ⟨hcall, hresumed⟩ := resume_run hobeys hb
    obtain ⟨result, h', hrun, hafter⟩ :=
      ih h (hnext h) { statics with verdict := .fulfilled } hresumed
    refine ⟨result, h', ?_, hafter⟩
    rw [runJobs, Library.Triples.bind_ok (rfl : current h = _), Library.Triples.bind_ok hcall]
    exact hrun
  | rejects argv next after ih =>
    obtain ⟨hobeys, hnext⟩ := hlawful
    change js.Balanced (argv + (leaked js statics.rejections + owned)) h at hb
    obtain ⟨trace, filename, h₁, hreject, hrejected, hclean⟩ := onPromiseReject_run rules hb
    have hsorted : filename.refs + (argv + (leaked js statics.rejections + owned)) =
        argv + (leaked js (statics.rejections ++ [⟨argv, filename⟩]) + owned) := by
      rw [leaked_append statics.rejections hclean]
      abel
    rw [hsorted] at hrejected
    obtain ⟨hcall, hresumed⟩ := resume_run hobeys hrejected
    have hlater := ih h₁ (hnext h₁) ⟨.rejected trace, statics.rejections ++ [⟨argv, filename⟩]⟩
      (h := after h₁)
    obtain ⟨result, h', hrun, hafter⟩ := hlater hresumed
    refine ⟨result, h', ?_, hafter⟩
    rw [runJobs, Library.Triples.bind_ok hreject]
    refine (Library.Triples.bind_ok (rfl : current h₁ = _)).trans ?_
    rw [Library.Triples.bind_ok hcall]
    exact hrun

omit rules [DecidableEq Val] in
lemma leaked_nil (owned : Multiset Val) : leaked js [] + owned = owned := by
  simp [leaked]

lemma executeJobs_keeps :
    js.Keeps owned (executeJobs js) fun result => leaked js result.2.rejections + owned := by
  intro h hb
  have hstart : js.Balanced (([] : List Val) + owned) h := by simpa using hb
  obtain ⟨hcall, hbegun⟩ := call_balanced rules.executePendingJobs (by simp) hstart
  rw [← leaked_nil owned] at hbegun
  obtain ⟨result, h', hrun, hafter⟩ := runJobs_run rules _ (rules.jobs h) ⟨.pending, []⟩ hbegun
  rw [executeJobs, Library.Triples.bind_ok hcall, hrun]
  exact hafter

/-! A run of a file gives back whatever it takes, also when it throws. -/

lemma evalModule_keeps (content filepath : Str) :
    js.Keeps owned (evalModule js content filepath) fun result => resultRefs result + owned := by
  apply Keeps.bind (keeps_new (rules.evalModule content filepath))
  intro val
  have hlook : js.Keeps ({val} + owned) (fun h => (.ok (js.hasException h), h)) fun _ =>
    {val} + owned :=
    fun _ hb => hb
  apply Keeps.bind hlook
  intro pending
  split_ifs
  · apply Keeps.bind (freeValue_keeps rules.toOwnershipRules val)
    intro _
    apply Keeps.bind (dump_keeps rules.toOwnershipRules)
    intro details
    exact Keeps.pure (zero_add owned).symm
  · exact Keeps.pure rfl

lemma checkPromise_keeps {promiseRet promiseObj : Val}
    (hret : js.counted promiseRet = true → promiseRet ∈ owned)
    (hobj : js.counted promiseObj = true → promiseObj ∈ owned) :
    js.Keeps owned (checkPromise js promiseRet promiseObj) fun result =>
      leaked js result.2 + owned := by
  have hrules := rules.toOwnershipRules
  apply Keeps.bind (Function.fromRaw_keeps hrules _)
  intro cResolveFunc
  apply Keeps.bind (Function.fromRaw_keeps hrules _)
  intro cRejectFunc
  apply Keeps.bind (Object.getProperty_keeps hrules
    (fun h => Multiset.mem_add.mpr (Or.inr (Multiset.mem_add.mpr (Or.inr (hret h))))) _)
  intro result
  cases result with
  | error details =>
    have hnone : resultRefs (.error details : Except Exception (Value Val)) +
        (Value.refs cRejectFunc + (Value.refs cResolveFunc + owned)) =
        Value.refs cRejectFunc + (Value.refs cResolveFunc + owned) := zero_add _
    rw [hnone]
    apply Keeps.bind (Value.destroy_keeps hrules cRejectFunc)
    intro _
    apply Keeps.bind (Value.destroy_keeps hrules cResolveFunc)
    intro _
    exact Keeps.pure (leaked_nil owned).symm
  | ok thenFunc =>
    have hthree : ∀ this : Value Val, this = thenFunc ∨ this = cRejectFunc ∨ this = cResolveFunc →
        js.counted (Value.value js.toQuickJS this) = true → Value.value js.toQuickJS this ∈
          resultRefs (Except.ok thenFunc) +
            (Value.refs cRejectFunc + (Value.refs cResolveFunc + owned)) := by
      intro this hthis
      apply Value.value_mem hrules
      rintro v rfl
      rcases hthis with rfl | rfl | rfl <;> simp [resultRefs, Except.toOption]
    have hborrows : ∀ v ∈ Value.value js.toQuickJS thenFunc :: promiseObj ::
        [Value.value js.toQuickJS cResolveFunc, Value.value js.toQuickJS cRejectFunc],
          js.counted v = true →
        v ∈ resultRefs (Except.ok thenFunc) +
          (Value.refs cRejectFunc + (Value.refs cResolveFunc + owned)) := by
      intro v hv hcounted
      simp only [List.mem_cons, List.not_mem_nil, or_false] at hv
      rcases hv with rfl | rfl | rfl | rfl
      · exact hthree thenFunc (Or.inl rfl) hcounted
      · simp only [Multiset.mem_add]
        exact Or.inr (Or.inr (Or.inr (hobj hcounted)))
      · exact hthree cResolveFunc (Or.inr (Or.inr rfl)) hcounted
      · exact hthree cRejectFunc (Or.inr (Or.inl rfl)) hcounted
    apply Keeps.bind (keeps_lend (hrules.callFunction _ _ _) hborrows)
    intro res
    apply Keeps.bind (freeValue_keeps hrules res)
    intro _
    apply Keeps.bind (executeJobs_keeps rules)
    rintro ⟨threw, statics⟩
    have hsorted : leaked js statics.rejections + (resultRefs (Except.ok thenFunc) +
        (Value.refs cRejectFunc + (Value.refs cResolveFunc + owned))) =
        Value.refs thenFunc + (Value.refs cRejectFunc + (Value.refs cResolveFunc +
          (leaked js statics.rejections + owned))) := by
      change leaked js statics.rejections + (Value.refs thenFunc +
        (Value.refs cRejectFunc + (Value.refs cResolveFunc + owned))) = _
      abel
    rw [hsorted]
    apply Keeps.bind (Value.destroy_keeps hrules thenFunc)
    intro _
    apply Keeps.bind (Value.destroy_keeps hrules cRejectFunc)
    intro _
    apply Keeps.bind (Value.destroy_keeps hrules cResolveFunc)
    intro _
    exact Keeps.pure rfl

lemma checkedOrNot_keeps (checkError : Bool) {promiseRet promiseObj : Val}
    (hret : js.counted promiseRet = true → promiseRet ∈ owned)
    (hobj : js.counted promiseObj = true → promiseObj ∈ owned) :
    js.Keeps owned (checkedOrNot js checkError promiseRet promiseObj) fun result =>
      leaked js result.2 + owned := by
  rw [checkedOrNot]
  split_ifs
  · exact checkPromise_keeps rules hret hobj
  · exact Keeps.pure (leaked_nil owned).symm

lemma runJsFile_keeps (content filepath : Str) (checkError : Bool) :
    js.Keeps owned (runJsFile js content filepath checkError) fun result =>
      leaked js result.2 + owned := by
  have hrules := rules.toOwnershipRules
  apply Keeps.bind (evalModule_keeps rules content filepath)
  intro result
  cases result with
  | error details => exact Keeps.pure ((zero_add owned).trans (leaked_nil owned).symm)
  | ok ret =>
    have hret : js.counted (Value.value js.toQuickJS ret) = true →
        Value.value js.toQuickJS ret ∈ Value.refs ret + owned :=
          Value.value_mem hrules (by rintro v rfl; simp)
    apply Keeps.bind (Value.toObject_keeps hrules hret)
    intro object
    cases object with
    | none =>
      rw [Option.elim_none, zero_add]
      apply Keeps.bind (Value.destroy_keeps hrules ret)
      intro _
      exact Keeps.pure (leaked_nil owned).symm
    | some promiseRet =>
      rw [Option.elim_some]
      apply Keeps.bind (Value.copy_keeps hrules (by rintro v rfl; simp))
      intro promiseObj
      have hmem : ∀ this : Value Val, this = promiseObj ∨ this = promiseRet →
          js.counted (Value.value js.toQuickJS this) = true → Value.value js.toQuickJS this ∈
            Value.refs promiseObj +
              (Value.refs promiseRet + (resultRefs (Except.ok ret) + owned)) := by
        intro this hthis
        apply Value.value_mem hrules
        rintro v rfl
        rcases hthis with rfl | rfl <;> simp
      apply Keeps.bind (checkedOrNot_keeps rules checkError (hmem promiseRet (Or.inr rfl))
        (hmem promiseObj (Or.inl rfl)))
      rintro ⟨checked, rejections⟩
      have hsorted : leaked js rejections + (Value.refs promiseObj + (Value.refs promiseRet +
          (resultRefs (Except.ok ret) + owned))) =
          Value.refs promiseObj +
            (Value.refs promiseRet + (Value.refs ret + (leaked js rejections + owned))) := by
        change leaked js rejections +
          (Value.refs promiseObj + (Value.refs promiseRet + (Value.refs ret + owned))) = _
        abel
      rw [hsorted]
      apply Keeps.bind (Value.destroy_keeps hrules promiseObj)
      intro _
      apply Keeps.bind (Value.destroy_keeps hrules promiseRet)
      intro _
      apply Keeps.bind (Value.destroy_keeps hrules ret)
      intro _
      exact Keeps.pure rfl

/-- Whatever a file does, and however its run ends, `run_js_file` gives back every reference that it
takes, but for the C strings that the function for rejections forgets when jobs call it. That one
gives back all but the C string of a `fileName`; to one it comes only for an object without a
stack. -/
theorem run_js_file_balanced {h : Heap} (hb : js.Balanced owned h) :
    (∀ content filepath checkError, ∃ result rejections h',
      runJsFile js content filepath checkError h = (.ok (result, rejections), h') ∧
        js.Balanced (leaked js rejections + owned) h') ∧
    (∀ argv : List Val, (∀ v ∈ argv, js.counted v = true → v ∈ owned) →
      ∃ trace filename h', onPromiseReject js argv h = (.ok (trace, filename), h') ∧
        js.Balanced (filename.refs + owned) h') ∧
    ∀ (reason : Val) (rest : List Val), (js.counted reason = true → reason ∈ owned) →
      js.isObject reason = false ∨ HasStack js reason →
      ∃ trace h', onPromiseReject js (reason :: rest) h = (.ok (trace, .null), h') ∧
        js.Balanced owned h' := by
  refine ⟨fun content filepath checkError => ?_, fun argv hargv => ?_,
    fun reason rest hreason hstack => onPromiseReject_null rules hreason hb hstack⟩
  · obtain ⟨⟨result, rejections⟩, h', hrun, hafter⟩ :=
      (runJsFile_keeps rules content filepath checkError).run hb
    exact ⟨result, rejections, h', hrun, hafter⟩
  obtain ⟨⟨trace, filename⟩, h', hrun, hafter⟩ := (onPromiseReject_keeps rules hargv).run hb
  exact ⟨trace, filename, h', hrun, hafter⟩

omit rules

def plainModules : ModuleJS PlainHeap PlainVal where
  toCallbackJS := plainCallbacks
  isPromise
    | .object _ => true
    | _ => false
  evalModule _ _ h := h.allocate .object
  hasException _ := false
  executePendingJobs h := (.resolves (fun _ => .ends false) id, h)

lemma plainModules_rules : ModuleRules plainModules where
  toCallbackRules := plainCallbacks_rules
  evalModule _ _ := plain_rules.newObject
  executePendingJobs := plain_obeys fun _ _ _ _ => rfl
  jobs _ := ⟨plain_obeys fun _ _ _ _ => rfl, fun _ => trivial⟩

theorem plain_file_balanced :
    ∃ result rejections h', runJsFile plainModules (lit "1;") (lit "a.js") true .start =
      (.ok (result, rejections), h') ∧
      plain.Balanced (leaked plainModules rejections + 0) h' := by
  have hstart : plainModules.Balanced 0 .start := fun _ _ => rfl
  exact (run_js_file_balanced plainModules_rules hstart).1 (lit "1;") (lit "a.js") true

end Catter.Js
