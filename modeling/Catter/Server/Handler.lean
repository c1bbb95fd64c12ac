import Catter.Rpc.Message
import Catter.Uv.Read

/-! The coroutine of one connection of the decision server: the messages it reads,
the replies it writes, and how it ends. -/

namespace Catter.Server

open Library.ExactReads Text Rpc

/-- Whether a string of that length, or a vector of that many strings, can be
allocated. Where it cannot, the constructor throws a `std::exception`. -/
structure Heap where
  string : ℕ → Bool
  vector : ℕ → Bool

/-! `co_deserialize`; `failure` is an exception of an allocation. -/

abbrev Reads (α : Type) := OptionT Decoder α

def coString (heap : Heap) : Reads Str := do
  let len ← Serde.sizeT.deserialize
  if heap.string len then OptionT.lift (.read len .done) else failure

def coReplicate {α : Type} (item : Reads α) : ℕ → Reads (List α)
  | 0 => pure []
  | n + 1 => do
    let a ← item
    let as ← coReplicate item n
    pure (a :: as)

def coStrings (heap : Heap) : Reads (List Str) := do
  let len ← Serde.sizeT.deserialize
  if heap.vector len then coReplicate (coString heap) len else failure

def coCommand (heap : Heap) : Reads Command := do
  let workingDir ← coString heap
  let executable ← coString heap
  let args ← coStrings heap
  let env ← coStrings heap
  pure ⟨workingDir, executable, args, env⟩

inductive Incoming
  | known (msg : Message)
  | unknown (req : Request)
deriving DecidableEq

def arguments (heap : Heap) (req : Request) : Reads Incoming :=
  if req = Request.create then do
    let parentId ← Serde.int32.deserialize
    pure (.known (.create parentId))
  else if req = Request.makeDecision then do
    let cmd ← coCommand heap
    pure (.known (.makeDecision cmd))
  else if req = Request.finish then do
    let retCode ← Serde.int32.deserialize
    pure (.known (.finish retCode))
  else if req = Request.reportError then do
    let parentId ← Serde.int32.deserialize
    let cmdId ← Serde.int32.deserialize
    let errorMsg ← coString heap
    pure (.known (.reportError parentId cmdId errorMsg))
  else pure (.unknown req)

def message (heap : Heap) : Decoder (Option Incoming) :=
  Serde.request.deserialize.bind fun req => (arguments heap req).run

inductive Reply
  | created (id : Int32)
  | decided (act : Action)
deriving DecidableEq

def Reply.serialize : Reply → List UInt8
  | .created id => Serde.int32.serialize id
  | .decided act => Serde.action.serialize act

def respond (id : Int32) : Incoming → Option Reply
  | .known (.create _) => some (.created id)
  | .known (.makeDecision cmd) => some (.decided ⟨Action.inject, cmd⟩)
  | .known (.finish _) | .known (.reportError _ _ _) | .unknown _ => none

-- Where the coroutine is suspended; `ended` after either `catch`.
inductive Phase
  | reading (r : Uv.Read) (next : List UInt8 → Decoder (Option Incoming))
  | writing (reply : Reply)
  | ended

def Phase.await : Decoder (Option Incoming) → Phase
  | .read n next => .reading (.start n) next
  | .done _ => .ended

def listening (heap : Heap) : Phase := .await (message heap)

def proceed (heap : Heap) (id : Int32) (d : Decoder (Option Incoming)) : Phase :=
  match d with
  | .read n next => .reading (.start n) next
  | .done none => .ended
  | .done (some msg) =>
    match respond id msg with
    | some reply => .writing reply
    | none => listening heap

/-- `inbox` is what the client has written and the handler has not read; `consumed`
what it has read; `sent` the octets that went back to the client; `woken` tells whether
a read went on without all its octets. -/
structure Client where
  id : Int32
  phase : Phase
  inbox : List UInt8
  consumed : List UInt8
  replies : List Reply
  sent : List UInt8
  broken : Bool
  woken : Bool

inductive ClientEvent
  | arrive (octets : List UInt8)
  | readable (k : ℕ)
  | wakeup (stale : List UInt8)
  | readFails (nread : ℤ)
  | writeDone
  | writeFails (k : ℕ)

namespace Client

def fresh (heap : Heap) (id : Int32) (accepted : Bool) : Client where
  id := id
  phase := if accepted then listening heap else .ended
  inbox := []
  consumed := []
  replies := []
  sent := []
  broken := !accepted
  woken := false

/-- libuv finds `k` octets in the pipe and calls the two callbacks of the read. -/
def deliver (heap : Heap) (c : Client) (r : Uv.Read) (next : List UInt8 → Decoder (Option Incoming))
    (k : ℕ) :
    Client :=
  let (nread, octets, _) := Uv.callback r.allocCb (.data (c.inbox.take k))
  let (r', resumed) := r.readCb nread octets
  let c' := { c with inbox := c.inbox.drop octets.length, consumed := c.consumed ++ octets }
  if resumed then
    if r'.result < 0 then { c' with phase := .ended }
      else { c' with phase := proceed heap c.id (next r'.received) }
  else { c' with phase := .reading r' next }

/-- The read callback with the count 0, which stands for EAGAIN: the read ends, and what was not
filled of the number or text that it was for is what was in the memory before, `stale`. -/
def wake (heap : Heap) (c : Client) (r : Uv.Read) (next : List UInt8 → Decoder (Option Incoming))
    (stale : List UInt8) :
    Client :=
  let (nread, octets, _) := Uv.callback r.allocCb .again
  let (r', resumed) := r.readCb nread octets
  if resumed then
    if r'.result < 0 then { c with phase := .ended }
    else { c with phase := proceed heap c.id (next (r'.received ++ stale)), woken := true }
  else { c with phase := .reading r' next }

def step (heap : Heap) (c : Client) : ClientEvent → Option Client
  | .arrive octets => some { c with inbox := c.inbox ++ octets }
  | .readable k =>
    match c.phase with
    | .reading r next => if 0 < k ∧ k ≤ c.inbox.length then some (c.deliver heap r next k) else none
    | _ => none
  | .wakeup stale =>
    match c.phase with
    | .reading r next => if stale.length = r.remaining then some (c.wake heap r next stale)
      else none
    | _ => none
  | .readFails nread =>
    match c.phase with
    | .reading _ _ => if nread < 0 then some { c with phase := .ended, broken := true } else none
    | _ => none
  | .writeDone =>
    match c.phase with
    | .writing reply =>
      some { c with
        phase := listening heap
        replies := c.replies ++ [reply]
        sent := c.sent ++ reply.serialize }
    | _ => none
  | .writeFails k =>
    match c.phase with
    | .writing reply =>
      some { c with
        phase := .ended
        sent := c.sent ++ reply.serialize.take k
        broken := true }
    | _ => none

end Client

end Catter.Server
