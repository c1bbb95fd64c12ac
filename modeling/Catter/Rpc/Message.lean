import Catter.Rpc.Serde

/-! The requests of catter-proxy with what follows them on the pipe. -/

namespace Catter.Rpc

open Text

inductive Message
  | create (parentId : Int32)
  | makeDecision (cmd : Command)
  | finish (retCode : Int32)
  | reportError (parentId cmdId : Int32) (errorMsg : Str)
deriving DecidableEq

namespace Message

def request : Message → Request
  | .create _ => Request.create
  | .makeDecision _ => Request.makeDecision
  | .finish _ => Request.finish
  | .reportError _ _ _ => Request.reportError

def payload : Message → List UInt8
  | .create parentId => Serde.int32.serialize parentId
  | .makeDecision cmd => Serde.command.serialize cmd
  | .finish retCode => Serde.int32.serialize retCode
  | .reportError parentId cmdId errorMsg =>
    Serde.int32.serialize parentId ++
      (Serde.int32.serialize cmdId ++ Serde.string.serialize errorMsg)

def serialize (msg : Message) : List UInt8 := Serde.request.serialize msg.request ++ msg.payload

end Message

end Catter.Rpc
