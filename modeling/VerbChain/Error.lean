import VerbChain.Bag
import VerbChain.Source.ParseError

namespace VerbChain

/-!
# Errors of evaluating a program

Each error is a cause; its message is put together here and nowhere else.
-/

/-- Why a handler did not complete its call. -/
inductive HandlerError where
  /-- An argument was missing or of the wrong kind. -/
  | argument (cause : ArgumentError)
  /-- The handler says why. -/
  | message (text : String)
  /-- The handler passes on an error of its own. -/
  | other (text : String)
  /-- The handler broke down and gave no answer. -/
  | crash
  deriving Repr, DecidableEq

/-- The message of a handler's error. -/
def HandlerError.text : HandlerError → String
  | .argument cause => cause.message
  | .message text => text
  | .other text => text
  | .crash => "handler broke down"

/-- Why an action was not carried out. -/
inductive ExecutorError where
  /-- The executor does not know this kind of action. -/
  | unsupported (kind : String)
  /-- The executor says why. -/
  | message (text : String)
  /-- Writing or reading failed. -/
  | io (text : String)
  /-- The executor passes on an error of its own. -/
  | other (text : String)
  deriving Repr, DecidableEq

/-- The message of an executor's error. -/
def ExecutorError.text : ExecutorError → String
  | .unsupported kind => "unsupported action kind: " ++ kind
  | .message text => text
  | .io text => text
  | .other text => text

/-- Why a program or a plan did not run to its end. -/
inductive EngineError where
  | parse (cause : ParseError)
  | unknownCall (name : String)
  | handler (call : String) (cause : HandlerError)
  | executor (kind : String) (cause : ExecutorError)
  | cancelled (completed : Nat)
  | producerStopped
  deriving Repr, DecidableEq

/-- The message of an error. -/
def EngineError.message : EngineError → String
  | .parse cause => "parse error: " ++ cause.message
  | .unknownCall name => "unknown call: " ++ name
  | .handler call cause => "call " ++ call ++ " failed: " ++ cause.text
  | .executor kind cause => "action " ++ kind ++ " failed: " ++ cause.text
  | .cancelled completed =>
      "cancelled after " ++ toString completed ++ " step(s)"
  | .producerStopped => "stream producer stopped without a terminal event"

end VerbChain
