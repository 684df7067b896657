/-!
# Reports

Every phase has its own causes of failure.  A cause is finally reported
under the phase that met it, in the cause's own words.
-/

namespace CBackend

/-- A failure as the user sees it: the phase that met it, and the message of
its cause. -/
inductive Report where
  | type (message : String)
  | lowering (message : String)
  | load (message : String)
  | io (message : String)
  | internal (message : String)
deriving DecidableEq, Repr

namespace Report

def text : Report → String
  | .type message => "Type error: " ++ message
  | .lowering message => "Code generation error: " ++ message
  | .load message => "Module load error: " ++ message
  | .io message => "IO error: " ++ message
  | .internal message => "Internal compiler error: " ++ message

end Report

end CBackend
