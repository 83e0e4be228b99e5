/-!
# Panics of callbacks

A callback that panics leaves a payload.  Whatever it is, the worker goes on and the
panic is reported with a message.
-/

namespace TaskFleet

/-- What a panic leaves behind. -/
inductive PanicPayload where
  | text (message : String)
  | other
deriving DecidableEq, Repr

/-- The message with which a panic is reported. -/
def PanicPayload.message : PanicPayload → String
  | .text message => message
  | .other => "non-string panic payload"

end TaskFleet
