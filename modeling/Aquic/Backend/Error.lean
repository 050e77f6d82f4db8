/-!
# Backend errors

`backend/error.rs`: why a backend refuses an operation of the application.
-/

namespace Aquic.Backend

inductive Error where
  /-- The backend is closed. -/
  | closed
  /-- Illegal operation or argument. -/
  | illegal
  /-- The provided buffer is too short or too long. -/
  | bufferSize
  | unknownConnection
  | unknownStream
  /-- No more streams can be opened in this direction, currently. -/
  | streamsExhausted
  /-- The stream is terminated with `STOP_SENDING(err)`. -/
  | streamStop (err : Nat)
  /-- The stream is terminated with `RESET_STREAM(err)`. -/
  | streamReset (err : Nat)
  | dgramDisabled
  /-- An error of the library, with its text. -/
  | other (reason : String)
  deriving DecidableEq, Repr

end Aquic.Backend
