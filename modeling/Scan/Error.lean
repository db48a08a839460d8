import Scan.Duration

/-!
# Errors

Every failure is a cause. Each has a message and one of a fixed list of codes, under which it is
reported to the outside.
-/

namespace Scan

/-- Why a live value could not be read or written. -/
inductive IoError where
  | unknownChannel (channel : String)
  | timeout (channel : String)
  | typeMismatch (detail : String)
  | disconnected (detail : String)
  | other (detail : String)
  deriving BEq, DecidableEq, Repr

/-- The text of a failed access. -/
def IoError.message : IoError → String
  | .unknownChannel channel => "unknown channel: " ++ channel
  | .timeout channel => "timeout accessing " ++ channel
  | .typeMismatch detail => "type mismatch: " ++ detail
  | .disconnected detail => "disconnected: " ++ detail
  | .other detail => detail

/-- An expression without a value. -/
structure EvalError where
  expression : String
  reason : String
  deriving BEq, DecidableEq, Repr

/-- The text of a failed evaluation. -/
def EvalError.message (error : EvalError) : String :=
  "cannot evaluate '" ++ error.expression ++ "': " ++ error.reason

/-- The kinds of errors that the outside can tell apart. -/
inductive ErrorCode where
  | invalidInput
  | unknownCommand
  | ioError
  | timeout
  | interrupted
  | busy
  | internalError
  deriving BEq, DecidableEq, Repr

namespace ErrorCode

/-- The written names, in order. -/
def variants : List (String × ErrorCode) :=
  [("INVALID_INPUT", invalidInput), ("UNKNOWN_COMMAND", unknownCommand), ("IO_ERROR", ioError),
    ("TIMEOUT", timeout), ("INTERRUPTED", interrupted), ("BUSY", busy),
    ("INTERNAL_ERROR", internalError)]

/-- The written name. -/
def name : ErrorCode → String
  | invalidInput => "INVALID_INPUT"
  | unknownCommand => "UNKNOWN_COMMAND"
  | ioError => "IO_ERROR"
  | timeout => "TIMEOUT"
  | interrupted => "INTERRUPTED"
  | busy => "BUSY"
  | internalError => "INTERNAL_ERROR"

end ErrorCode

/-- An error as the outside sees it. -/
structure ErrorInfo where
  code : ErrorCode
  message : String
  deriving BEq, DecidableEq, Repr

/-- Why a sequence is refused, or a run stops. -/
inductive ScanError where
  /-- A command of this kind has bad parameters. -/
  | validation (kind message : String)
  /-- There is no command of this kind. -/
  | compilation (kind : String)
  | liveIo (channel : String) (source : IoError)
  | expression (source : EvalError)
  /-- A wait took longer than it may. -/
  | timeout (channel : String) (seconds : Float)
  /-- An abort was honoured, which is not a failure. -/
  | interrupted
  | busy (message : String)
  deriving Repr

namespace ScanError

/-- The text of an error. -/
def message : ScanError → String
  | .validation kind message => "invalid " ++ kind ++ " command: " ++ message
  | .compilation kind => "unknown command kind: " ++ kind
  | .liveIo channel source => "live I/O on '" ++ channel ++ "' failed: " ++ source.message
  | .expression source => source.message
  | .timeout channel seconds =>
      "timeout after " ++ Scalar.text seconds ++ " s waiting for " ++ channel
  | .interrupted => "interrupted"
  | .busy message => "busy: " ++ message

/-- The code under which an error is reported. -/
def code : ScanError → ErrorCode
  | .validation .. => .invalidInput
  | .compilation .. => .unknownCommand
  | .liveIo .. => .ioError
  | .expression .. => .invalidInput
  | .timeout .. => .timeout
  | .interrupted => .interrupted
  | .busy .. => .busy

/-- Whether the error refuses a sequence before it starts. -/
def isRejection : ScanError → Bool
  | .validation .. | .compilation .. => true
  | _ => false

/-- Whether the error is an honoured abort. -/
def isInterrupted : ScanError → Bool
  | .interrupted => true
  | _ => false

/-- The error as the outside sees it. -/
def info (error : ScanError) : ErrorInfo :=
  ⟨error.code, error.message⟩

end ScanError

end Scan
