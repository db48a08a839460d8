import Scan.Report.Codec

/-!
# Requests and responses

What clients of the daemon send and what they are answered, one object a line.
-/

namespace Scan

open Json

/-- A request of a client. -/
structure Request where
  id : String
  method : String
  params : Value := .null
  deriving BEq, Repr

/-- An answer to a client. -/
structure Response where
  id : String
  result : Option Value := none
  error : Option ErrorInfo := none
  deriving BEq, Repr

namespace Request

/-- The written form. -/
def toValue (request : Request) : Value :=
  .object [("id", .string request.id), ("method", .string request.method),
    ("params", request.params)]

/-- The fields. -/
def record : Record Request :=
  Record.pure Request.mk
    |>.field "id" Decoder.string
    |>.field "method" Decoder.string
    |>.defaultField "params" Decoder.value .null

/-- Reads a request. -/
def decode : Decoder Request := record.decode "struct DaemonRequest"

end Request

namespace Response

/-- The written form; a missing result or error is left out. -/
def toValue (response : Response) : Value :=
  .object ([("id", .string response.id)] ++
    optionalMember "result" (fun value => value) response.result ++
    optionalMember "error" ErrorInfo.toValue response.error)

/-- The fields. -/
def record : Record Response :=
  Record.pure Response.mk
    |>.field "id" Decoder.string
    |>.optionalField "result" Decoder.value
    |>.optionalField "error" ErrorInfo.decode

/-- Reads a response. -/
def decode : Decoder Response := record.decode "struct DaemonResponse"

/-- A success. -/
def ok (id : String) (result : Value) : Response :=
  { id := id, result := some result }

/-- A failure. -/
def failed (id : String) (error : ErrorInfo) : Response :=
  { id := id, error := some error }

end Response

end Scan
