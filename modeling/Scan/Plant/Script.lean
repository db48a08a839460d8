import Scan.Error
import Scan.Table

/-!
# Scripted plants

A plant that plays prepared answers: each channel has a list of what its next reads and writes come
to. When a list is used up, reads find the value and writes set it.
-/

namespace Scan

/-- A channel with prepared answers. -/
structure ScriptedChannel (α : Type) where
  value : α
  /-- Whether writes leave the value alone. -/
  stuck : Bool := false
  reads : List (Except IoError α) := []
  /-- What goes wrong with the next writes. -/
  writes : List (Option IoError) := []

/-- Channels with prepared answers, by name. -/
structure Script (α : Type) where
  channels : Table (ScriptedChannel α) := []

namespace Script

variable {α : Type}

/-- The answer to a read, and what is left. A prepared answer says nothing of the value. -/
def read (script : Script α) (name : String) : Except IoError α × Script α :=
  match script.channels.get? name with
  | none => (.error (.unknownChannel name), script)
  | some channel =>
      match channel.reads with
      | [] => (.ok channel.value, script)
      | answer :: rest =>
          (answer, { channels := script.channels.insert name { channel with reads := rest } })

/-- The answer to a write, and what is left. A write that fails changes no value. -/
def write (script : Script α) (name : String) (value : α) : Except IoError Unit × Script α :=
  match script.channels.get? name with
  | none => (.error (.unknownChannel name), script)
  | some channel =>
      let left := { channel with writes := channel.writes.tail }
      match channel.writes.head?.join with
      | some error => (.error error, { channels := script.channels.insert name left })
      | none =>
          let value := if channel.stuck then channel.value else value
          (.ok (), { channels := script.channels.insert name { left with value := value } })

end Script

end Scan
