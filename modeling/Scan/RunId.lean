/-!
# Names of runs

Every run has a name of its own, made of random bytes and written in five groups of hexadecimal
digits. Two of its digits tell how it was made.
-/

namespace Scan

/-- A byte as two hexadecimal digits. -/
def hexByte (byte : UInt8) : List Char :=
  [Nat.digitChar (byte.toNat / 16), Nat.digitChar (byte.toNat % 16)]

/-- The name that sixteen random bytes make. -/
def runId (bytes : List UInt8) : String :=
  let marked := (bytes.modify 6 fun byte => byte &&& 0x0F ||| 0x40).modify 8
    fun byte => byte &&& 0x3F ||| 0x80
  let digits := marked.flatMap hexByte
  let group (start length : Nat) : String := String.ofList ((digits.drop start).take length)
  "-".intercalate [group 0 8, group 8 4, group 12 4, group 16 4, group 20 12]

end Scan
