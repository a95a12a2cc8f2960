import EntityGen.Decimal.Read
import EntityGen.Emit.Error
import EntityGen.Text.Parts

/-!
# Versions

A version is a list of numbers between dots. Missing numbers count as zero.
-/

namespace EntityGen.Emit

def readVersion? (text : String) : Option (List Nat) :=
  (Text.parts '.' text).mapM Decimal.readNat?

def readVersion (text : String) : Except Error (List Nat) :=
  match readVersion? text with
  | some version => .ok version
  | none => .error (.invalidVersion text)

/-- The first place at which two versions differ decides. -/
def compareVersions : List Nat → List Nat → Ordering
  | [], v => if v.all (· = 0) then .eq else .lt
  | n :: v, v' => (compare n (v'.headD 0)).then (compareVersions v v'.tail)

end EntityGen.Emit
