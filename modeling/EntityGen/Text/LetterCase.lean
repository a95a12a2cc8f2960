import EntityGen.Text.CaseTables

/-!
# Upper and lower case

The case of every character, by the Unicode tables and without regard to the
characters around it. A capital may take several characters: that of `ß` is `SS`.
-/

namespace EntityGen.Text

def inRuns (runs : List Run) (c : Char) : Bool :=
  runs.any (·.contains c.toNat)

def isUppercase (c : Char) : Bool :=
  if c.toNat < 128 then c.isUpper else inRuns uppercaseRuns c

def isLowercase (c : Char) : Bool :=
  if c.toNat < 128 then c.isLower else inRuns lowercaseRuns c

def mapped (expansions : List (Nat × List Nat)) (shifts : List Shift) (c : Char) : List Char :=
  match expansions.lookup c.toNat with
  | some codes => codes.map Char.ofNat
  | none =>
    match shifts.find? (·.run.contains c.toNat) with
    | some shift => [Char.ofNat ((c.toNat : Int) + shift.offset).toNat]
    | none => [c]

def toUppercase (c : Char) : List Char :=
  if c.toNat < 128 then [c.toUpper] else mapped toUppercaseExpansions toUppercaseShifts c

def toLowercase (c : Char) : List Char :=
  if c.toNat < 128 then [c.toLower] else mapped toLowercaseExpansions toLowercaseShifts c

end EntityGen.Text
