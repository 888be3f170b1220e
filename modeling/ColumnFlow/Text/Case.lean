import ColumnFlow.Text.CaseTable

/-!
# Letter case

Lower and upper case map one character to one character. Folding comes in two forms: simple folding keeps
the length and decides whether two words are spelled alike; full folding may lengthen a text and gives the
keys under which names are compared.
-/

namespace ColumnFlow.Text

/-- Shift an ASCII letter, and look every other character up. -/
private def mapCase (isSource : Char → Bool) (shift : Int) (runs : List CaseRun) (c : Char) : Char :=
  if c.toNat < 0x80 then
    if isSource c then Char.ofNat (c.toNat + shift).toNat else c
  else Char.ofNat (CaseRun.image runs c.toNat)

def lowerChar (c : Char) : Char := mapCase Char.isUpper 32 lowerRuns c

def upperChar (c : Char) : Char := mapCase Char.isLower (-32) upperRuns c

/-- One representative for all characters that differ in case only. -/
def simpleFold (c : Char) : Char := mapCase Char.isUpper 32 (foldRuns ++ laterFoldRuns) c

/-- Full folding of one character: `ß` becomes `ss`. -/
def fullFold (c : Char) : List Char :=
  let single := mapCase Char.isUpper 32 (tradedRuns ++ foldRuns) c
  if c.toNat < 0x80 then [single]
  else match longFolds.lookup c.toNat with
    | some codes => codes.map Char.ofNat
    | none => [single]

def lower (s : String) : String := s.map lowerChar

def upper (s : String) : String := s.map upperChar

/-- The key under which a name is compared without regard to case. -/
def fold (s : String) : String := String.ofList (s.toList.flatMap fullFold)

/-- Whether two words are spelled alike up to case, character by character. -/
def equalFold (s t : String) : Bool := s.toList.map simpleFold == t.toList.map simpleFold

end ColumnFlow.Text
