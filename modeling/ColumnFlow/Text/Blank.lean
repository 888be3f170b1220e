/-!
# White space

The characters that separate words, in the sense of the Unicode property of that name: among them the next
line control U+0085, the no-break space U+00A0 and the ideographic space U+3000.
-/

namespace ColumnFlow.Text

def isBlank (c : Char) : Bool :=
  let n := c.toNat
  (9 ≤ n && n ≤ 13) || n == 0x20 || n == 0x85 || n == 0xA0 || n == 0x1680 || (0x2000 ≤ n && n ≤ 0x200A)
    || n == 0x2028 || n == 0x2029 || n == 0x202F || n == 0x205F || n == 0x3000

/-- The text without blanks at its two ends. -/
def trim (s : String) : String :=
  String.ofList (((s.toList.dropWhile isBlank).reverse.dropWhile isBlank).reverse)

/-- Cut a text into the runs of characters between those for which `isGap` holds. -/
def cutRuns (isGap : Char → Bool) : List Char → List (List Char)
  | [] => []
  | c :: rest =>
    if isGap c then cutRuns isGap rest
    else match rest with
      | [] => [[c]]
      | d :: _ =>
        match isGap d, cutRuns isGap rest with
        | false, run :: runs => (c :: run) :: runs
        | _, runs => [c] :: runs

/-- The words of a text, without the blanks between them. -/
def words (s : String) : List String := (cutRuns isBlank s.toList).map String.ofList

end ColumnFlow.Text
