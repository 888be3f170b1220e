import ColumnFlow.Text.ClusterTable
import ColumnFlow.Text.CodeRanges
import ColumnFlow.Text.WidthTable

/-!
# Clusters

What a reader takes for one character may be several in the text: a letter with its marks, the parts of a Korean
syllable, two letters that name a flag, pictographs tied by joiners. Such a cluster is read from left to right;
the state after some of its characters says which one may follow. The width of a cluster is that of its first
character, and of further ones where they take a place of their own.
-/

namespace ColumnFlow.Text

/-- What a character does in a cluster. -/
inductive ClusterClass where
  | other | carriageReturn | lineFeed | control | extend | joiner | spacing | leading
  | flagLetter | pictograph
  /-- Parts of Korean syllables: first consonant, vowel, last consonant. -/
  | first | vowel | last
  /-- Korean syllables without and with a last consonant. -/
  | openSyllable | closedSyllable
  deriving DecidableEq, Repr

namespace ClusterClass

def ofChar (c : Char) : ClusterClass :=
  let n := c.toNat
  if 0x20 ≤ n && n < 0x7F then .other
  else if n == 0x0D then .carriageReturn
  else if n == 0x0A then .lineFeed
  else if inRanges controlRanges n then .control
  else if n == 0x200D then .joiner
  else if inRanges extendRanges n then .extend
  else if inRanges spacingRanges n then .spacing
  else if inRanges leadingRanges n then .leading
  else if 0x1F1E6 ≤ n && n ≤ 0x1F1FF then .flagLetter
  else if inRanges pictographRanges n then .pictograph
  else if (0x1100 ≤ n && n ≤ 0x115F) || (0xA960 ≤ n && n ≤ 0xA97C) then .first
  else if (0x1160 ≤ n && n ≤ 0x11A7) || (0xD7B0 ≤ n && n ≤ 0xD7C6) then .vowel
  else if (0x11A8 ≤ n && n ≤ 0x11FF) || (0xD7CB ≤ n && n ≤ 0xD7FB) then .last
  else if 0xAC00 ≤ n && n ≤ 0xD7A3 then if (n - 0xAC00) % 28 == 0 then .openSyllable else .closedSyllable
  else .other

/-- Whether a character of the class goes on with whatever is before it. -/
def attaches : ClusterClass → Bool
  | .extend | .joiner | .spacing => true
  | _ => false

/-- Whether a character of the class is always alone. -/
def isAlone : ClusterClass → Bool
  | .carriageReturn | .lineFeed | .control => true
  | _ => false

end ClusterClass

/-- What the characters of a cluster so far leave open. -/
inductive ClusterState where
  | other | carriageReturn | control | leading | pictograph | tiedPictograph | oneFlagLetter | twoFlagLetters
  /-- A Korean syllable after a first consonant, a vowel, a last consonant. -/
  | afterFirst | afterVowel | afterLast
  deriving DecidableEq, Repr

namespace ClusterState

/-- The state after a character at the start of a cluster. -/
def ofClass : ClusterClass → ClusterState
  | .carriageReturn => .carriageReturn
  | .lineFeed | .control => .control
  | .leading => .leading
  | .flagLetter => .oneFlagLetter
  | .pictograph => .pictograph
  | .first => .afterFirst
  | .vowel | .openSyllable => .afterVowel
  | .last | .closedSyllable => .afterLast
  | .other | .extend | .joiner | .spacing => .other

/-- The state after a further character, if that belongs to the cluster. -/
def next? (s : ClusterState) (c : ClusterClass) : Option ClusterState :=
  match s, c with
  | .carriageReturn, .lineFeed => some .control
  | .carriageReturn, _ | .control, _ => none
  | .afterFirst, .first => some .afterFirst
  | .afterFirst, .vowel | .afterFirst, .openSyllable | .afterVowel, .vowel => some .afterVowel
  | .afterFirst, .closedSyllable | .afterVowel, .last | .afterLast, .last => some .afterLast
  | .pictograph, .extend => some .pictograph
  | .pictograph, .joiner => some .tiedPictograph
  | .tiedPictograph, .pictograph => some .pictograph
  | .oneFlagLetter, .flagLetter => some .twoFlagLetters
  | .leading, c => if c.isAlone then none else some (ofClass c)
  | _, c => if c.attaches then some (ofClass c) else none

end ClusterState

/-- The width of a character in a cluster. -/
def glyphWidth (c : Char) : Nat :=
  let n := c.toNat
  match ClusterClass.ofChar c with
  | .control | .carriageReturn | .lineFeed | .extend | .joiner => 0
  | .flagLetter => 2
  | .pictograph => if inRanges colouredRanges n then 2 else 1
  | _ =>
    if n == 0x2E3A then 3
    else if n == 0x2E3B then 4
    else if inRanges wideRanges n then 2
    else 1

/-- A cluster as far as it is read. -/
structure Cluster where
  first : ClusterClass
  state : ClusterState
  width : Nat
  deriving DecidableEq, Repr

namespace Cluster

def ofChar (c : Char) : Cluster :=
  let kind := ClusterClass.ofChar c
  { first := kind, state := .ofClass kind, width := glyphWidth c }

/-- The width after a further character. A pictograph is as wide as a selector after it says, and flags and
Korean syllables are as wide as their first part. -/
def widen (cluster : Cluster) (c : Char) : Nat :=
  match cluster.first with
  | .pictograph => if c == '\ufe0e' then 1 else if c == '\ufe0f' then 2 else cluster.width
  | .flagLetter | .first => cluster.width
  | _ => cluster.width + glyphWidth c

/-- The cluster with a further character, if that belongs to it. -/
def add? (cluster : Cluster) (c : Char) : Option Cluster :=
  (cluster.state.next? (.ofChar c)).map fun state => { cluster with state, width := cluster.widen c }

end Cluster

end ColumnFlow.Text
