import ColumnFlow.Text.Cluster

/-!
# Text on a terminal

A terminal does not show everything it is sent: an escape character starts a control sequence, which goes on
until it is complete. `shownWidth` counts the cells that the rest takes, cluster by cluster.

Control sequences are made of bytes. A character beyond ASCII breaks most of them off; only the texts of a device
or system command may hold such characters, and end at the byte of a string terminator.
-/

namespace ColumnFlow.Text

/-- Where in a control sequence a terminal is. -/
inductive ControlMode where
  /-- Text is shown. -/
  | shown
  | escape | escapeMiddle
  | sequenceStart | sequenceParameters | sequenceMiddle
  | deviceStart | deviceParameters | deviceMiddle | deviceText
  | systemText
  /-- The text of a message that is ignored. -/
  | ignoredText
  deriving DecidableEq, Repr

namespace ControlMode

/-- Bytes below the blank that start or end nothing. -/
def isPlainControl (b : Nat) : Bool := b < 0x20 && b != 0x18 && b != 0x1A && b != 0x1B

/-- The mode after a byte that means the same everywhere. -/
def anywhere (b : Nat) : ControlMode :=
  if b == 0x1B then .escape
  else if b == 0x90 then .deviceStart
  else if b == 0x9B then .sequenceStart
  else if b == 0x9D then .systemText
  else if b == 0x98 || b == 0x9E || b == 0x9F then .ignoredText
  else .shown

/-- The mode after the byte that follows an escape character. -/
def afterEscape (b : Nat) : ControlMode :=
  if b == 0x50 then .deviceStart
  else if b == 0x5B then .sequenceStart
  else if b == 0x5D then .systemText
  else if b == 0x58 || b == 0x5E || b == 0x5F then .ignoredText
  else .shown

/-- The mode after a byte. -/
def next (mode : ControlMode) (b : Nat) : ControlMode :=
  let isMiddle := 0x20 ≤ b && b ≤ 0x2F
  let isParameter := 0x30 ≤ b && b ≤ 0x3F
  let isFinal := 0x40 ≤ b && b ≤ 0x7E
  match mode with
  | .shown => anywhere b
  | .escape =>
    if isPlainControl b || b == 0x7F then .escape
    else if isMiddle then .escapeMiddle
    else if isParameter || isFinal then afterEscape b
    else anywhere b
  | .escapeMiddle => if isPlainControl b || isMiddle || b == 0x7F then .escapeMiddle else anywhere b
  | .sequenceStart =>
    if isPlainControl b || b == 0x7F then .sequenceStart
    else if isMiddle then .sequenceMiddle
    else if isParameter then .sequenceParameters
    else anywhere b
  | .sequenceParameters =>
    if isPlainControl b || isParameter || b == 0x7F then .sequenceParameters
    else if isMiddle then .sequenceMiddle
    else anywhere b
  | .sequenceMiddle => if isPlainControl b || isMiddle || b == 0x7F then .sequenceMiddle else anywhere b
  | .deviceStart =>
    if (0x08 ≤ b && b ≤ 0x0D) || b == 0x1B || isFinal then .deviceText
    else if isPlainControl b || b == 0x7F then .deviceStart
    else if isMiddle then .deviceMiddle
    else if isParameter then .deviceParameters
    else anywhere b
  | .deviceParameters =>
    if isPlainControl b || isParameter || b == 0x7F then .deviceParameters
    else if isMiddle then .deviceMiddle
    else if isFinal then .deviceText
    else anywhere b
  | .deviceMiddle =>
    if isPlainControl b || isMiddle || b == 0x7F then .deviceMiddle
    else if isParameter || isFinal then .deviceText
    else anywhere b
  | .deviceText => if isPlainControl b || (0x20 ≤ b && b != 0x9C) then .deviceText else anywhere b
  | .systemText =>
    if (isPlainControl b && b != 0x07) || (0x20 ≤ b && b != 0x9C) then .systemText else anywhere b
  | .ignoredText => if isPlainControl b || (0x20 ≤ b && b ≤ 0x7F) then .ignoredText else anywhere b

/-- Whether a character beyond ASCII belongs to the text of a command. -/
def takesText : ControlMode → Bool
  | .deviceText | .systemText => true
  | _ => false

end ControlMode

/-- What a terminal has shown so far. -/
structure Shown where
  mode : ControlMode := .shown
  /-- The cells of complete clusters. -/
  cells : Nat := 0
  /-- The cluster that may go on. -/
  cluster : Option Cluster := none

namespace Shown

def width (s : Shown) : Nat := s.cells + (s.cluster.map (·.width)).getD 0

/-- A character that does not belong to the cluster before it. -/
def start (s : Shown) (c : Char) : Shown :=
  let n := c.toNat
  if n < 0x80 then
    let isPrinted := s.mode == .shown && 0x20 ≤ n && n < 0x7F
    { mode := s.mode.next n, cells := s.width + (if isPrinted then 1 else 0) }
  else if s.mode.takesText then
    { mode := c.toString.toUTF8.toList.foldl (fun mode b => mode.next b.toNat) s.mode, cells := s.width }
  else { cells := s.width, cluster := some (.ofChar c) }

/-- The next character. -/
def next (s : Shown) (c : Char) : Shown :=
  match s.cluster.bind (·.add? c) with
  | some cluster => { s with cluster := some cluster }
  | none => s.start c

end Shown

/-- How many cells a text takes on a terminal. -/
def shownWidth (cs : List Char) : Nat := (cs.foldl Shown.next {}).width

end ColumnFlow.Text
