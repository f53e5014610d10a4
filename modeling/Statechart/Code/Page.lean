import Statechart.Text.Lines

/-!
# Pages of generated source

A page takes text piece by piece and looks after indentation, braces and blank lines. A line is
indented by the number of open blocks when it is started. A wanted blank line is written only before
more text of the same block, never at the start of the page and never twice in a row.
-/

namespace Statechart

/-- The texts used for one level of indentation and for a line break. -/
structure Style where
  indent : String := "    "
  newline : String := "\n"
deriving DecidableEq, Repr

/-- A page in the making. -/
structure Page where
  style : Style := {}
  /-- The characters written so far, latest first. -/
  written : List Char := []
  /-- The number of open blocks. -/
  level : Nat := 0
  /-- Whether the last line is still open. -/
  midLine : Bool := false
  /-- Whether a blank line is to come before the next line of this block. -/
  blankWanted : Bool := false
deriving DecidableEq, Repr

namespace Page

/-- The text of the page. -/
def text (p : Page) : String := String.ofList p.written.reverse

/-- Write characters as they are. -/
def put (p : Page) (cs : List Char) : Page := { p with written := cs.reverse ++ p.written }

/-- Whether the page is empty or its last line is blank. -/
def endsBlank (p : Page) : Bool :=
  p.written.isEmpty || (p.style.newline ++ p.style.newline).toList.reverse.isPrefixOf p.written

/-- Write the wanted blank line, unless there is one already. -/
def settleBlank (p : Page) : Page :=
  if p.blankWanted then
    let settled := { p with blankWanted := false }
    if p.endsBlank then settled else settled.put p.style.newline.toList
  else p

/-- End the open line. -/
def endLine (p : Page) : Page := { p.put p.style.newline.toList with midLine := false }

/-- Open a line at the current indentation, unless one is open. -/
def startLine (p : Page) : Page :=
  if p.midLine then p
  else
    { p.settleBlank.put (List.replicate p.level p.style.indent.toList).flatten with
      midLine := true }

/-- Add text to the open line, starting one if there is none. -/
def append (p : Page) (cs : List Char) : Page := p.startLine.put cs

/-- Add text and end the line. An empty text on no open line gives a blank line. -/
def appendLine (p : Page) (cs : List Char) : Page :=
  if cs.isEmpty && !p.midLine then { p with blankWanted := false }.endLine
  else (p.append cs).endLine

/-- Add every line of a text, freed of their common indentation; fails when the indentation of one
line would be cut inside a character. -/
def appendLines (p : Page) (cs : List Char) : Option Page :=
  (Text.dedent cs).map fun ls => ls.foldl appendLine p

/-- Add text and end the line, if there is one. -/
def finishLine (p : Page) (cs : List Char) : Page :=
  let p := if cs.isEmpty then p else p.append cs
  if p.midLine then p.endLine else p

/-- Open a block, on the open line if there is one. -/
def openBlock (p : Page) : Page :=
  let p := if p.midLine then (p.put [' ', '{']).endLine else p.appendLine ['{']
  { p with level := p.level + 1, blankWanted := false }

/-- Close the innermost block and write `trailing` behind its brace. -/
def closeBlock (p : Page) (trailing : List Char) : Page :=
  let p := if p.midLine then p.endLine else p
  let p := { p with level := p.level - 1, blankWanted := false }
  ((p.append ['}']).append trailing).endLine

/-- Ask for a blank line before more text of this block. -/
def wantBlank (p : Page) : Page := { p with blankWanted := true }

end Page

end Statechart
