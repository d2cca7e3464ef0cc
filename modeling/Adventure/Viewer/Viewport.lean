import Adventure.Display.Block
import Adventure.Viewer.Window

/-!
# Viewports

A viewport shows as many lines of a content as its height allows, from an offset on. It is the kind
of window that a terminal has.
-/

namespace Adventure

/-- A window on a content. -/
structure Viewport where
  width : Int
  height : Nat
  /-- how many lines of the content are above the window -/
  offset : Nat
  /-- the lines of the content -/
  lines : List (List Char)
  deriving DecidableEq, Repr

namespace Viewport

/-- A window on nothing. -/
def ofSize (width : Int) (height : Nat) : Viewport :=
  ⟨width, height, 0, []⟩

/-- The window of another size. The offset stays. -/
def resize (v : Viewport) (width : Int) (height : Nat) : Viewport :=
  { v with width, height }

/-- The window at the first line. -/
def toTop (v : Viewport) : Viewport :=
  { v with offset := 0 }

/-- The window at the last line. -/
def toBottom (v : Viewport) : Viewport :=
  { v with offset := v.lines.length - v.height }

/-- The window on another content. It moves only if there is nothing left to see at its offset. -/
def setContent (v : Viewport) (content : String) : Viewport :=
  let v := { v with lines := Text.lines content.toList }
  if v.lines.length ≤ v.offset then v.toBottom else v

/-- The lines in the window. -/
def visible (v : Viewport) : List (List Char) :=
  (v.lines.drop v.offset).take v.height

/-- The text in the window. Line ends are told once more, as a carriage return at the end of a line
is one with the line feed that joins it to the next. -/
def text (v : Viewport) : List UInt8 :=
  Display.bytesOf (Text.lines (Display.untabbed (['\n'].intercalate v.visible)))

/-- What the window shows: as many rows as it is high, each as wide as the window. Lines that are
too long are wrapped, and what does not fit is cut off at the bottom. A window without a width
shows its lines as they are. -/
def view (v : Viewport) : String :=
  let width := v.width.toNat
  let rows := Display.rowsOf (if width = 0 then v.text else Display.wrapped width v.text)
  let rows := Display.block width (rows ++ .replicate (v.height - rows.length) [])
  Display.shown ((if width = 0 then rows else rows.map (Display.fitting width)).take v.height)

theorem lines_setContent (v : Viewport) (content : String) :
    (v.setContent content).lines = Text.lines content.toList := by
  unfold setContent
  dsimp only
  split <;> rfl

instance : Window Viewport where
  ofSize := ofSize
  resize := resize
  toTop := toTop
  toBottom := toBottom
  setContent := setContent
  view := view
  styled := Display.framed
  lines := lines
  lines_ofSize _ _ := rfl
  lines_resize _ _ _ := rfl
  lines_toTop _ := rfl
  lines_toBottom _ := rfl
  lines_setContent := lines_setContent

end Viewport

end Adventure
