import Adventure.Text.Lines

/-!
# Windows

What a viewer has to show stands in a window, which somebody else draws. All that the viewer relies
on is told here: a window is given a content, it is moved and gets other sizes, and whatever is done
to it, it holds the lines of the content that it was given last.
-/

namespace Adventure

/-- A kind of window on a content, and the style of error messages in it. -/
class Window (ω : Type) where
  /-- a window on nothing -/
  ofSize : (width : Int) → (height : Nat) → ω
  /-- the window in another size -/
  resize : ω → (width : Int) → (height : Nat) → ω
  /-- the window at the first line -/
  toTop : ω → ω
  /-- the window at the last line -/
  toBottom : ω → ω
  /-- the window on another content -/
  setContent : ω → String → ω
  /-- what the window shows -/
  view : ω → String
  /-- an error message in the style of such messages -/
  styled : String → String
  /-- the lines of the content -/
  lines : ω → List (List Char)
  lines_ofSize : ∀ width height, lines (ofSize width height) = []
  lines_resize : ∀ w width height, lines (resize w width height) = lines w
  lines_toTop : ∀ w, lines (toTop w) = lines w
  lines_toBottom : ∀ w, lines (toBottom w) = lines w
  lines_setContent : ∀ w content, lines (setContent w content) = Text.lines content.toList

end Adventure
