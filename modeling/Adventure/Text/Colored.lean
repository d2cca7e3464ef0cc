/-!
# Coloured text

Complaints stand out on a terminal when control sequences around them turn their colour on and off
again.
-/

namespace Adventure.Text

/-- The sequence that selects how text is shown from here on. -/
def rendition (code : String) : String :=
  "\x1b[" ++ code ++ "m"

/-- The text, shown as `code` says. -/
def rendered (code text : String) : String :=
  rendition code ++ text ++ rendition "0"

/-- The text in red. -/
def red (text : String) : String :=
  rendered "31" text

/-- The text in bold red. -/
def boldRed (text : String) : String :=
  rendered "31;1" text

end Adventure.Text
