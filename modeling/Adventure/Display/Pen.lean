import Adventure.Display.Element

/-!
# Pens and links

What follows a sequence for the pen is drawn with that pen, until another sequence changes it. When
a text is broken into rows, every row is begun with the sequence of its pen, so that each can be
shown by itself. The same holds for links.
-/

namespace Adventure.Display

/-- A colour. -/
inductive Colour where
  /-- one of the sixteen colours that have names -/
  | basic (n : Nat)
  /-- a colour by its number in the palette -/
  | indexed (n : Nat)
  | rgb (red green blue : Nat)
  deriving DecidableEq, Repr

/-- How text is underlined. -/
inductive Underline where
  | none | single | double | curly | dotted | dashed
  deriving DecidableEq, Repr

/-- How text is drawn. -/
structure Pen where
  bold : Bool
  faint : Bool
  italic : Bool
  slowBlink : Bool
  rapidBlink : Bool
  reversed : Bool
  concealed : Bool
  struck : Bool
  underline : Underline
  foreground : Option Colour
  background : Option Colour
  underlineColour : Option Colour
  deriving DecidableEq, Repr

namespace Colour

/-- The colour of the given amounts of cyan, magenta, yellow and black ink, each at most 255. -/
def ofInks (cyan magenta yellow black : Nat) : Colour :=
  let light := 0xFFFF - black * 0x101
  let part (ink : Nat) : Nat :=
    let v := (0xFFFF - ink * 0x101) * light / 0xFFFF
    if 0xFF < v then v / 0x100 else v
  .rgb (part cyan) (part magenta) (part yellow)

/-- Where the parts of a colour stand among parameters: how many parameters there are in all, the
place of the first part, and whether there is a fourth. With colons, a colour space may come before
the parts and tolerances after them; without, there are just three parts. -/
structure Place where
  count : Nat
  first : Nat
  fourth : Bool

/-- The place of the parts of a colour of the given kind. -/
def place? (kind : Nat) (ps : List Parameter) : Option Place :=
  let run := (ps.takeWhile Parameter.more).length
  if 8 < ps.length && 8 ≤ run then some ⟨9, 3, true⟩
  else if 7 < ps.length && 7 ≤ run then some ⟨8, 3, true⟩
  else if 6 < ps.length && 6 ≤ run then some ⟨7, 3, true⟩
  else if 5 < ps.length && run = 5 then some ⟨6, 3, false⟩
  else if kind = 2 && run = 4 then some ⟨5, 2, false⟩
  else if kind = 2 && !(ps.take 5).any Parameter.more then some ⟨5, 2, false⟩
  else none

/-- The value of the parameter at a place, as a byte. -/
def byteAt (ps : List Parameter) (n : Nat) : Nat :=
  ((ps[n]?.map Parameter.value).getD 0) % 0x100

/-- The colour at the front of the parameters of a pen, which begin with what is to be coloured and
the kind of the colour: how many parameters tell it, and the colour, if it is not the default. -/
def ofParameters? (ps : List Parameter) : Option (Nat × Option Colour) :=
  let part := byteAt ps
  match ps with
  | target :: kind :: _ =>
    if kind.value = 0 then some (2, none)
    else if kind.value = 1 then some (2, some (.rgb 0 0 0))
    else if kind.value = 2 && 5 ≤ ps.length then
      (place? 2 ps).map fun p =>
        (p.count, some (.rgb (part p.first) (part (p.first + 1)) (part (p.first + 2))))
    else if kind.value = 3 && 5 ≤ ps.length then
      (place? 3 ps).map fun p =>
        (p.count, some (ofInks (part p.first) (part (p.first + 1)) (part (p.first + 2)) 0))
    else if kind.value = 4 && 6 ≤ ps.length then
      ((place? 4 ps).filter Place.fourth).map fun p =>
        (p.count, some (ofInks (part p.first) (part (p.first + 1)) (part (p.first + 2))
          (part (p.first + 3))))
    else if kind.value = 5 then
      match ps[2]? with
      | none => none
      | some index =>
        if target.more = kind.more && !index.more then some (3, some (.indexed (part 2))) else none
    else if kind.value = 6 && 6 ≤ ps.length then
      ((place? 6 ps).filter Place.fourth).map fun p =>
        (p.count, some (.rgb (part p.first) (part (p.first + 1)) (part (p.first + 2))))
    else none
  | _ => none

/-- A colour in the palette. -/
def spelledIndex (target n : Nat) : String :=
  toString target ++ ";5;" ++ toString n

/-- A colour by its parts. -/
def spelledParts (target red green blue : Nat) : String :=
  toString target ++ ";2;" ++ toString red ++ ";" ++ toString green ++ ";" ++ toString blue

/-- The parameters that set the colour of what `target` stands for, where the basic colours are
numbered from `basic` and `bright` on. -/
def spelled (target basic bright : Nat) : Colour → String
  | .basic n => toString (if n < 8 then basic + n else bright + (n - 8))
  | .indexed n => spelledIndex target n
  | .rgb red green blue => spelledParts target red green blue

/-- The parameters that set the colour of the underline, for which basic colours have no numbers of
their own. -/
def spelledUnderline : Colour → String
  | .basic n => spelledIndex 58 n
  | .indexed n => spelledIndex 58 n
  | .rgb red green blue => spelledParts 58 red green blue

end Colour

namespace Underline

/-- The underline with the given number. -/
def ofNumber? : Nat → Option Underline
  | 0 => some .none
  | 1 => some .single
  | 2 => some .double
  | 3 => some .curly
  | 4 => some .dotted
  | 5 => some .dashed
  | _ => Option.none

/-- The parameters that set an underline. -/
def spelled : Underline → List String
  | .none => []
  | .single => ["4"]
  | .double => ["4:2"]
  | .curly => ["4:3"]
  | .dotted => ["4:4"]
  | .dashed => ["4:5"]

end Underline

namespace Pen

/-- The pen that text is drawn with unless it says otherwise. -/
def plain : Pen :=
  ⟨false, false, false, false, false, false, false, false, .none, none, none, none⟩

/-- The pen after the parameter `n`, which has a meaning by itself. -/
def apply (p : Pen) (n : Nat) : Pen :=
  match n with
  | 0 => plain
  | 1 => { p with bold := true }
  | 2 => { p with faint := true }
  | 3 => { p with italic := true }
  | 4 => { p with underline := .single }
  | 5 => { p with slowBlink := true }
  | 6 => { p with rapidBlink := true }
  | 7 => { p with reversed := true }
  | 8 => { p with concealed := true }
  | 9 => { p with struck := true }
  | 22 => { p with bold := false, faint := false }
  | 23 => { p with italic := false }
  | 24 => { p with underline := .none }
  | 25 => { p with slowBlink := false, rapidBlink := false }
  | 27 => { p with reversed := false }
  | 28 => { p with concealed := false }
  | 29 => { p with struck := false }
  | 39 => { p with foreground := none }
  | 49 => { p with background := none }
  | 59 => { p with underlineColour := none }
  | n =>
    if 30 ≤ n && n ≤ 37 then { p with foreground := some (.basic (n - 30)) }
    else if 40 ≤ n && n ≤ 47 then { p with background := some (.basic (n - 40)) }
    else if 90 ≤ n && n ≤ 97 then { p with foreground := some (.basic (n - 82)) }
    else if 100 ≤ n && n ≤ 107 then { p with background := some (.basic (n - 92)) }
    else p

/-- The pen with a colour for what the parameter `target` stands for. -/
def paint (p : Pen) (target : Nat) (c : Option Colour) : Pen :=
  if target = 38 then { p with foreground := c }
  else if target = 48 then { p with background := c }
  else { p with underlineColour := c }

/-- The pen after the parameters at the front of `q :: qs`, and how many of `qs` belong to `q`. -/
def step (p : Pen) (q : Parameter) (qs : List Parameter) : Pen × Nat :=
  if q.value = 38 || q.value = 48 || q.value = 58 then
    match Colour.ofParameters? (q :: qs) with
    | none => (p, 0)
    | some (count, c) => (p.paint q.value c, count - 1)
  else if q.value = 4 && q.more then
    match qs with
    | [] => (p.apply 4, 0)
    | kind :: _ =>
      match Underline.ofNumber? kind.value with
      | none => (p, 0)
      | some underline => ({ p with underline }, 1)
  else (p.apply q.value, 0)

/-- The pen after the parameters of a sequence. -/
def applyAll (p : Pen) : List Parameter → Pen
  | [] => p
  | q :: qs =>
    let (p, more) := p.step q qs
    p.applyAll (qs.drop more)
termination_by qs => qs.length
decreasing_by simp only [List.length_drop, List.length_cons]; omega

/-- The parameters that set a pen. -/
def spelled (p : Pen) : List String :=
  let switch (on : Bool) (s : String) : List String := if on then [s] else []
  switch p.bold "1" ++ switch p.faint "2" ++ switch p.italic "3" ++ switch p.slowBlink "5" ++
    switch p.rapidBlink "6" ++ switch p.reversed "7" ++ switch p.concealed "8" ++
    switch p.struck "9" ++ p.underline.spelled ++
    p.foreground.toList.map (Colour.spelled 38 30 90) ++
    p.background.toList.map (Colour.spelled 48 40 100) ++
    p.underlineColour.toList.map Colour.spelledUnderline

/-- The sequence with the given parameters. -/
def sequence (parameters : List String) : List UInt8 :=
  escapeByte :: 0x5B :: Text.encodeUtf8 (";".intercalate parameters ++ "m").toList

/-- What begins to draw with a pen. -/
def begin (p : Pen) : List UInt8 :=
  if p = plain then [] else sequence p.spelled

/-- What ends to draw with a pen. -/
def finish (p : Pen) : List UInt8 :=
  if p = plain then [] else sequence []

end Pen

/-- A link. -/
structure Link where
  /-- what is said about it beside its address -/
  remarks : List UInt8
  address : List UInt8
  deriving DecidableEq, Repr

namespace Link

/-- The link of text that is no link. -/
def none : Link := ⟨[], []⟩

/-- The link that the data of a sequence set: after the number of the command come the remarks and
the address. Other data change nothing. -/
def read (l : Link) (data : List UInt8) : Link :=
  match parts 0x3B data with
  | [_, remarks, address] => ⟨remarks, address⟩
  | _ => l

/-- The sequence that sets a link. -/
def sequence (l : Link) : List UInt8 :=
  [escapeByte, 0x5D, 0x38, 0x3B] ++ l.remarks ++ 0x3B :: l.address ++ [0x07]

/-- What begins a link. -/
def begin (l : Link) : List UInt8 :=
  if l = none then [] else l.sequence

/-- What ends a link. -/
def finish (l : Link) : List UInt8 :=
  if l = none then [] else none.sequence

end Link

end Adventure.Display
