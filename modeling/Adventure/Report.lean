import Adventure.ProgramFile
import Adventure.Text.JsonString

/-!
# Reports

The report on a program that is handed over as text and run once: what it has shown, and why it
ended if it did not end by itself. A report is written as a JSON object without blanks.
-/

namespace Adventure

/-- What came of a program. -/
structure Report where
  outputs : List Output
  /-- why the program ended before its end -/
  error : Option String
  /-- the kind of the run-time error among the reasons -/
  kind : Option FaultKind
  deriving DecidableEq, Repr

namespace Report

/-- Runs the program that a text holds. Dice that are not seeded come from `fresh`. There is no
report if the run does not end within `steps`. -/
def ofText (steps : Nat) (fresh : Generator) (seed : Int64) (text : List Char) : Option Report :=
  if (Text.trimmed text).isEmpty then some ⟨[], some "no source provided", none⟩
  else
    match Machine.ofSource (.ofChars text none) fresh with
    | .error e => some ⟨[], some ("compile: " ++ e.message), e.faultKind?⟩
    | .ok m =>
      match (if seed = 0 then m else m.reseed seed).run steps with
      | .done _ m => some ⟨m.outputs, none, none⟩
      | .failed e m => some ⟨m.outputs, some ("runtime: " ++ e.message), some e.fault.kind⟩
      | .unfinished => none

/-- An output as a JSON object. -/
def outputJson (o : Output) : String :=
  "\x7b\"Text\":" ++ Text.jsonString o.text ++ ",\"NewLine\":" ++
    (if o.newline then "true" else "false") ++ "\x7d"

/-- The outputs as a JSON array, or `null` if there are none. -/
def outputsJson : List Output → String
  | [] => "null"
  | os => "[" ++ ",".intercalate (os.map outputJson) ++ "]"

/-- The report as a JSON object. What there is not is left out, the outputs apart. -/
def json (r : Report) : String :=
  "\x7b\"outputs\":" ++ outputsJson r.outputs ++
    (match r.error with | some e => ",\"error\":" ++ Text.jsonString e | none => "") ++
    (match r.kind with | some k => ",\"error_kind\":" ++ Text.jsonString k.label | none => "") ++
    "\x7d"

end Report

end Adventure
