import Adventure.Proofs.Legible

/-!
# Statements and functions tell what they are

Every statement is legible, whatever follows it (`Statement.isLegible`). Its lines start with its
source line and with a word for what it does, and tell how many statements are in its blocks, so it
can be told where the blocks end.

A function does not tell how long its body is, but the body is indented by more than what follows
(`Shallow`), and its statements all are indented (`Function.isLegible`).
-/

namespace Adventure

open Text Parsing

/-! ## Lines -/

/-- Lines as one text, each ended by a newline. -/
def shown (lines : List String) : List Char :=
  lines.flatMap fun line => line.toList ++ ['\n']

/-- The characters of lines that are written below each other. -/
theorem toList_unlines (lines : List String) : (unlines lines).toList = shown lines := by
  rw [unlines, String.toList_join, shown, List.flatMap_map]
  simp

/-- Each line is shown with its end. -/
theorem shown_cons (line : String) (lines : List String) :
    shown (line :: lines) = line.toList ++ '\n' :: shown lines := by
  simp [shown]

/-- Lines are shown one after the other. -/
theorem shown_append (lines more : List String) :
    shown (lines ++ more) = shown lines ++ shown more :=
  List.flatMap_append

/-- The blanks in front of a line. -/
def indentation (depth : Nat) : List Char :=
  List.replicate (2 * depth) ' '

/-- Indentations add up. -/
theorem indentation_add (m n : Nat) : indentation (m + n) = indentation m ++ indentation n := by
  rw [indentation, indentation, indentation, Nat.mul_add, List.replicate_append_replicate]

/-- What does not start with a blank is not indented. -/
theorem not_startsWith_indentation {depth : Nat} (hdepth : depth ≠ 0) {r : List Char}
    (hr : Halts (· == ' ') r) : ¬indentation depth <+: r := by
  rintro ⟨t, rfl⟩
  obtain ⟨n, rfl⟩ := Nat.exists_eq_succ_of_ne_zero hdepth
  cases halts_cons.mp hr

/-- Blanks end where a word begins. -/
theorem halts_word (word : String) (hword : word.toList.head?.any (· != ' ') = true)
    (t : List Char) : Halts (· == ' ') (word.toList ++ t) := by
  cases hcs : word.toList with
  | nil => simp [hcs] at hword
  | cons c cs => simpa [hcs] using hword

/-- An indented text is shown behind blanks. -/
theorem toList_indented (depth : Nat) (text : String) :
    (indented depth text).toList = indentation depth ++ text.toList := by
  simp [indented, indentation]

/-- A numbered text is shown behind blanks and its line. -/
theorem toList_numbered (depth : Nat) (line : Int) (text : String) :
    (numbered depth line text).toList =
      indentation depth ++ ("line ".toList ++
        ((toString line).toList ++ ':' :: ' ' :: text.toList)) := by
  rw [numbered, toList_indented]
  simp only [String.toList_append, List.append_assoc]
  rfl

/-- A line with a number in front tells the number. -/
theorem numbered_append_inj {depth : Nat} {line line' : Int} (hline : 1 ≤ line)
    (hline' : 1 ≤ line') {text text' : String} {r s : List Char}
    (h : (numbered depth line text).toList ++ r = (numbered depth line' text').toList ++ s) :
    line = line' ∧ text.toList ++ r = text'.toList ++ s := by
  have hcolon : ∀ t, Halts isDigit (':' :: t) := fun t => halts_cons.mpr (by decide)
  simp only [toList_numbered, List.append_assoc, List.cons_append] at h
  obtain ⟨hlines, h⟩ := int_append_inj (Int.le_of_lt hline) (Int.le_of_lt hline') (hcolon _)
    (hcolon _) (List.append_cancel_left (List.append_cancel_left h))
  exact ⟨hlines, (List.cons.inj (List.cons.inj h).2).2⟩

/-! ## The heads of statements -/

namespace Statement

/-- The word for what a statement does. -/
def title : Statement → String
  | .declare .. => "Declaration"
  | .assign .. => "Assignment"
  | .attack .. => "AttackMove"
  | .loop .. => "While"
  | .branch .. => "If"
  | .log .. => "Log"
  | .give .. => "Return"
  | .call .. => "Call"
  | .foreign .. => ""

/-- What is written of an alternative in the head of a branch. -/
def elseText : Block → List Char
  | none => []
  | some statements => ' ' :: ("else=".toList ++ (toString statements.length).toList)

/-- What is written in the head of a statement behind the word. -/
def details : Statement → List Char
  | .declare _ type name => type.toList ++ ' ' :: name.toList
  | .assign _ target value => target.toList ++ ' ' :: ("= ".toList ++ value.format.toList)
  | .attack _ attacker defender => attacker.toList ++ ' ' :: (">> ".toList ++ defender.toList)
  | .loop _ condition body =>
    condition.format.toList ++ ' ' :: ("stmts=".toList ++ (toString (Block.size body)).toList)
  | .branch _ condition body alternative =>
    condition.format.toList ++
      ' ' :: ("stmts=".toList ++ ((toString (Block.size body)).toList ++ elseText alternative))
  | .log _ value | .give _ value => value.format.toList
  | .call _ function arguments => (Expr.call function arguments).format.toList
  | .foreign .. => []

/-- The lines for the blocks of a statement. -/
def innerLines (depth : Nat) : Statement → List String
  | .loop _ _ body => blockLines (depth + 1) body
  | .branch _ _ body alternative =>
    blockLines (depth + 1) body ++ alternativeLines depth alternative
  | .declare .. | .assign .. | .attack .. | .log .. | .give .. | .call .. | .foreign .. => []

/-- A statement is shown as one line, and then what is inside of it. -/
theorem lines_eq (depth : Nat) (st : Statement) :
    st.lines depth = numbered depth st.line st.format :: st.innerLines depth := by
  cases st <;> simp [lines, innerLines, line]

/-- The line of a statement has a title and details. -/
theorem toList_format {st : Statement} (h : st.WellFormed) :
    st.format.toList = st.title.toList ++ ' ' :: st.details := by
  unfold format title details
  cases st with
  | «foreign» line label => exact h.elim
  | branch line condition body alternative =>
    unfold elseText
    cases alternative <;> simp
  | _ => simp

/-- Statements stand on lines that are counted from one. -/
theorem one_le_line {st : Statement} (h : st.WellFormed) : 1 ≤ st.line := by
  cases st with
  | «foreign» line label => exact h.elim
  | _ => exact h.1

/-- Titles are words. -/
theorem isWordChar_of_mem_title (st : Statement) : ∀ c ∈ st.title.toList, isWordChar c = true := by
  have hwords : ∀ word ∈ ["Declaration", "Assignment", "AttackMove", "While", "If", "Log", "Return",
      "Call", ""], word.toList.all isWordChar = true := by decide +kernel
  refine List.all_eq_true.mp (hwords st.title ?_)
  cases st <;> simp [title]

/-- The head of a statement tells its line and its word. -/
theorem lines_append_eq {st st' : Statement} (h : st.WellFormed) (h' : st'.WellFormed) {depth : Nat}
    {r s : List Char} (heq : shown (st.lines depth) ++ r = shown (st'.lines depth) ++ s) :
    st.line = st'.line ∧ st.title = st'.title ∧
      st.details ++ '\n' :: (shown (st.innerLines depth) ++ r) =
        st'.details ++ '\n' :: (shown (st'.innerLines depth) ++ s) := by
  simp only [lines_eq, shown_cons, List.append_assoc, List.cons_append] at heq
  obtain ⟨hline, heq⟩ := numbered_append_inj (one_le_line h) (one_le_line h') heq
  simp only [toList_format h, toList_format h', List.append_assoc, List.cons_append] at heq
  obtain ⟨htitle, heq⟩ := run_append_inj (isWordChar_of_mem_title st) (isWordChar_of_mem_title st')
    (stops_blank _).word (stops_blank _).word heq
  exact ⟨hline, String.toList_inj.mp htitle, (List.cons.inj heq).2⟩

/-! ## Statements -/

/-- The statement is legible at every depth, whatever follows. -/
def IsLegible (st : Statement) : Prop :=
  ∀ depth, Legible (fun st : Statement => shown (st.lines depth)) WellFormed (fun _ => True) st

/-- Declarations can be told. -/
theorem isLegible_declare {line : Int} {type name : String}
    (h : (declare line type name).WellFormed) : (declare line type name).IsLegible := by
  intro depth st' h' r s _ _ heq
  obtain ⟨hline, htitle, heq⟩ := lines_append_eq h h' heq
  cases st' with
  | declare line' type' name' =>
    unfold details at heq
    simp only [List.append_assoc, List.cons_append] at heq
    obtain ⟨htype, heq⟩ := name_append_inj h.2.1 h'.2.1 (stops_blank _).word (stops_blank _).word
      heq
    obtain ⟨hname, heq⟩ := name_append_inj h.2.2 h'.2.2 (stops_newline _).word
      (stops_newline _).word (List.cons.inj heq).2
    refine ⟨?_, (List.cons.inj heq).2⟩
    rw [show line = line' from hline, htype, hname]
  | _ => simp [title] at htitle

/-- Assignments can be told. -/
theorem isLegible_assign {line : Int} {target : String} {value : Expr}
    (h : (assign line target value).WellFormed) : (assign line target value).IsLegible := by
  intro depth st' h' r s _ _ heq
  obtain ⟨hline, htitle, heq⟩ := lines_append_eq h h' heq
  cases st' with
  | assign line' target' value' =>
    unfold details at heq
    simp only [List.append_assoc, List.cons_append] at heq
    obtain ⟨htarget, heq⟩ := name_append_inj h.2.1 h'.2.1 (stops_blank _).word (stops_blank _).word
      heq
    obtain ⟨hvalue, heq⟩ := Expr.format_append_inj h.2.2 h'.2.2 (stops_newline _) (stops_newline _)
      (List.append_cancel_left (List.cons.inj heq).2)
    refine ⟨?_, (List.cons.inj heq).2⟩
    rw [show line = line' from hline, htarget, hvalue]
  | _ => simp [title] at htitle

/-- Attack moves can be told. -/
theorem isLegible_attack {line : Int} {attacker defender : String}
    (h : (attack line attacker defender).WellFormed) :
    (attack line attacker defender).IsLegible := by
  intro depth st' h' r s _ _ heq
  obtain ⟨hline, htitle, heq⟩ := lines_append_eq h h' heq
  cases st' with
  | attack line' attacker' defender' =>
    unfold details at heq
    simp only [List.append_assoc, List.cons_append] at heq
    obtain ⟨hattacker, heq⟩ := name_append_inj h.2.1 h'.2.1 (stops_blank _).word
      (stops_blank _).word heq
    obtain ⟨hdefender, heq⟩ := name_append_inj h.2.2 h'.2.2 (stops_newline _).word
      (stops_newline _).word (List.append_cancel_left (List.cons.inj heq).2)
    refine ⟨?_, (List.cons.inj heq).2⟩
    rw [show line = line' from hline, hattacker, hdefender]
  | _ => simp [title] at htitle

/-- Statements that show a value can be told. -/
theorem isLegible_log {line : Int} {value : Expr} (h : (log line value).WellFormed) :
    (log line value).IsLegible := by
  intro depth st' h' r s _ _ heq
  obtain ⟨hline, htitle, heq⟩ := lines_append_eq h h' heq
  cases st' with
  | log line' value' =>
    obtain ⟨hvalue, heq⟩ := Expr.format_append_inj h.2 h'.2 (stops_newline _) (stops_newline _) heq
    refine ⟨?_, (List.cons.inj heq).2⟩
    rw [show line = line' from hline, hvalue]
  | _ => simp [title] at htitle

/-- Statements that give a value can be told. -/
theorem isLegible_give {line : Int} {value : Expr} (h : (give line value).WellFormed) :
    (give line value).IsLegible := by
  intro depth st' h' r s _ _ heq
  obtain ⟨hline, htitle, heq⟩ := lines_append_eq h h' heq
  cases st' with
  | give line' value' =>
    obtain ⟨hvalue, heq⟩ := Expr.format_append_inj h.2 h'.2 (stops_newline _) (stops_newline _) heq
    refine ⟨?_, (List.cons.inj heq).2⟩
    rw [show line = line' from hline, hvalue]
  | _ => simp [title] at htitle

/-- Calls can be told. -/
theorem isLegible_call {line : Int} {function : String} {arguments : List Expr}
    (h : (call line function arguments).WellFormed) :
    (call line function arguments).IsLegible := by
  intro depth st' h' r s _ _ heq
  obtain ⟨hline, htitle, heq⟩ := lines_append_eq h h' heq
  cases st' with
  | call line' function' arguments' =>
    obtain ⟨hvalue, heq⟩ := Expr.format_append_inj h.2 h'.2 (stops_newline _) (stops_newline _) heq
    obtain ⟨hfunction, harguments⟩ := Expr.call.inj hvalue
    refine ⟨?_, (List.cons.inj heq).2⟩
    rw [show line = line' from hline, hfunction, harguments]
  | _ => simp [title] at htitle

/-! ### Blocks -/

/-- Statements are shown one after the other. -/
theorem shown_allLines (depth : Nat) (statements : List Statement) :
    shown (allLines depth statements) = statements.flatMap fun st => shown (st.lines depth) := by
  induction statements with
  | nil => rfl
  | cons st more ih => rw [allLines, shown_append, ih, List.flatMap_cons]

/-- Statements can be told if it is known how many there are. -/
theorem allLines_append_inj {statements statements' : List Statement}
    (h : ∀ st ∈ statements, st.IsLegible) (h' : AllWellFormed statements') {depth : Nat}
    (hlength : statements.length = statements'.length) {r s : List Char}
    (heq : shown (allLines depth statements) ++ r = shown (allLines depth statements') ++ s) :
    statements = statements' ∧ r = s := by
  induction statements generalizing statements' with
  | nil =>
    obtain rfl := List.eq_nil_of_length_eq_zero hlength.symm
    exact ⟨rfl, heq⟩
  | cons st more ih =>
    cases statements' with
    | nil => cases hlength
    | cons st' more' =>
      obtain ⟨hst, hmore⟩ := List.forall_mem_cons.mp h
      rw [allLines, allLines, shown_append, shown_append, List.append_assoc, List.append_assoc]
        at heq
      obtain ⟨rfl, hrest⟩ := hst depth st' h'.1 _ _ trivial trivial heq
      obtain ⟨rfl, hend⟩ := ih hmore h'.2 (Nat.succ.inj hlength) hrest
      exact ⟨rfl, hend⟩

/-- All statements of the block are legible. -/
def BlockLegible (body : Block) : Prop :=
  ∀ st ∈ body.getD [], st.IsLegible

/-- The same of blocks that are there. -/
theorem blockLines_append_inj {body body' : Block} (hne : body ≠ none) (hne' : body' ≠ none)
    (h : BlockLegible body) (h' : BlockWellFormed body') {depth : Nat}
    (hsize : Block.size body = Block.size body') {r s : List Char}
    (heq : shown (blockLines depth body) ++ r = shown (blockLines depth body') ++ s) :
    body = body' ∧ r = s := by
  cases body with
  | none => exact absurd rfl hne
  | some statements =>
    cases body' with
    | none => exact absurd rfl hne'
    | some statements' =>
      obtain ⟨rfl, hrest⟩ := allLines_append_inj h h' hsize heq
      exact ⟨rfl, hrest⟩

/-- A loop can be told if its body can. -/
theorem isLegible_loop {line : Int} {condition : Condition} {body : Block}
    (h : (loop line condition body).WellFormed) (hbody : BlockLegible body) :
    (loop line condition body).IsLegible := by
  intro depth st' h' r s _ _ heq
  obtain ⟨hline, htitle, heq⟩ := lines_append_eq h h' heq
  cases st' with
  | loop line' condition' body' =>
    unfold details at heq
    simp only [List.append_assoc, List.cons_append] at heq
    obtain ⟨hcondition, heq⟩ := Condition.format_append_inj h.2.1 h'.2.1 heq
    obtain ⟨hsize, heq⟩ := nat_append_inj (stops_newline _).digit (stops_newline _).digit
      (List.append_cancel_left (List.cons.inj heq).2)
    obtain ⟨hbodies, heq⟩ := blockLines_append_inj h.2.2.1 h'.2.2.1 hbody h'.2.2.2 hsize
      (List.cons.inj heq).2
    refine ⟨?_, heq⟩
    rw [show line = line' from hline, hcondition, hbodies]
  | _ => simp [title] at htitle

/-- The head tells whether there is an alternative, and of how many statements. -/
theorem elseText_append_inj {alternative alternative' : Block} {r s : List Char}
    (heq : elseText alternative ++ '\n' :: r = elseText alternative' ++ '\n' :: s) :
    alternative.map List.length = alternative'.map List.length ∧ r = s := by
  have hne : ∀ t t' : List Char, '\n' :: t ≠ ' ' :: t' := by
    intro t t' h
    exact absurd (List.cons.inj h).1 (by decide)
  unfold elseText at heq
  cases alternative with
  | none =>
    cases alternative' with
    | none => exact ⟨rfl, (List.cons.inj heq).2⟩
    | some statements' => exact absurd heq (hne _ _)
  | some statements =>
    cases alternative' with
    | none => exact absurd heq.symm (hne _ _)
    | some statements' =>
      simp only [List.append_assoc, List.cons_append] at heq
      obtain ⟨hlength, heq⟩ := nat_append_inj (stops_newline _).digit (stops_newline _).digit
        (List.append_cancel_left (List.cons.inj heq).2)
      exact ⟨congrArg some hlength, (List.cons.inj heq).2⟩

/-- An alternative can be told if it is known how many statements it has. -/
theorem alternativeLines_append_inj {alternative alternative' : Block}
    (h : BlockLegible alternative) (h' : BlockWellFormed alternative') {depth : Nat}
    (hlength : alternative.map List.length = alternative'.map List.length) {r s : List Char}
    (heq : shown (alternativeLines depth alternative) ++ r =
      shown (alternativeLines depth alternative') ++ s) :
    alternative = alternative' ∧ r = s := by
  cases alternative with
  | none =>
    cases alternative' with
    | none => exact ⟨rfl, heq⟩
    | some statements' => cases hlength
  | some statements =>
    cases alternative' with
    | none => cases hlength
    | some statements' =>
      rw [alternativeLines, alternativeLines, shown_cons, shown_cons, List.append_assoc,
        List.append_assoc] at heq
      obtain ⟨rfl, hrest⟩ := allLines_append_inj h h' (Option.some.inj hlength)
        (List.cons.inj (List.append_cancel_left heq)).2
      exact ⟨rfl, hrest⟩

/-- A branch can be told if its blocks can. -/
theorem isLegible_branch {line : Int} {condition : Condition} {body alternative : Block}
    (h : (branch line condition body alternative).WellFormed) (hbody : BlockLegible body)
    (halternative : BlockLegible alternative) :
    (branch line condition body alternative).IsLegible := by
  intro depth st' h' r s _ _ heq
  obtain ⟨hline, htitle, heq⟩ := lines_append_eq h h' heq
  cases st' with
  | branch line' condition' body' alternative' =>
    -- the size of the body ends where the alternative, or else the line, starts
    have hend : ∀ (b : Block) (t : List Char), Halts isDigit (elseText b ++ '\n' :: t) := by
      intro b t
      cases b with
      | none => exact (stops_newline _).digit
      | some statements => exact (stops_blank _).digit
    unfold details innerLines at heq
    simp only [List.append_assoc, List.cons_append, shown_append] at heq
    obtain ⟨hcondition, heq⟩ := Condition.format_append_inj h.2.1 h'.2.1 heq
    obtain ⟨hsize, heq⟩ := nat_append_inj (hend _ _) (hend _ _)
      (List.append_cancel_left (List.cons.inj heq).2)
    -- both sizes are known before the blocks are looked at
    obtain ⟨hlength, heq⟩ := elseText_append_inj heq
    obtain ⟨hbodies, heq⟩ := blockLines_append_inj h.2.2.1 h'.2.2.1 hbody h'.2.2.2.1 hsize heq
    obtain ⟨halternatives, heq⟩ := alternativeLines_append_inj halternative h'.2.2.2.2 hlength heq
    refine ⟨?_, heq⟩
    rw [show line = line' from hline, hcondition, hbodies, halternatives]
  | _ => simp [title] at htitle

/-! ### Every statement -/

mutual

/-- **Statements are legible** if they are well-formed. -/
theorem isLegible : ∀ st : Statement, st.WellFormed → st.IsLegible
  | .declare .., h => isLegible_declare h
  | .assign .., h => isLegible_assign h
  | .attack .., h => isLegible_attack h
  | .loop _ _ body, h => isLegible_loop h (blockLegible body h.2.2.2)
  | .branch _ _ body alternative, h =>
    isLegible_branch h (blockLegible body h.2.2.2.1) (blockLegible alternative h.2.2.2.2)
  | .log .., h => isLegible_log h
  | .give .., h => isLegible_give h
  | .call .., h => isLegible_call h
  | .foreign .., h => h.elim

theorem blockLegible : ∀ body : Option (List Statement), BlockWellFormed body → BlockLegible body
  | none, _ => List.forall_mem_nil _
  | some statements, h => allLegible statements h

theorem allLegible : ∀ statements : List Statement, AllWellFormed statements →
    ∀ st ∈ statements, st.IsLegible
  | [], _ => List.forall_mem_nil _
  | st :: more, h => List.forall_mem_cons.mpr ⟨isLegible st h.1, allLegible more h.2⟩

end

/-- Statements can be told in front of what is not indented as they are. -/
theorem indented_allLines_append_inj {statements statements' : List Statement}
    (h : AllWellFormed statements) (h' : AllWellFormed statements') {depth : Nat} {r s : List Char}
    (hr : ¬indentation depth <+: r) (hs : ¬indentation depth <+: s)
    (heq : shown (allLines depth statements) ++ r = shown (allLines depth statements') ++ s) :
    statements = statements' ∧ r = s := by
  have hstart : ∀ st : Statement, indentation depth <+: shown (st.lines depth) := by
    intro st
    rw [lines_eq, shown_cons, toList_numbered, List.append_assoc]
    exact List.prefix_append _ _
  have hlegible := allLegible statements h
  have hwell := allWellFormed_iff.mp h
  rw [shown_allLines, shown_allLines] at heq
  exact flatMap_append_inj (fun st _ => hstart st) (fun _ _ _ => trivial)
    (fun st hst => ⟨hwell st hst, hlegible st hst depth⟩) (allWellFormed_iff.mp h') ⟨hr, trivial⟩
    ⟨hs, trivial⟩ heq

end Statement

/-! ## Functions -/

/-- What follows is not the inside of a function or a template. -/
def Shallow (rest : List Char) : Prop :=
  ¬indentation 2 <+: rest

/-- A line at the depth of functions and templates is not inside of one. -/
theorem shallow_indentation {r : List Char} (hr : Halts (· == ' ') r) :
    Shallow (indentation 1 ++ r) := by
  intro h
  rw [indentation_add 1 1, List.prefix_append_right_inj] at h
  exact not_startsWith_indentation (by decide) hr h

/-- The text starts a line at the depth of functions and templates. -/
def StartsEntry (cs : List Char) : Prop :=
  ∀ t, ∃ rest, Halts (· == ' ') rest ∧ cs ++ t = indentation 1 ++ rest

/-- Lists of functions, and of templates, can be told in front of a line that is not indented. -/
theorem entries_append_inj {α : Type} {write : α → List Char} {ok : α → Prop}
    (hstart : ∀ a, ok a → StartsEntry (write a))
    (hlegible : ∀ a, ok a → Legible write ok Shallow a) {xs ys : List α} (hxs : ∀ x ∈ xs, ok x)
    (hys : ∀ y ∈ ys, ok y) {r s : List Char} (hr : Halts (· == ' ') r) (hs : Halts (· == ' ') s)
    (h : xs.flatMap write ++ r = ys.flatMap write ++ s) : xs = ys ∧ r = s := by
  have hend : ∀ t : List Char, Halts (· == ' ') t → ¬indentation 1 <+: t ∧ Shallow t := fun t ht =>
    ⟨not_startsWith_indentation (by decide) ht, not_startsWith_indentation (by decide) ht⟩
  refine flatMap_append_inj (fun a ha => ?_) (fun a ha t => ?_)
    (fun a ha => ⟨hxs a ha, hlegible a (hxs a ha)⟩) hys (hend r hr) (hend s hs) h
  · obtain ⟨rest, -, hrest⟩ := hstart a ha []
    rw [List.append_nil] at hrest
    exact ⟨rest, hrest.symm⟩
  · obtain ⟨rest, hhalts, hrest⟩ := hstart a ha t
    rw [hrest]
    exact shallow_indentation hhalts

namespace Function

/-- The head of a function reads as a call with its parameters as arguments. -/
def signature (f : Function) : Expr :=
  .call f.name (f.parameters.map .var)

/-- A function is shown as its signature and then its body. -/
theorem lines_eq (f : Function) :
    f.lines = numbered 1 f.line f.signature.format :: Statement.blockLines 2 f.body := by
  have hparameters : (f.parameters.map Expr.var).map Expr.format = f.parameters := by
    rw [List.map_map]
    exact List.map_id _
  rw [lines, signature, Expr.format, Expr.formatAll_eq_map, hparameters]

/-- The signature of a function is well-formed. -/
theorem WellFormed.signature {f : Function} (h : f.WellFormed) : f.signature.WellFormed := by
  refine ⟨h.name, Expr.allWellFormed_iff.mpr ?_⟩
  rw [List.forall_mem_map]
  exact h.parameters

/-- **Functions are legible** in front of what is not inside of one. -/
theorem isLegible {f : Function} (hf : f.WellFormed) :
    Legible (fun f : Function => shown f.lines) WellFormed Shallow f := by
  intro f' hf' r s hr hs h
  simp only [lines_eq, shown_cons, List.append_assoc, List.cons_append] at h
  obtain ⟨hline, h⟩ := numbered_append_inj hf.line hf'.line h
  obtain ⟨hsignature, h⟩ := Expr.format_append_inj hf.signature hf'.signature
    (stops_newline _) (stops_newline _) h
  obtain ⟨hname, hparameters⟩ := Expr.call.inj hsignature
  -- the head does not tell the size of the body; the body goes on as long as lines are indented
  obtain ⟨body, hbody⟩ := Option.ne_none_iff_exists'.mp hf.body_ne
  obtain ⟨body', hbody'⟩ := Option.ne_none_iff_exists'.mp hf'.body_ne
  have hwell := hf.body
  have hwell' := hf'.body
  rw [hbody] at hwell h
  rw [hbody'] at hwell' h
  obtain ⟨hbodies, h⟩ := Statement.indented_allLines_append_inj hwell hwell' hr hs
    (List.cons.inj h).2
  refine ⟨?_, h⟩
  cases f
  cases f'
  rw [Function.mk.injEq]
  exact ⟨hline, hname, (List.map_inj_right fun _ _ => Expr.var.inj).mp hparameters,
    hbody.trans (hbodies ▸ hbody'.symm)⟩

/-- A function starts with a line of its own. -/
theorem startsEntry (f : Function) : StartsEntry (shown f.lines) := by
  intro t
  rw [lines_eq, shown_cons, toList_numbered, List.append_assoc, List.append_assoc,
    List.append_assoc]
  exact ⟨_, halts_word "line " (by decide) _, rfl⟩

end Function

end Adventure
