import Adventure.Proofs.Reading.Statement
import Adventure.Proofs.Reading.Template

/-!
# Reading programs exactly

A program is read part by part (`anyPart`), and a part says what it adds to the parts behind it.
From the exactness of parts follows what `program` does on all tokens: it accepts the tokens of the
derivations and nothing else (`program_eq_ok_iff`), no two derivations have the same tokens
(`tokens_injective`), and a refusal is made at the first token that no derivation has there
(`program_refuses`).
-/

namespace Adventure.Parsing

open Text Grammar

/-! ## Parts -/

/-- The kinds that a part of a program starts with. -/
def partStart : List Kind :=
  [.item, .character, .function, .identifier, .whileWord, .ifWord, .questionMark, .returnWord]

/-- Reads a part of a program and says what it adds to a program. -/
def anyPart : Reader (Adventure.Program → Adventure.Program) :=
  Reader.choose [.item]
    ((reads (accept [.item])).bind fun t => (reads (item (lineOf t))).bind fun i =>
      Reader.give fun p => { p with templates := .item i :: p.templates })
    (Reader.choose [.character]
      ((reads (accept [.character])).bind fun t => (reads (character (lineOf t))).bind fun c =>
        Reader.give fun p => { p with templates := .character c :: p.templates })
      (Reader.choose [.function]
        ((reads (accept [.function])).bind fun t => (reads (function (lineOf t))).bind fun f =>
          Reader.give fun p => { p with functions := f :: p.functions })
        (anyInstruction.bind fun s =>
          Reader.give fun p => { p with instructions := s :: p.instructions })))

theorem front_part (x : Part) (rest : List Token) : frontKind (x.tokens ++ rest) ∈ partStart := by
  have hsub : instructionStart ⊆ partStart := by decide
  cases x with
  | item i => simp [Part.tokens, Grammar.Item.tokens, kind_of_leaf i.word, partStart]
  | character c => simp [Part.tokens, Grammar.Character.tokens, kind_of_leaf c.word, partStart]
  | function f => simp [Part.tokens, Grammar.Function.tokens, kind_of_leaf f.word, partStart]
  | instruction x => exact hsub (front_instruction x rest)

theorem length_part_pos (x : Part) : 1 ≤ x.tokens.length := by
  have hfront := front_part x []
  rw [List.append_nil] at hfront
  rcases hx : x.tokens with - | ⟨t, ts⟩
  · rw [hx] at hfront
    exact absurd hfront (by decide)
  · exact Nat.succ_pos _

theorem spare_fields {Y : Type} {tokens : Y → List Token} (h : Spare tokens) :
    Spare fun x : Leaf [.identifier] × Leaf [.curlyOpen] × Y =>
      x.1.token :: x.2.1.token :: tokens x.2.2 :=
  (spare_leaf (show Plain [.identifier] by decide)).pair
    ((spare_leaf (show Plain [.curlyOpen] by decide)).pair h)

/-- **Parts are read exactly.** -/
theorem exact_anyPart (n : Nat) :
    Exact n anyPart [.elseWord] Part.tokens fun part p => part.addTo p := by
  have hitem := exact_accept_bind (n := n) (show Plain [.item] by decide)
    (fun t m _ => (exact_item m (lineOf t)).bind_give fun i (p : Adventure.Program) =>
      { p with templates := .item i :: p.templates })
    (spare_fields spare_itemFields)
  have hcharacter := exact_accept_bind (n := n) (show Plain [.character] by decide)
    (fun t m _ => (exact_character m (lineOf t)).bind_give fun c (p : Adventure.Program) =>
      { p with templates := .character c :: p.templates })
    (spare_fields spare_characterFields)
  have hfunction := exact_accept_bind (n := n) (show Plain [.function] by decide)
    (fun t m _ => (exact_function m (lineOf t)).bind_give fun f (p : Adventure.Program) =>
      { p with functions := f :: p.functions })
    spare_function
  have hinstruction := (statementsExact n).instruction.bind_give
    fun s (p : Adventure.Program) => { p with instructions := s :: p.instructions }
  -- the next token tells the parts apart: no instruction begins with one of the three words
  have hapart : ∀ {kind : Kind}, kind ∉ instructionStart → ∀ (x : Instruction) (rest : List Token),
      frontKind (x.tokens ++ rest) ∉ [kind] := by
    intro kind hkind x rest hmem
    rw [← List.mem_singleton.mp hmem] at hkind
    exact hkind (front_instruction x rest)
  have hchoose := (hitem.mono_stop (List.nil_subset [.elseWord])).choose
    ((hcharacter.mono_stop (List.nil_subset [.elseWord])).choose
      ((hfunction.mono_stop (List.nil_subset [.elseWord])).choose hinstruction
        (fun x _ => x.1.mem) fun x rest _ => hapart (by decide) x rest)
      (fun x _ => x.1.mem) ?_)
    (fun x _ => x.1.mem) ?_
  · refine hchoose.map (Sum.elim (fun x => .item ⟨x.1, x.2.1, x.2.2.1, x.2.2.2⟩)
      (Sum.elim (fun x => .character ⟨x.1, x.2.1, x.2.2.1, x.2.2.2⟩)
        (Sum.elim (fun x => .function ⟨x.1, x.2.1, x.2.2.1, x.2.2.2.1, x.2.2.2.2⟩)
          .instruction))) ?_ ?_ ?_
    · rintro (⟨word, name, opening, fields⟩ | ⟨word, name, opening, fields⟩ |
        ⟨word, name, opening, parameters, body⟩ | x)
      · exact ⟨.inl (word, name, opening, fields), rfl⟩
      · exact ⟨.inr (.inl (word, name, opening, fields)), rfl⟩
      · exact ⟨.inr (.inr (.inl (word, name, opening, parameters, body))), rfl⟩
      · exact ⟨.inr (.inr (.inr x)), rfl⟩
    · rintro (x | x | x | x) <;> rfl
    · rintro (x | x | x | x) <;> funext p
      · simp only [Sum.elim_inl, Part.addTo, value_item]
      · simp only [Sum.elim_inl, Sum.elim_inr, Part.addTo, value_character]
      · rfl
      · rfl
  · rintro (x | x) rest -
    · exact leaf_not_mem (by decide) x.1
    · exact hapart (by decide) x rest
  · rintro (x | x | x) rest -
    · exact leaf_not_mem (by decide) x.1
    · exact leaf_not_mem (by decide) x.1
    · exact hapart (by decide) x rest

/-! ## Programs -/

theorem program_nil : program [] = .ok .empty := by
  rw [program]
  rfl

theorem reads_bind_give {α β : Type} (f : (ts : List Token) → Reads α ts) (φ : α → β)
    (ts : List Token) :
    (reads f).bind (fun a => Reader.give (φ a)) ts =
      (f ts).map fun x => (φ x.1, x.2.rest) := by
  rw [Reader.bind, reads]
  rcases f ts with e | ⟨a, r⟩ <;> rfl

theorem program_add {α : Type} {ts : List Token} (x : Reads α ts)
    (φ : α → Adventure.Program → Adventure.Program) :
    (x >>= fun y => program y.2.rest >>= fun p => pure (φ y.1 p)) =
      (x.map fun y => (φ y.1, y.2.rest)) >>= fun y => (program y.2).map y.1 := by
  rcases x with e | ⟨a, r⟩
  · rfl
  · change (program r.rest >>= fun p => pure (φ a p)) = (program r.rest).map (φ a)
    rcases program r.rest with e | p <;> rfl

/-- A program that begins with a part goes on behind it. -/
theorem program_of_mem {t : Token} (ts : List Token) (ht : t.kind ∈ partStart) :
    program (t :: ts) = anyPart (t :: ts) >>= fun x => (program x.2).map x.1 := by
  have hstart : t.kind ∈ statementStart :=
    (show partStart ⊆ statementStart by decide) ht
  rw [program]
  simp only [if_pos hstart, anyPart, choose_accept_cons, List.mem_singleton]
  simp only [partStart, List.mem_cons, List.not_mem_nil, or_false] at ht
  rcases ht with hk | hk | hk | hk
  · simp only [hk, if_true, reads_bind_give]
    exact program_add _ fun i p => { p with templates := .item i :: p.templates }
  · simp only [hk, reduceCtorEq, if_true, if_false, reads_bind_give]
    exact program_add _ fun c p => { p with templates := .character c :: p.templates }
  · simp only [hk, reduceCtorEq, if_true, if_false, reads_bind_give]
    exact program_add _ fun f p => { p with functions := f :: p.functions }
  · have hmem : t.kind ∈ instructionStart := by
      simpa only [instructionStart, List.mem_cons, List.not_mem_nil, or_false] using hk
    have hplain : Plain instructionStart := by decide
    rw [anyInstruction, Reader.take_bind_of_ok ts hmem (hplain.literalOf hmem)]
    rcases hk with hk | hk | hk | hk | hk <;>
      simp only [hk, reduceCtorEq, if_false, reads_bind_give] <;>
      exact program_add _ fun s p => { p with instructions := s :: p.instructions }

/-- The kinds that are named where a token stands that no part begins with. The mark of the end is
never among the tokens of a source; if it were, it would be refused as an instruction. -/
def expectedBetween (t : Token) : List Kind :=
  if t.kind = .endOfFile then instructionStart else statementStart

theorem program_of_not_mem {t : Token} (ts : List Token) (ht : t.kind ∉ partStart) :
    program (t :: ts) = .error ⟨.unexpected (expectedBetween t) t, ts⟩ := by
  rw [program]
  by_cases hend : t.kind = .endOfFile
  · have hinstruction : instruction t ts = .error ⟨.unexpected instructionStart t, ts⟩ := by
      rw [instruction]
      simp only [hend]
      rfl
    have hstart : Kind.endOfFile ∈ statementStart := by decide
    simp only [hend, expectedBetween, if_pos hstart, if_true, hinstruction]
    rfl
  · have hsplit : statementStart = partStart ++ [.endOfFile] := rfl
    have hstart : t.kind ∉ statementStart := by
      rw [hsplit, List.mem_append, List.mem_singleton]
      exact not_or.mpr ⟨ht, hend⟩
    rw [if_neg hstart, expectedBetween, if_neg hend]
    rfl

theorem program_of_part {ts rest : List Token} {add : Adventure.Program → Adventure.Program}
    (hfront : frontKind ts ∈ partStart) (h : anyPart ts = .ok (add, rest)) :
    program ts = (program rest).map add := by
  rcases ts with - | ⟨t, ts⟩
  · exact absurd hfront (by decide)
  · rw [program_of_mem ts hfront, h]
    rfl

theorem program_of_badPart {ts : List Token} {e : Refusal} (hfront : frontKind ts ∈ partStart)
    (h : anyPart ts = .error e) : program ts = .error e := by
  rcases ts with - | ⟨t, ts⟩
  · exact absurd hfront (by decide)
  · rw [program_of_mem ts hfront, h]
    rfl

theorem front_program (d : Grammar.Program) : frontKind d.tokens ∉ [Kind.elseWord] := by
  cases d with
  | nil => decide
  | cons x d =>
    intro hmem
    have hfront := front_part x (Grammar.Program.tokens d)
    rw [show frontKind (x.tokens ++ Grammar.Program.tokens d) = .elseWord from
      List.mem_singleton.mp hmem] at hfront
    exact absurd hfront (by decide)

/-- Every derivation is read as what it stands for. -/
theorem program_tokens (d : Grammar.Program) : program d.tokens = .ok d.value := by
  induction d with
  | nil => exact program_nil
  | cons x d ih =>
    have hpart := (exact_anyPart _).complete x (Grammar.Program.tokens d) (Nat.le_refl _)
      (front_program d)
    have hprogram := program_of_part (front_part x _) hpart
    rw [ih] at hprogram
    exact hprogram

/-- What is read has a derivation. -/
theorem exists_derivation {ts : List Token} {p : Adventure.Program} (h : program ts = .ok p) :
    ∃ d : Grammar.Program, d.tokens = ts ∧ d.value = p := by
  induction hn : ts.length using Nat.strong_induction_on generalizing ts p with
  | _ n ih =>
    rcases ts with - | ⟨t, ts⟩
    · exact ⟨[], rfl, Except.ok.inj (program_nil.symm.trans h)⟩
    by_cases ht : frontKind (t :: ts) ∈ partStart
    · rcases hpart : anyPart (t :: ts) with e | ⟨add, rest⟩
      · rw [program_of_badPart ht hpart] at h
        cases h
      · rw [program_of_part ht hpart] at h
        obtain ⟨x, hx, rfl, -⟩ := Exact.exists_tree_of_ok exact_anyPart hpart
        rcases hrest : program rest with e | q
        · rw [hrest] at h
          cases h
        · have hlt : rest.length < n := by
            have hpos := length_part_pos x
            rw [← hn, hx, List.length_append]
            omega
          obtain ⟨d, rfl, rfl⟩ := ih rest.length hlt hrest rfl
          rw [hrest] at h
          exact ⟨x :: d, hx.symm, Except.ok.inj h⟩
    · rw [program_of_not_mem ts ht] at h
      cases h

/-- **The readings of a program are its derivations.** -/
theorem program_eq_ok_iff (ts : List Token) (p : Adventure.Program) :
    program ts = .ok p ↔ ∃ d : Grammar.Program, d.tokens = ts ∧ d.value = p := by
  refine ⟨exists_derivation, ?_⟩
  rintro ⟨d, rfl, rfl⟩
  exact program_tokens d

/-- **No two derivations have the same tokens.** -/
theorem tokens_injective : Function.Injective Grammar.Program.tokens := by
  have hne : ∀ (x : Part) (d : Grammar.Program), Grammar.Program.tokens (x :: d) ≠ [] := by
    intro x d h
    have hpos := length_part_pos x
    rw [(List.append_eq_nil_iff.mp h).1] at hpos
    exact absurd hpos (by decide)
  intro d
  induction d with
  | nil =>
    intro d' h
    cases d' with
    | nil => rfl
    | cons y d' => exact absurd h.symm (hne y d')
  | cons x d ih =>
    intro d' h
    cases d' with
    | nil => exact absurd h (hne x d)
    | cons y d' =>
      obtain rfl := (exact_anyPart _).unique x y (Grammar.Program.tokens d)
        (Grammar.Program.tokens d') h (Nat.le_refl _) (front_program d) (front_program d')
      rw [ih (List.append_cancel_left h)]

/-! ## Refusals -/

theorem viable_part : Viable Part.tokens [] partStart := by
  have hpart : ∀ kind ∈ instructionStart,
      ∃ value faces, Writes Part.tokens [] ((kind, value) :: faces) := by
    intro kind hkind
    obtain ⟨value, faces, hfaces⟩ := viable_instruction.2 kind hkind
    exact ⟨value, faces, hfaces.map .instruction fun _ => rfl⟩
  refine ⟨by decide, fun kind hkind => ?_⟩
  simp only [partStart, List.mem_cons, List.not_mem_nil, or_false] at hkind
  rcases hkind with rfl | rfl | rfl | hkind
  · exact exists_writes_cons (by decide) (spare_fields spare_itemFields)
      (fun x => .item ⟨x.1, x.2.1, x.2.2.1, x.2.2.2⟩) fun _ => rfl
  · exact exists_writes_cons (by decide) (spare_fields spare_characterFields)
      (fun x => .character ⟨x.1, x.2.1, x.2.2.1, x.2.2.2⟩) fun _ => rfl
  · exact exists_writes_cons (by decide) spare_function
      (fun x => .function ⟨x.1, x.2.1, x.2.2.1, x.2.2.2.1, x.2.2.2.2⟩) fun _ => rfl
  · exact hpart kind (by
      simpa only [instructionStart, List.mem_cons, List.not_mem_nil, or_false] using hkind)

/-- A part that can go on makes a program that can, behind any other parts. -/
theorem Viable.program {before : List Token} {kinds : List Kind}
    (h : Viable Part.tokens before kinds) (d : Grammar.Program) :
    Viable Grammar.Program.tokens (d.tokens ++ before) kinds := by
  refine h.mono fun faces hfaces => ⟨[], ?_⟩
  rw [List.append_nil]
  refine ⟨hfaces.spelled, fun us hus => ?_⟩
  obtain ⟨x, hx⟩ := hfaces.exists_tree us hus
  exact ⟨d ++ [x], by simp [Grammar.Program.tokens, hx]⟩

/-- How a program is refused: inside a part, or at a token that no part begins with. -/
inductive ProgramRefused : List Token → Refusal → Prop where
  | inside {ts : List Token} {e : Refusal} (h : Refuses program Grammar.Program.tokens ts e) :
      ProgramRefused ts e
  | between (d : Grammar.Program) {got : Token} (rest : List Token)
      (hlocal : ∀ rest', program (d.tokens ++ got :: rest') =
        .error ⟨.unexpected (expectedBetween got) got, rest'⟩) :
      ProgramRefused (d.tokens ++ got :: rest) ⟨.unexpected (expectedBetween got) got, rest⟩

/-- A refused part makes a refused program. -/
theorem Refuses.program {ts : List Token} {e : Refusal} (hfront : frontKind ts ∈ partStart)
    (h : Refuses anyPart Part.tokens ts e) : Refuses program Grammar.Program.tokens ts e := by
  cases h with
  | ended hviable hend =>
    refine .ended (hviable.program []) fun t rest ht => program_of_badPart ?_ (hend t rest ht)
    rcases ts with - | ⟨t', ts⟩
    · exact absurd hfront (by decide)
    · exact hfront
  | @blamed before rest kinds reason got hviable hreason hlocal =>
    refine .blamed (hviable.program []) hreason fun rest' => program_of_badPart ?_ (hlocal rest')
    rwa [frontKind_append_cons before got rest' rest]

/-- A refusal stays where it is if a part is put in front. -/
theorem ProgramRefused.cons {x : Part} {rest : List Token} {e : Refusal}
    (hx : ∀ rest', frontKind rest' = frontKind rest →
      program (x.tokens ++ rest') = (program rest').map fun p => x.addTo p)
    (h : ProgramRefused rest e) : ProgramRefused (x.tokens ++ rest) e := by
  -- a part in front of the tokens of a program makes the tokens of another program
  have hviable : ∀ {before kinds}, Viable Grammar.Program.tokens before kinds →
      Viable Grammar.Program.tokens (x.tokens ++ before) kinds := by
    intro before kinds hv
    refine hv.mono fun faces hfaces => ⟨[], ?_⟩
    rw [List.append_nil]
    exact (hfaces.behind x).map (fun y => y.1 :: y.2) fun _ => rfl
  cases h with
  | inside h =>
    refine .inside ?_
    cases h with
    | ended hv hend =>
      refine .ended (hviable hv) fun t rest' ht => ?_
      rw [List.append_assoc, hx _ (frontKind_append_end rest ht rest'), hend t rest' ht]
      rfl
    | @blamed before rest kinds reason got hv hreason hlocal =>
      rw [← List.append_assoc]
      refine .blamed (hviable hv) hreason fun rest' => ?_
      rw [List.append_assoc, hx _ (frontKind_append_cons before got rest' rest), hlocal rest']
      rfl
  | @between d got rest hlocal =>
    rw [← List.append_assoc]
    refine ProgramRefused.between (x :: d) rest fun rest' => ?_
    have hsplit : Grammar.Program.tokens (x :: d) ++ got :: rest' =
        x.tokens ++ (Grammar.Program.tokens d ++ got :: rest') := List.append_assoc ..
    rw [hsplit, hx _ (frontKind_append_cons _ got rest' rest), hlocal rest']
    rfl

/-- **Programs are refused at the first token that no derivation has there.** -/
theorem program_refused {ts : List Token} {e : Refusal} (h : program ts = .error e) :
    ProgramRefused ts e := by
  -- induction on the number of tokens; every part takes some
  induction hn : ts.length using Nat.strong_induction_on generalizing ts with
  | _ n ih =>
    rcases ts with - | ⟨t, ts⟩
    · rw [program_nil] at h
      cases h
    by_cases ht : frontKind (t :: ts) ∈ partStart
    · rcases hpart : anyPart (t :: ts) with e' | ⟨add, rest⟩
      · -- the first part is refused
        rw [program_of_badPart ht hpart] at h
        obtain rfl := Except.error.inj h
        exact .inside ((Exact.refuses_of_error exact_anyPart hpart).program ht)
      · -- the first part is read, so the refusal is made behind it
        rw [program_of_part ht hpart] at h
        obtain ⟨x, hx, rfl, hlocal⟩ := Exact.exists_tree_of_ok exact_anyPart hpart
        rcases hrest : program rest with e' | q
        · rw [hrest] at h
          obtain rfl := Except.error.inj h
          have hlt : rest.length < n := by
            have hpos := length_part_pos x
            rw [← hn, hx, List.length_append]
            omega
          rw [hx]
          exact (ih rest.length hlt hrest rfl).cons fun rest' hfront =>
            program_of_part (front_part x rest') (hlocal rest' hfront)
        · rw [hrest] at h
          cases h
    · rw [program_of_not_mem ts ht] at h
      obtain rfl := Except.error.inj h
      exact .between [] ts fun rest' => program_of_not_mem rest' ht

end Adventure.Parsing
