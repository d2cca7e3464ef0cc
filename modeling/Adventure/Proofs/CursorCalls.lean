import Mathlib.Data.List.Induction
import Adventure.Proofs.Lexing
import Adventure.Source.Cursor

/-!
# Cursors under any calls

Whatever is asked of a cursor, and in whatever order, it stands somewhere in its text: behind as
many characters as were taken. What it has fetched ahead, where it is and whether it knows of the
end all follow from that and from whether the end was looked at (`Cursor.Stands`). Each call keeps
this, so what a call answers can be told from the text and the number of characters taken before
(`Cursor.faithful_under_calls`).
-/

namespace Adventure

namespace Cursor

/-! ## Calls -/

/-- What can be asked of a cursor. -/
inductive Call where
  /-- to take the next character -/
  | next
  /-- to look at the next character -/
  | peek
  /-- to tell what the stream failed with -/
  | failure
  deriving DecidableEq, Repr

/-- What a call leaves. -/
def step (c : Cursor) : Call → Cursor
  | .next => c.next.2
  | .peek => c.peek.2
  | .failure => c

/-- What calls leave, one after the other. -/
def after (c : Cursor) (calls : List Call) : Cursor :=
  calls.foldl step c

theorem after_append (c : Cursor) (calls calls' : List Call) :
    c.after (calls ++ calls') = (c.after calls).after calls' :=
  List.foldl_append

/-- How many characters calls ask to be taken. -/
def taken (calls : List Call) : Nat :=
  calls.count .next

/-- One of the calls looks behind the last character of the text `s`: it takes the next character or
looks at it when all of them were taken. -/
def SeesEnd (s : List Char) (calls : List Call) : Prop :=
  ∃ before call later, calls = before ++ call :: later ∧ call ≠ .failure ∧
    s.length ≤ taken before

theorem seesEnd_nil (s : List Char) : ¬SeesEnd s [] := by
  rintro ⟨before, call, later, h, -⟩
  simp at h

theorem seesEnd_concat {s : List Char} {calls : List Call} {call : Call} :
    SeesEnd s (calls ++ [call]) ↔
      SeesEnd s calls ∨ call ≠ .failure ∧ s.length ≤ taken calls := by
  constructor
  · rintro ⟨before, call', later, h, hcall, hend⟩
    rcases List.eq_nil_or_concat later with rfl | ⟨later, last, rfl⟩
    · obtain ⟨rfl, hlast⟩ := List.append_inj' h rfl
      obtain rfl := List.singleton_inj.mp hlast
      exact .inr ⟨hcall, hend⟩
    · rw [List.concat_eq_append, ← List.cons_append, ← List.append_assoc] at h
      obtain ⟨rfl, -⟩ := List.append_inj' h rfl
      exact .inl ⟨before, call', later, rfl, hcall, hend⟩
  · rintro (⟨before, call', later, rfl, hcall, hend⟩ | ⟨hcall, hend⟩)
    · exact ⟨before, call', later ++ [call], by simp, hcall, hend⟩
    · exact ⟨calls, call, [], rfl, hcall, hend⟩

/-! ## Where a cursor stands -/

/-- The characters that were not taken, those that were fetched ahead included. -/
def pending (c : Cursor) : List Char :=
  match c.ahead with
  | some (some x) => x :: c.unread
  | _ => c.unread

/-- `c.Stands s failure n seen`: the cursor stands in the text `s`, which ends with `failure`,
behind `n` taken characters, or behind all if there are fewer, and has `seen` the end or not. -/
structure Stands (s : List Char) (failure : Option String) (n : Nat) (seen : Prop) (c : Cursor) :
    Prop where
  failure_eq : c.failure = failure
  position : c.position = placeAfter (s.take n)
  pending : c.pending = s.drop n
  /-- what was fetched ahead is the end only if that was seen -/
  ahead : c.ahead = some none → seen
  stopped : seen → c.stop = some (.ofFailure failure) ∧ s.length ≤ n
  going : ¬seen → c.stop = none

variable {s : List Char} {failure : Option String} {n : Nat} {seen : Prop} {c : Cursor}

theorem stands_ofSource (s : List Char) (failure : Option String) :
    (ofSource (.ofChars s failure)).Stands s failure 0 False where
  failure_eq := rfl
  position := rfl
  pending := rfl
  ahead := by simp [ofSource]
  stopped := False.elim
  going := fun _ => rfl

theorem Stands.congr {seen' : Prop} (h : c.Stands s failure n seen) (hseen : seen ↔ seen') :
    c.Stands s failure n seen' := by
  rwa [← propext hseen]

/-- Where a character is left, it is the next one of the text. -/
theorem Stands.getElem?_eq_some (h : c.Stands s failure n seen) {x : Char} {more : List Char}
    (hpending : c.pending = x :: more) : s[n]? = some x ∧ n < s.length := by
  rw [h.pending] at hpending
  have hx : s[n]? = some x := by rw [← List.head?_drop, hpending, List.head?_cons]
  exact ⟨hx, (List.getElem?_eq_some_iff.mp hx).1⟩

/-- Where no character is left, all were taken. -/
theorem Stands.getElem?_eq_none (h : c.Stands s failure n seen) (hpending : c.pending = []) :
    s[n]? = none ∧ s.length ≤ n := by
  rw [h.pending] at hpending
  have hend : s.length ≤ n := List.drop_eq_nil_iff.mp hpending
  exact ⟨List.getElem?_eq_none hend, hend⟩

theorem Stands.pending_of_seen (h : c.Stands s failure n seen) (hseen : seen) :
    c.pending = [] := by
  rw [h.pending]
  exact List.drop_eq_nil_of_le (h.stopped hseen).2

/-- Once the stream has stopped, the end was seen. -/
theorem Stands.seen_iff (h : c.Stands s failure n seen) : seen ↔ c.stop ≠ none := by
  constructor
  · intro hseen
    simp [(h.stopped hseen).1]
  · intro hstop
    by_contra hseen
    exact hstop (h.going hseen)

/-- A cursor that has fetched nothing ahead fetches the next character, and keeps it. -/
theorem Stands.fetch (h : c.Stands s failure n seen) (hahead : c.ahead = none) :
    c.fetch.1 = s[n]? ∧
      { c.fetch.2 with ahead := some c.fetch.1 }.Stands s failure n (seen ∨ s.length ≤ n) := by
  have hpending : c.pending = c.unread := by simp [Cursor.pending, hahead]
  unfold Cursor.fetch
  split
  · -- the stream has stopped before
    next stop hstop =>
    have hseen : seen := h.seen_iff.mpr (by simp [hstop])
    obtain ⟨hnone, hend⟩ := h.getElem?_eq_none (h.pending_of_seen hseen)
    refine ⟨hnone.symm, h.failure_eq, h.position, ?_, fun _ => .inl hseen,
      fun _ => h.stopped hseen, fun hnot => absurd (.inl hseen) hnot⟩
    rw [← h.pending, hpending]
    rfl
  · next hstop =>
    have hseen : ¬seen := fun hseen => h.seen_iff.mp hseen hstop
    split
    · -- it stops now
      next hunread =>
      obtain ⟨hnone, hend⟩ := h.getElem?_eq_none (hpending.trans hunread)
      refine ⟨hnone.symm, h.failure_eq, h.position, ?_, fun _ => .inr hend,
        fun _ => ⟨congrArg (some ∘ StreamEnd.ofFailure) h.failure_eq, hend⟩,
        fun hnot => absurd (.inr hend) hnot⟩
      rw [← h.pending, hpending]
      rfl
    · next x unread hunread =>
      -- there is a character left, so it does not stop
      obtain ⟨hx, hlt⟩ := h.getElem?_eq_some (hpending.trans hunread)
      have hnot : ¬(seen ∨ s.length ≤ n) := not_or.mpr ⟨hseen, by omega⟩
      refine ⟨hx.symm, h.failure_eq, h.position, ?_, fun hcontra => by simp at hcontra,
        fun hcontra => absurd hcontra hnot, fun _ => hstop⟩
      rw [← h.pending, hpending, hunread]
      rfl

/-- **Looking ahead** gives the next character and moves nothing, but the end may be seen. -/
theorem Stands.peek (h : c.Stands s failure n seen) :
    c.peek.1 = s[n]? ∧ c.peek.2.Stands s failure n (seen ∨ s.length ≤ n) := by
  unfold Cursor.peek
  split
  · next x hahead =>
    cases x with
    | none =>
      have hseen := h.ahead hahead
      have hnone := h.getElem?_eq_none (h.pending_of_seen hseen)
      exact ⟨hnone.1.symm, h.congr ⟨.inl, fun _ => hseen⟩⟩
    | some x =>
      have hpending : c.pending = x :: c.unread := by simp [Cursor.pending, hahead]
      obtain ⟨hx, hlt⟩ := h.getElem?_eq_some hpending
      exact ⟨hx.symm, h.congr ⟨.inl, fun hor => hor.resolve_right (by omega)⟩⟩
  · next hahead => exact h.fetch hahead

theorem peek_ahead (c : Cursor) : c.peek.2.ahead = some c.peek.1 := by
  unfold Cursor.peek
  split
  · next x hahead => exact hahead
  · rfl

theorem take_succ_of_getElem? {x : Char} (hx : s[n]? = some x) :
    s.take (n + 1) = s.take n ++ [x] := by
  rw [List.take_add_one, hx]
  rfl

/-- **Taking the next character** moves behind it, and nowhere at the end. -/
theorem Stands.next (h : c.Stands s failure n seen) :
    c.next.1 = s[n]? ∧ c.next.2.Stands s failure (n + 1) (seen ∨ s.length ≤ n) := by
  obtain ⟨hpeek, hstands⟩ := h.peek
  have hahead := c.peek_ahead
  unfold Cursor.next
  rw [hpeek] at hahead ⊢
  rcases hx : s[n]? with - | x
  -- nothing comes behind the end, and the place stays
  · have hend : s.length ≤ n := List.getElem?_eq_none_iff.mp hx
    have hseen : seen ∨ s.length ≤ n := .inr hend
    refine ⟨rfl, hstands.failure_eq, ?_, ?_, fun hcontra => by simp at hcontra, fun _ => ?_,
      fun hnot => absurd hseen hnot⟩
    · rw [List.take_of_length_le (by omega), ← List.take_of_length_le hend]
      exact hstands.position
    · have hpending := hstands.pending_of_seen hseen
      rw [hx] at hahead
      rw [List.drop_eq_nil_of_le (by omega), ← hpending]
      simp [Cursor.pending, hahead]
    · exact ⟨(hstands.stopped hseen).1, by omega⟩
  · have hlt : n < s.length := (List.getElem?_eq_some_iff.mp hx).1
    rw [hx] at hahead
    refine ⟨rfl, hstands.failure_eq, ?_, ?_, fun hcontra => by simp at hcontra, fun hseen => ?_,
      hstands.going⟩
    · rw [take_succ_of_getElem? hx, ← step_placeAfter, ← hstands.position]
    -- the character ahead is the one that is taken
    · have hpending : x :: c.peek.2.unread = s.drop n := by
        rw [← hstands.pending]
        simp [Cursor.pending, hahead]
      simpa [Cursor.pending, List.tail_drop] using congrArg List.tail hpending
    · exact ⟨(hstands.stopped hseen).1, by have := (hstands.stopped hseen).2; omega⟩

/-- **Calls keep a cursor in its text**, behind as many characters as they took. -/
theorem stands_after (s : List Char) (failure : Option String) (calls : List Call) :
    ((ofSource (.ofChars s failure)).after calls).Stands s failure (taken calls)
      (SeesEnd s calls) := by
  induction calls using List.reverseRecOn with
  | nil => exact (stands_ofSource s failure).congr (iff_of_false id (seesEnd_nil s))
  | append_singleton calls call ih =>
    rw [after_append]
    cases call with
    | next =>
      have htaken : taken (calls ++ [.next]) = taken calls + 1 := by simp [taken]
      rw [htaken]
      exact ih.next.2.congr (by simp [seesEnd_concat])
    | peek =>
      have htaken : taken (calls ++ [.peek]) = taken calls := by simp [taken]
      rw [htaken]
      exact ih.peek.2.congr (by simp [seesEnd_concat])
    | failure =>
      have htaken : taken (calls ++ [.failure]) = taken calls := by simp [taken]
      rw [htaken]
      exact ih.congr (by simp [seesEnd_concat])

theorem Stands.failure? (h : c.Stands s failure n seen) :
    (seen → c.failure? = failure) ∧ (¬seen → c.failure? = none) := by
  constructor
  · intro hseen
    rw [Cursor.failure?, (h.stopped hseen).1]
    cases failure <;> rfl
  · intro hseen
    rw [Cursor.failure?, h.going hseen]

/-- **A cursor is faithful to its text under any calls.** After any calls on a cursor at the front
of a text, the next character is the one behind those that were taken, and there is none forever
once all were. To look at it gives the same, and does not change what any later call takes, nor
where it leaves the cursor. The place is that behind the characters taken: one line more than
newlines, and as many columns as characters after the last of them. No failure is told of until a
call has looked behind the last character, and the failure of the stream, if there is one, from then
on. -/
theorem faithful_under_calls (s : List Char) (failure : Option String) (calls : List Call) :
    let c := (ofSource (.ofChars s failure)).after calls
    c.next.1 = s[taken calls]? ∧
    c.peek.1 = c.next.1 ∧
    (∀ later, (c.peek.2.after later).next.1 = (c.after later).next.1 ∧
      (c.peek.2.after later).position = (c.after later).position) ∧
    c.position = ⟨1 + (s.take (taken calls)).count '\n',
      ((s.take (taken calls)).reverse.takeWhile (· != '\n')).length⟩ ∧
    (¬SeesEnd s calls → c.failure? = none) ∧
    (SeesEnd s calls → c.failure? = failure) := by
  intro c
  have hstands : c.Stands s failure (taken calls) (SeesEnd s calls) := stands_after s failure calls
  refine ⟨hstands.next.1, hstands.peek.1.trans hstands.next.1.symm, fun later => ?_, ?_,
    hstands.failure?.2, hstands.failure?.1⟩
  · -- with the look and without it, the same number of characters is taken
    have hwithout := stands_after s failure (calls ++ later)
    have hwith := stands_after s failure (calls ++ .peek :: later)
    have htaken : taken (calls ++ .peek :: later) = taken (calls ++ later) := by
      simp [taken, List.count_append]
    rw [htaken, after_append] at hwith
    rw [after_append] at hwithout
    exact ⟨hwith.next.1.trans hwithout.next.1.symm, hwith.position.trans hwithout.position.symm⟩
  · rw [hstands.position, placeAfter, Nat.add_comm]

end Cursor

end Adventure
