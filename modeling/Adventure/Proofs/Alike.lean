import Adventure.Proofs.Settled

/-!
# Computations that come to the same

How many steps a computation takes is no part of what it does. Two computations are alike if each
has the outcomes of the other as soon as it has enough steps (`Outcome.Alike`): the one ends if the
other does, and then with the same value or the same error and in the same state.

Computations that are put together from computations that are alike are alike themselves. A
computation is like itself if more steps change nothing about its outcome, and for the interpreter
this is what `Rules.keptAt` says (`Rules.selfAlike`).
-/

namespace Adventure

namespace Outcome

variable {σ τ α β : Type}

/-- Every outcome of `f` is the outcome of `g` from some number of steps on. -/
def Follows (f g : Nat → Outcome σ α) : Prop :=
  ∀ n, f n ≠ .unfinished → ∃ least, ∀ k, least ≤ k → g k = f n

namespace Follows

variable {f g h : Nat → Outcome σ α}

theorem trans (hfg : Follows f g) (hgh : Follows g h) : Follows f h := by
  intro n hn
  obtain ⟨least, hleast⟩ := hfg n hn
  have hsame := hleast least (Nat.le_refl _)
  rw [← hsame] at hn ⊢
  exact hgh least hn

/-- A computation that needs a step is followed if it is without that step. -/
theorem of_succ_left (hzero : f 0 = .unfinished) (h : Follows (fun n => f (n + 1)) g) :
    Follows f g := by
  intro n hn
  cases n with
  | zero => exact absurd hzero hn
  | succ n => exact h n hn

/-- What is followed by a computation with a step more is followed by it. -/
theorem of_succ_right (h : Follows f fun n => g (n + 1)) : Follows f g := by
  intro n hn
  obtain ⟨least, hleast⟩ := h n hn
  refine ⟨least + 1, fun k hk => ?_⟩
  obtain ⟨k, rfl⟩ : ∃ j, k = j + 1 := ⟨k - 1, by omega⟩
  exact hleast k (Nat.le_of_succ_le_succ hk)

/-- A step more does no harm to what follows. -/
theorem succ_right (h : Follows f g) : Follows f fun n => g (n + 1) := by
  intro n hn
  obtain ⟨least, hleast⟩ := h n hn
  exact ⟨least, fun k hk => hleast (k + 1) (Nat.le_succ_of_le hk)⟩

/-- Where one computation is followed by another, so is what goes on after it. -/
theorem bind {f f' : Nat → Outcome σ α} {g g' : α → σ → Nat → Outcome σ β} (h : Follows f f')
    (hg : ∀ a s, Follows (g a s) (g' a s)) :
    Follows (fun n => (f n).bind fun a s => g a s n) fun n => (f' n).bind fun a s => g' a s n := by
  intro n hn
  rcases hf : f n with ⟨a, s⟩ | ⟨e, s⟩ | -
  · simp only [hf, bind_done] at hn ⊢
    obtain ⟨least, hleast⟩ := h n (by simp [hf])
    obtain ⟨least', hleast'⟩ := hg a s n hn
    -- both parts have their outcomes from the larger number of steps on
    refine ⟨max least least', fun k hk => ?_⟩
    rw [hleast k (Nat.le_trans (Nat.le_max_left _ _) hk), hf, bind_done]
    exact hleast' k (Nat.le_trans (Nat.le_max_right _ _) hk)
  · obtain ⟨least, hleast⟩ := h n (by simp [hf])
    refine ⟨least, fun k hk => ?_⟩
    simp only [hleast k hk, hf, bind_failed]
  · simp only [hf, bind_unfinished] at hn
    exact absurd rfl hn

/-- Another state at the end is followed by that state. -/
theorem mapState (φ : σ → τ) (h : Follows f g) :
    Follows (fun n => (f n).mapState φ) fun n => (g n).mapState φ := by
  intro n hn
  obtain ⟨least, hleast⟩ := h n fun hf => hn (by simp only [hf, Outcome.mapState])
  exact ⟨least, fun k hk => congrArg (Outcome.mapState φ) (hleast k hk)⟩

/-- Another error at the end is followed by that error. -/
theorem mapError (φ : RuntimeError → RuntimeError) (h : Follows f g) :
    Follows (fun n => (f n).mapError φ) fun n => (g n).mapError φ := by
  intro n hn
  obtain ⟨least, hleast⟩ := h n fun hf => hn (by simp only [hf, Outcome.mapError])
  exact ⟨least, fun k hk => congrArg (Outcome.mapError φ) (hleast k hk)⟩

end Follows

/-- Each of the computations has the outcomes of the other. -/
structure Alike (f g : Nat → Outcome σ α) : Prop where
  forth : Follows f g
  back : Follows g f

namespace Alike

variable {f g h : Nat → Outcome σ α}

/-- An outcome that takes no steps is like itself. -/
theorem const (o : Outcome σ α) : Alike (fun _ => o) fun _ => o :=
  ⟨fun _ _ => ⟨0, fun _ _ => rfl⟩, fun _ _ => ⟨0, fun _ _ => rfl⟩⟩

theorem symm (hfg : Alike f g) : Alike g f :=
  ⟨hfg.back, hfg.forth⟩

theorem trans (hfg : Alike f g) (hgh : Alike g h) : Alike f h :=
  ⟨hfg.forth.trans hgh.forth, hgh.back.trans hfg.back⟩

/-- A step more or less does not matter to a computation that needs one. -/
theorem of_succ (hzero : f 0 = .unfinished) (h : Alike (fun n => f (n + 1)) g) : Alike f g :=
  ⟨h.forth.of_succ_left hzero, h.back.of_succ_right⟩

/-- A step more does not matter. -/
theorem succ (h : Alike f g) : Alike (fun n => f (n + 1)) g :=
  ⟨fun n hn => h.forth (n + 1) hn, h.back.succ_right⟩

/-- A computation whose outcome stays as it is is like itself. -/
theorem refl_of_kept (h : ∀ n k, n ≤ k → Kept (· ≠ none) id (f n) (f k)) : Alike f f :=
  have hfollows : Follows f f := fun n hn => ⟨n, fun k hk => (h n k hk).eq_of_finished hn⟩
  ⟨hfollows, hfollows⟩

/-- What is put together from computations that are alike is alike. -/
theorem bind {f f' : Nat → Outcome σ α} {g g' : α → σ → Nat → Outcome σ β} (h : Alike f f')
    (hg : ∀ a s, Alike (g a s) (g' a s)) :
    Alike (fun n => (f n).bind fun a s => g a s n) fun n => (f' n).bind fun a s => g' a s n :=
  ⟨h.forth.bind fun a s => (hg a s).forth, h.back.bind fun a s => (hg a s).back⟩

/-- Computations that are alike still are so if both have another state at the end. -/
theorem mapState (φ : σ → τ) (h : Alike f g) :
    Alike (fun n => (f n).mapState φ) fun n => (g n).mapState φ :=
  ⟨h.forth.mapState φ, h.back.mapState φ⟩

/-- Computations that are alike still are so if both have another error at the end. -/
theorem mapError (φ : RuntimeError → RuntimeError) (h : Alike f g) :
    Alike (fun n => (f n).mapError φ) fun n => (g n).mapError φ :=
  ⟨h.forth.mapError φ, h.back.mapError φ⟩

end Alike

end Outcome

open Outcome (Alike)

/-! ## The interpreter -/

namespace Rules

/-- What statements are put together from is like itself. -/
structure SelfAlike (r : Rules) : Prop where
  test : ∀ scope c w, Alike (fun n => r.test n scope c w) fun n => r.test n scope c w
  sequence : ∀ statements s,
    Alike (fun n => r.sequence n statements s) fun n => r.sequence n statements s
  statement : ∀ st s, Alike (fun n => r.statement n st s) fun n => r.statement n st s
  loop : ∀ c body s, Alike (fun n => r.loop n c body s) fun n => r.loop n c body s

/-- More steps keep every outcome that there is. -/
theorem keptAt_self (r : Rules) {n k : Nat} (hle : n ≤ k) : KeptAt (· ≠ none) #[] r r n k :=
  keptAt (.refl _ r) hle fun hnone => absurd rfl hnone

/-- What statements are put together from is like itself, since more steps change no outcome. -/
theorem selfAlike (r : Rules) : r.SelfAlike := by
  refine ⟨fun scope c w => .refl_of_kept fun n k hle => ?_,
    fun statements s => .refl_of_kept fun n k hle => ?_,
    fun st s => .refl_of_kept fun n k hle => ?_,
    fun c body s => .refl_of_kept fun n k hle => ?_⟩
  · simpa only [World.following_empty, id] using (r.keptAt_self hle).test scope c w
  · simpa only [Store.following_empty, id] using (r.keptAt_self hle).sequence statements s
  · simpa only [Store.following_empty, id] using (r.keptAt_self hle).statement st s
  · simpa only [Store.following_empty, id] using (r.keptAt_self hle).loop c body s

end Rules

end Adventure
