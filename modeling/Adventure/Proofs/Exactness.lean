import Adventure.Parsing.Basic
import Adventure.Proofs.Lexing

/-!
# Exact readers

What it takes for a reader of tokens to be right about a set of trees, and how to put such readers
together.

A reader here is a function from tokens to a value and the tokens that are left (`Reader`). Five
forms are enough for all of the language: `Reader.give`, `Reader.bind`, `Reader.choose`, which looks
at the next token, and `Reader.take`, which takes it; `Exact.map` changes the trees.

`Exact n f stop tokens value` says that on at most `n` tokens `f` reads exactly the trees of a type:

* what is read is a tree, and the front of what is left decides where reading ends (`sound`);
* every tree is read, if what follows it does not begin with a kind in `stop` (`complete`);
* no two trees are written alike (`unique`);
* a refusal is made at the first token that no tree has there: what stands before it can be
  completed to a tree with each of the expected kinds, and what stands behind it does not matter
  (`refuse`).

The number `n` is what recursion descends on. No token of the end of a source is ever in a list of
tokens, so where tokens run out the front counts as one (`frontKind`).
-/

namespace Adventure

namespace Parsing

variable {α β γ X Y : Type}

/-! ## Readers without proofs of progress -/

/-- A reader of tokens. -/
abbrev Reader (α : Type) : Type :=
  List Token → Except Refusal (α × List Token)

namespace Reader

/-- Gives a value and takes nothing. -/
def give (a : α) : Reader α :=
  fun ts => .ok (a, ts)

/-- Reads one thing after another. -/
def bind (f : Reader α) (g : α → Reader β) : Reader β := fun ts =>
  match f ts with
  | .ok (a, rest) => g a rest
  | .error e => .error e

theorem bind_of_ok {f : Reader α} {g : α → Reader β} {ts rest : List Token} {a : α}
    (h : f ts = .ok (a, rest)) : f.bind g ts = g a rest := by
  rw [bind, h]

theorem bind_of_error {f : Reader α} {g : α → Reader β} {ts : List Token} {e : Refusal}
    (h : f ts = .error e) : f.bind g ts = .error e := by
  rw [bind, h]

/-- Takes the next token, which has to be of an expected kind and to pass a check, and reads on. -/
def take (kinds : List Kind) (check : Token → Except Rejection β) (g : Token → β → Reader α) :
    Reader α
  | [] => .error ⟨.ended kinds, []⟩
  | t :: ts =>
    if t.kind ∈ kinds then
      match check t with
      | .ok b => g t b ts
      | .error reason => .error ⟨reason, ts⟩
    else .error ⟨.unexpected kinds t, ts⟩

section Take

variable {kinds : List Kind} {check : Token → Except Rejection β} {g : Token → β → Reader α}
  {t : Token} (ts : List Token)

theorem take_of_ok {b : β} (ht : t.kind ∈ kinds) (hb : check t = .ok b) :
    take kinds check g (t :: ts) = g t b ts := by
  rw [take, if_pos ht, hb]

theorem take_of_error {reason : Rejection} (ht : t.kind ∈ kinds)
    (hreason : check t = .error reason) : take kinds check g (t :: ts) = .error ⟨reason, ts⟩ := by
  rw [take, if_pos ht, hreason]

theorem take_of_not_mem (ht : t.kind ∉ kinds) :
    take kinds check g (t :: ts) = .error ⟨.unexpected kinds t, ts⟩ := by
  rw [take, if_neg ht]

theorem take_bind_of_ok {k : α → Reader γ} {b : β} (ht : t.kind ∈ kinds) (hb : check t = .ok b) :
    (take kinds check g).bind k (t :: ts) = (g t b).bind k ts := by
  rw [bind, bind, take_of_ok ts ht hb]

end Take

end Reader

/-- The kind of the next token; the end if there is none. -/
def frontKind : List Token → Kind
  | [] => .endOfFile
  | t :: _ => t.kind

@[simp] theorem frontKind_nil : frontKind [] = .endOfFile := rfl

@[simp] theorem frontKind_cons (t : Token) (ts : List Token) : frontKind (t :: ts) = t.kind := rfl

theorem frontKind_append_congr {ts us vs : List Token} (h : frontKind us = frontKind vs) :
    frontKind (ts ++ us) = frontKind (ts ++ vs) := by
  cases ts with
  | nil => exact h
  | cons t ts => rfl

theorem frontKind_append_cons (ts : List Token) (t : Token) (us vs : List Token) :
    frontKind (ts ++ t :: us) = frontKind (ts ++ t :: vs) :=
  frontKind_append_congr rfl

/-- A mark of the end behind tokens does not change their front. -/
theorem frontKind_append_end (ts : List Token) {t : Token} (ht : t.kind = .endOfFile)
    (us : List Token) : frontKind (ts ++ t :: us) = frontKind ts := by
  conv => rhs; rw [← List.append_nil ts]
  exact frontKind_append_congr ht

/-- Reads in one way if the next token is of one of the kinds, and else in another. -/
def Reader.choose (kinds : List Kind) (f g : Reader α) : Reader α := fun ts =>
  if frontKind ts ∈ kinds then f ts else g ts

/-! ## What a refusal tells -/

/-- `reason.Blames kinds got`: tokens are refused for the token `got`, where one of `kinds` could
stand. -/
inductive Rejection.Blames (kinds : List Kind) (got : Token) : Rejection → Prop where
  | unexpected : Blames kinds got (.unexpected kinds got)
  | badNumber (fault : Text.Numeral.Fault) : Blames kinds got (.badNumber got fault)
  | badDice (half : String) (fault : Text.Numeral.Fault) :
      Blames kinds got (.badDice got half fault)

/-- Behind `before`, tokens of the given faces make up a tree, wherever they stand; and some text
writes each of them. -/
structure Writes (tokens : X → List Token) (before : List Token) (faces : List (Kind × String)) :
    Prop where
  spelled : ∀ face ∈ faces, ∃ cs, Lexeme face.1 face.2 cs
  exists_tree : ∀ us : List Token, us.map Token.face = faces → ∃ x, tokens x = before ++ us

namespace Writes

variable {tokens : X → List Token} {tokens' : Y → List Token} {before : List Token}
  {faces faces' : List (Kind × String)}

theorem map (h : Writes tokens before faces) (φ : X → Y) (hφ : ∀ x, tokens' (φ x) = tokens x) :
    Writes tokens' before faces where
  spelled := h.spelled
  exists_tree := by
    intro us hus
    obtain ⟨x, hx⟩ := h.exists_tree us hus
    exact ⟨φ x, by rw [hφ, hx]⟩

theorem pair (h : Writes tokens before faces) (h' : Writes tokens' [] faces') :
    Writes (fun x : X × Y => tokens x.1 ++ tokens' x.2) before (faces ++ faces') where
  spelled := by
    intro face hface
    rcases List.mem_append.mp hface with hface | hface
    · exact h.spelled face hface
    · exact h'.spelled face hface
  exists_tree := by
    intro us hus
    obtain ⟨us₁, us₂, rfl, hus₁, hus₂⟩ := List.map_eq_append_iff.mp hus
    obtain ⟨x, hx⟩ := h.exists_tree us₁ hus₁
    obtain ⟨y, hy⟩ := h'.exists_tree us₂ hus₂
    exact ⟨(x, y), by simp [hx, hy]⟩

/-- A tree in front belongs to what stands before. -/
theorem behind (x : X) (h : Writes tokens' before faces) :
    Writes (fun x : X × Y => tokens x.1 ++ tokens' x.2) (tokens x ++ before) faces where
  spelled := h.spelled
  exists_tree := by
    intro us hus
    obtain ⟨y, hy⟩ := h.exists_tree us hus
    exact ⟨(x, y), by simp [hy]⟩

end Writes

/-- Some tree is written by some text. -/
def Spare (tokens : X → List Token) : Prop :=
  ∃ faces, Writes tokens [] faces

/-- Behind `before` each of the kinds can stand: some tree goes on with it. -/
def Viable (tokens : X → List Token) (before : List Token) (kinds : List Kind) : Prop :=
  kinds ≠ [] ∧ ∀ kind ∈ kinds, ∃ value faces, Writes tokens before ((kind, value) :: faces)

theorem Viable.mono {tokens : X → List Token} {tokens' : Y → List Token}
    {before before' : List Token} {kinds : List Kind} (h : Viable tokens before kinds)
    (hwrites : ∀ faces, Writes tokens before faces →
      ∃ faces', Writes tokens' before' (faces ++ faces')) : Viable tokens' before' kinds := by
  obtain ⟨hne, hall⟩ := h
  refine ⟨hne, fun kind hkind => ?_⟩
  obtain ⟨value, faces, hfaces⟩ := hall kind hkind
  obtain ⟨faces', hfaces'⟩ := hwrites _ hfaces
  exact ⟨value, faces ++ faces', hfaces'⟩

/-- A reader refuses tokens at the first place where no tree has the next one. -/
inductive Refused (n : Nat) (f : Reader α) (tokens : X → List Token) :
    List Token → Refusal → Prop where
  /-- the tokens ended -/
  | ended {before : List Token} {kinds : List Kind} (hviable : Viable tokens before kinds)
      (hend : ∀ t rest, t.kind = .endOfFile → (before ++ t :: rest).length ≤ n →
        f (before ++ t :: rest) = .error ⟨.unexpected kinds t, rest⟩) :
      Refused n f tokens before ⟨.ended kinds, []⟩
  /-- a token is of the wrong kind, or a literal does not fit -/
  | blamed {before rest : List Token} {kinds : List Kind} {reason : Rejection} {got : Token}
      (hviable : Viable tokens before kinds) (hreason : reason.Blames kinds got)
      (hlocal : ∀ rest', (before ++ got :: rest').length ≤ n →
        f (before ++ got :: rest') = .error ⟨reason, rest'⟩) :
      Refused n f tokens (before ++ got :: rest) ⟨reason, rest⟩

theorem Viable.map {tokens : X → List Token} {tokens' : Y → List Token} {before : List Token}
    {kinds : List Kind} (h : Viable tokens before kinds) (φ : X → Y)
    (hφ : ∀ x, tokens' (φ x) = tokens x) : Viable tokens' before kinds :=
  h.mono fun faces hfaces => ⟨[], by rw [List.append_nil]; exact hfaces.map φ hφ⟩

/-- A refusal is shared by a reader that agrees wherever the front is the same. -/
theorem Refused.map {n : Nat} {f f' : Reader α} {tokens : X → List Token}
    {tokens' : Y → List Token} {ts : List Token} {e : Refusal} (h : Refused n f tokens ts e)
    (hf : ∀ us, frontKind us = frontKind ts → f' us = f us) (φ : X → Y)
    (hφ : ∀ x, tokens' (φ x) = tokens x) : Refused n f' tokens' ts e := by
  cases h with
  | ended hviable hend =>
    refine .ended (hviable.map φ hφ) fun t rest ht hn => ?_
    rw [hf _ (frontKind_append_end ts ht rest)]
    exact hend t rest ht hn
  | @blamed before rest kinds reason got hviable hreason hlocal =>
    refine .blamed (hviable.map φ hφ) hreason fun rest' hn => ?_
    rw [hf _ (frontKind_append_cons before got rest' rest)]
    exact hlocal rest' hn

/-- The reader `f` reads exactly the trees whose tokens are `tokens` and whose value is `value`, on
at most `n` tokens and where none of the kinds `stop` follows. -/
structure Exact (n : Nat) (f : Reader α) (stop : List Kind) (tokens : X → List Token)
    (value : X → α) : Prop where
  /-- what is read is a tree -/
  sound : ∀ ts a rest, ts.length ≤ n → f ts = .ok (a, rest) →
    ∃ x, ts = tokens x ++ rest ∧ a = value x ∧
      ∀ rest', frontKind rest' = frontKind rest → (tokens x ++ rest').length ≤ n →
        f (tokens x ++ rest') = .ok (a, rest')
  /-- every tree is read -/
  complete : ∀ x rest, (tokens x ++ rest).length ≤ n → frontKind rest ∉ stop →
    f (tokens x ++ rest) = .ok (value x, rest)
  /-- no two trees are written alike -/
  unique : ∀ x y rest rest', tokens x ++ rest = tokens y ++ rest' →
    (tokens x ++ rest).length ≤ n → frontKind rest ∉ stop → frontKind rest' ∉ stop → x = y
  /-- refusals are made at the first token that no tree has there -/
  refuse : ∀ ts e, ts.length ≤ n → f ts = .error e → Refused n f tokens ts e

namespace Exact

variable {n : Nat} {f : Reader α} {stop : List Kind} {tokens : X → List Token} {value : X → α}

/-! ## Putting readers together -/

/-- A reader that takes nothing reads the empty tree. -/
theorem give (a : α) : Exact n (Reader.give a) [] (fun _ : Unit => []) (fun _ => a) where
  sound := by
    intro ts b rest _ h
    obtain ⟨rfl, rfl⟩ : a = b ∧ ts = rest := by simpa [Reader.give] using h
    exact ⟨(), rfl, rfl, fun _ _ _ => rfl⟩
  complete := fun _ _ _ _ => rfl
  unique := fun _ _ _ _ _ _ _ _ => rfl
  refuse := by
    intro ts e _ h
    cases h

/-- The trees may be replaced by others that they cover. -/
theorem map {tokens' : Y → List Token} {value' : Y → α} (h : Exact n f stop tokens value)
    (φ : X → Y) (hφ : ∀ y, ∃ x, φ x = y) (htokens : ∀ x, tokens' (φ x) = tokens x)
    (hvalue : ∀ x, value' (φ x) = value x) : Exact n f stop tokens' value' where
  sound := by
    intro ts a rest hn hf
    obtain ⟨x, hts, ha, hlocal⟩ := h.sound ts a rest hn hf
    refine ⟨φ x, by rw [htokens, hts], by rw [hvalue, ha], ?_⟩
    rw [htokens]
    exact hlocal
  complete := by
    intro y rest hn hstop
    obtain ⟨x, rfl⟩ := hφ y
    rw [htokens] at hn ⊢
    rw [hvalue]
    exact h.complete x rest hn hstop
  unique := by
    intro y y' rest rest' heq hn hstop hstop'
    obtain ⟨x, rfl⟩ := hφ y
    obtain ⟨x', rfl⟩ := hφ y'
    rw [htokens, htokens] at heq
    rw [htokens] at hn
    rw [h.unique x x' rest rest' heq hn hstop hstop']
  refuse := fun ts e hn hf => (h.refuse ts e hn hf).map (fun _ _ => rfl) φ htokens

/-- More kinds may be forbidden behind a tree. -/
theorem mono_stop {stop' : List Kind} (h : Exact n f stop tokens value) (hsub : stop ⊆ stop') :
    Exact n f stop' tokens value where
  sound := h.sound
  complete := fun x rest hn hstop => h.complete x rest hn fun hmem => hstop (hsub hmem)
  unique := fun x y rest rest' heq hn hstop hstop' =>
    h.unique x y rest rest' heq hn (fun hmem => hstop (hsub hmem)) fun hmem => hstop' (hsub hmem)
  refuse := h.refuse

/-! ### One thing after another -/

section Seq

variable {g : α → Reader β} {stop' : List Kind} {tokens' : Y → List Token} {value' : α → Y → β}

theorem sound_bind {k : Nat} (hf : Exact n f stop tokens value)
    (hk : ∀ x, k ≤ (tokens x).length)
    (hg : ∀ a m, m + k ≤ n → Exact m (g a) stop' tokens' (value' a)) {ts : List Token} {b : β}
    {rest : List Token} (hn : ts.length ≤ n) (h : f.bind g ts = .ok (b, rest)) :
    ∃ x : X × Y, ts = tokens x.1 ++ tokens' x.2 ++ rest ∧ b = value' (value x.1) x.2 ∧
      ∀ rest', frontKind rest' = frontKind rest →
        (tokens x.1 ++ tokens' x.2 ++ rest').length ≤ n →
        f.bind g (tokens x.1 ++ tokens' x.2 ++ rest') = .ok (b, rest') := by
  rcases hfts : f ts with e | ⟨a, r⟩
  · rw [Reader.bind_of_error hfts] at h
    cases h
  rw [Reader.bind_of_ok hfts] at h
  obtain ⟨x, rfl, rfl, hlocal⟩ := hf.sound ts a r hn hfts
  -- the second reader has only what the first one leaves, so it may be exact on fewer tokens
  have hx := hk x
  rw [List.length_append] at hn
  obtain ⟨y, rfl, rfl, hlocal'⟩ :=
    (hg (value x) (n - (tokens x).length) (by omega)).sound r b rest (by omega) h
  refine ⟨(x, y), by rw [List.append_assoc], rfl, fun rest' hfront hn' => ?_⟩
  simp only [List.append_assoc] at hn' ⊢
  rw [Reader.bind_of_ok (hlocal _ (frontKind_append_congr hfront) hn')]
  rw [List.length_append] at hn'
  exact hlocal' rest' hfront (by omega)

theorem refuse_bind {k : Nat} (hf : Exact n f stop tokens value)
    (hk : ∀ x, k ≤ (tokens x).length)
    (hg : ∀ a m, m + k ≤ n → Exact m (g a) stop' tokens' (value' a))
    (hspare : Spare tokens') {ts : List Token} {e : Refusal}
    (hn : ts.length ≤ n) (h : f.bind g ts = .error e) :
    Refused n (f.bind g) (fun x : X × Y => tokens x.1 ++ tokens' x.2) ts e := by
  rcases hfts : f ts with e' | ⟨a, r⟩
  · -- the first reader refuses, and any tree of the second completes a tree of the first
    obtain rfl : e' = e := by simpa [Reader.bind_of_error hfts] using h
    obtain ⟨spare, hspare⟩ := hspare
    have hviable : ∀ {before kinds}, Viable tokens before kinds →
        Viable (fun x : X × Y => tokens x.1 ++ tokens' x.2) before kinds :=
      fun hv => hv.mono fun faces hfaces => ⟨spare, hfaces.pair hspare⟩
    cases hf.refuse ts e' hn hfts with
    | ended hv hend =>
      exact .ended (hviable hv) fun t rest ht hn' => Reader.bind_of_error (hend t rest ht hn')
    | blamed hv hreason hlocal =>
      exact .blamed (hviable hv) hreason fun rest' hn' => Reader.bind_of_error (hlocal rest' hn')
  · -- the second reader refuses, behind a tree of the first
    rw [Reader.bind_of_ok hfts] at h
    obtain ⟨x, rfl, rfl, hlocal⟩ := hf.sound ts a r hn hfts
    have hx := hk x
    rw [List.length_append] at hn
    have hviable : ∀ {before kinds}, Viable tokens' before kinds →
        Viable (fun x : X × Y => tokens x.1 ++ tokens' x.2) (tokens x ++ before) kinds :=
      fun hv => hv.mono fun faces hfaces => ⟨[], by rw [List.append_nil]; exact hfaces.behind x⟩
    cases (hg (value x) (n - (tokens x).length) (by omega)).refuse r e (by omega) h with
    | ended hv hend =>
      refine .ended (hviable hv) fun t rest ht hn' => ?_
      rw [List.append_assoc] at hn' ⊢
      rw [Reader.bind_of_ok (hlocal _ (frontKind_append_end r ht rest) hn')]
      rw [List.length_append] at hn'
      exact hend t rest ht (by omega)
    | @blamed before rest kinds reason got hv hreason hlocal' =>
      rw [← List.append_assoc]
      refine .blamed (hviable hv) hreason fun rest' hn' => ?_
      rw [List.append_assoc] at hn' ⊢
      rw [Reader.bind_of_ok (hlocal _ (frontKind_append_cons before got rest' rest) hn')]
      rw [List.length_append] at hn'
      exact hlocal' rest' (by omega)

/-- **Readers in a row** read pairs of trees, if no tree of the second begins with what must not
follow a tree of the first. The second reader need be exact only on what the first leaves, which
takes at least `k` tokens. -/
theorem bind (k : Nat) (hf : Exact n f stop tokens value)
    (hg : ∀ a m, m + k ≤ n → Exact m (g a) stop' tokens' (value' a))
    (hk : ∀ x, k ≤ (tokens x).length)
    (hglue : ∀ y rest, frontKind rest ∉ stop' → frontKind (tokens' y ++ rest) ∉ stop)
    (hspare : Spare tokens') :
    Exact n (f.bind g) stop' (fun x : X × Y => tokens x.1 ++ tokens' x.2)
      (fun x => value' (value x.1) x.2) where
  sound := fun ts b rest hn h => sound_bind hf hk hg hn h
  complete := by
    rintro ⟨x, y⟩ rest hn hstop
    simp only [List.append_assoc] at hn ⊢
    rw [Reader.bind_of_ok (hf.complete x _ hn (hglue y rest hstop))]
    have hx := hk x
    rw [List.length_append] at hn
    exact (hg (value x) (n - (tokens x).length) (by omega)).complete y rest (by omega) hstop
  unique := by
    rintro ⟨x, y⟩ ⟨x', y'⟩ rest rest' heq hn hstop hstop'
    simp only [List.append_assoc] at heq hn
    obtain rfl := hf.unique x x' _ _ heq hn (hglue y rest hstop) (hglue y' rest' hstop')
    have hx := hk x
    rw [List.length_append] at hn
    obtain rfl := (hg (value x) (n - (tokens x).length) (by omega)).unique y y' rest rest'
      (List.append_cancel_left heq) (by omega) hstop hstop'
    rfl
  refuse := fun ts e hn h => refuse_bind hf hk hg hspare hn h

end Seq

/-- What is read may be turned into something else. -/
theorem bind_give (h : Exact n f stop tokens value) (φ : α → β) :
    Exact n (f.bind fun a => Reader.give (φ a)) stop tokens (fun x => φ (value x)) := by
  have hgive : ∀ a m, m + 0 ≤ n →
      Exact m (Reader.give (φ a)) stop (fun _ : Unit => []) (fun _ => φ a) :=
    fun a m _ => (Exact.give (φ a)).mono_stop (List.nil_subset _)
  have hbind := h.bind 0 hgive (fun _ => Nat.zero_le _) (fun _ _ hstop => hstop)
    ⟨[], by simp, fun us hus => ⟨(), (List.map_eq_nil_iff.mp hus).symm⟩⟩
  exact hbind.map (fun x => x.1) (fun x => ⟨(x, ()), rfl⟩) (fun _ => (List.append_nil _).symm)
    fun _ => rfl

/-! ### A choice by the next token -/

/-- **A choice by the next token** reads the trees of both readers, if the next token tells them
apart. Behind a tree of the second kind, which may be empty, the token that follows has to tell. -/
theorem choose {kinds : List Kind} {g : Reader α} {tokens' : Y → List Token} {value' : Y → α}
    (hf : Exact n f stop tokens value) (hg : Exact n g stop tokens' value')
    (hkinds : ∀ x rest, frontKind (tokens x ++ rest) ∈ kinds)
    (hkinds' : ∀ y rest, frontKind rest ∉ stop → frontKind (tokens' y ++ rest) ∉ kinds) :
    Exact n (Reader.choose kinds f g) stop (Sum.elim tokens tokens') (Sum.elim value value') where
  sound := by
    intro ts a rest hn h
    unfold Reader.choose at h
    split at h
    · next hfront =>
      obtain ⟨x, rfl, rfl, hlocal⟩ := hf.sound ts a rest hn h
      refine ⟨.inl x, rfl, rfl, fun rest' hrest' hn' => ?_⟩
      simp only [Sum.elim_inl] at hn' ⊢
      rw [Reader.choose, if_pos (hkinds x rest')]
      exact hlocal rest' hrest' hn'
    · next hfront =>
      obtain ⟨y, rfl, rfl, hlocal⟩ := hg.sound ts a rest hn h
      refine ⟨.inr y, rfl, rfl, fun rest' hrest' hn' => ?_⟩
      simp only [Sum.elim_inr] at hn' ⊢
      -- the tree may be empty, and then the choice is made by what follows
      rw [Reader.choose, if_neg (by rwa [frontKind_append_congr hrest'])]
      exact hlocal rest' hrest' hn'
  complete := by
    rintro (x | y) rest hn hstop
    · rw [Sum.elim_inl, Reader.choose, if_pos (hkinds x rest)]
      exact hf.complete x rest hn hstop
    · rw [Sum.elim_inr, Reader.choose, if_neg (hkinds' y rest hstop)]
      exact hg.complete y rest hn hstop
  unique := by
    -- trees of different readers cannot be alike, because their fronts differ
    rintro (x | y) (x' | y') rest rest' heq hn hstop hstop' <;>
      simp only [Sum.elim_inl, Sum.elim_inr] at heq hn
    · rw [hf.unique x x' rest rest' heq hn hstop hstop']
    · exact absurd (heq ▸ hkinds x rest) (hkinds' y' rest' hstop')
    · exact absurd (heq ▸ hkinds x' rest') (hkinds' y rest hstop)
    · rw [hg.unique y y' rest rest' heq hn hstop hstop']
  refuse := by
    intro ts e hn h
    unfold Reader.choose at h
    split at h
    · next hfront =>
      refine (hf.refuse ts e hn h).map (fun us hus => ?_) .inl fun _ => rfl
      rw [Reader.choose, hus, if_pos hfront]
    · next hfront =>
      refine (hg.refuse ts e hn h).map (fun us hus => ?_) .inr fun _ => rfl
      rw [Reader.choose, hus, if_neg hfront]

/-! ### The next token -/

section Take

variable {kinds : List Kind} {check : Token → Except Rejection β} {g : Token → β → Reader α}
  {head : X → Token} {tail : X → List Token}

theorem sound_take (htokens : ∀ x, tokens x = head x :: tail x)
    (hg : ∀ t b, t.kind ∈ kinds → check t = .ok b → ∀ m, m + 1 ≤ n →
      Exact m (g t b) stop (fun x : { x // head x = t } => tail x) (fun x => value x))
    {ts : List Token} {a : α} {rest : List Token} (hn : ts.length ≤ n)
    (h : Reader.take kinds check g ts = .ok (a, rest)) :
    ∃ x, ts = tokens x ++ rest ∧ a = value x ∧
      ∀ rest', frontKind rest' = frontKind rest → (tokens x ++ rest').length ≤ n →
        Reader.take kinds check g (tokens x ++ rest') = .ok (a, rest') := by
  rcases ts with - | ⟨t, ts⟩
  · cases h
  by_cases hkind : t.kind ∈ kinds
  · rcases hb : check t with reason | b
    · rw [Reader.take_of_error ts hkind hb] at h
      cases h
    · rw [Reader.take_of_ok ts hkind hb] at h
      rw [List.length_cons] at hn
      obtain ⟨⟨x, rfl⟩, rfl, rfl, hlocal⟩ :=
        (hg t b hkind hb (n - 1) (by omega)).sound ts a rest (by omega) h
      refine ⟨x, by rw [htokens]; rfl, rfl, fun rest' hrest' hn' => ?_⟩
      rw [htokens, List.cons_append] at hn' ⊢
      rw [Reader.take_of_ok _ hkind hb]
      rw [List.length_cons] at hn'
      exact hlocal rest' hrest' (by simp only; omega)
  · rw [Reader.take_of_not_mem ts hkind] at h
    cases h

theorem refuse_take (htokens : ∀ x, tokens x = head x :: tail x)
    (hcheck : ∀ t reason, check t = .error reason → reason.Blames kinds t)
    (hend : Kind.endOfFile ∉ kinds) (hviable : Viable tokens [] kinds)
    (hg : ∀ t b, t.kind ∈ kinds → check t = .ok b → ∀ m, m + 1 ≤ n →
      Exact m (g t b) stop (fun x : { x // head x = t } => tail x) (fun x => value x))
    {ts : List Token} {e : Refusal} (hn : ts.length ≤ n)
    (h : Reader.take kinds check g ts = .error e) :
    Refused n (Reader.take kinds check g) tokens ts e := by
  rcases ts with - | ⟨t, ts⟩
  · obtain rfl : e = ⟨.ended kinds, []⟩ := (Except.error.inj h).symm
    refine .ended hviable fun t rest ht _ => ?_
    exact Reader.take_of_not_mem rest (by rw [ht]; exact hend)
  by_cases hkind : t.kind ∈ kinds
  · rcases hb : check t with reason | b
    · -- the next token does not pass the check
      rw [Reader.take_of_error ts hkind hb] at h
      obtain rfl : e = ⟨reason, ts⟩ := (Except.error.inj h).symm
      rw [← List.nil_append (t :: ts)]
      exact .blamed hviable (hcheck t reason hb) fun rest' _ => Reader.take_of_error rest' hkind hb
    · -- the tokens behind the next one are refused
      rw [Reader.take_of_ok ts hkind hb] at h
      rw [List.length_cons] at hn
      have htail : ∀ {before kinds}, Viable (fun x : { x // head x = t } => tail x) before kinds →
          Viable tokens (t :: before) kinds := by
        intro before kinds hv
        refine hv.mono fun faces hfaces => ⟨[], ?_⟩
        rw [List.append_nil]
        refine ⟨hfaces.spelled, fun us hus => ?_⟩
        obtain ⟨⟨x, rfl⟩, hx⟩ := hfaces.exists_tree us hus
        exact ⟨x, by rw [htokens]; exact congrArg _ hx⟩
      cases (hg t b hkind hb (n - 1) (by omega)).refuse ts e (by omega) h with
      | ended hv hend =>
        refine .ended (htail hv) fun u rest hu hn' => ?_
        rw [List.cons_append, List.length_cons] at hn'
        rw [List.cons_append, Reader.take_of_ok _ hkind hb]
        exact hend u rest hu (by omega)
      | blamed hv hreason hlocal =>
        rw [← List.cons_append]
        refine .blamed (htail hv) hreason fun rest' hn' => ?_
        rw [List.cons_append, List.length_cons] at hn'
        rw [List.cons_append, Reader.take_of_ok _ hkind hb]
        exact hlocal rest' (by omega)
  · rw [Reader.take_of_not_mem ts hkind] at h
    obtain rfl : e = ⟨.unexpected kinds t, ts⟩ := (Except.error.inj h).symm
    rw [← List.nil_append (t :: ts)]
    exact .blamed hviable .unexpected fun rest' _ => Reader.take_of_not_mem rest' hkind

/-- **Taking the next token** reads the trees that begin with a token of an expected kind, if what
is read behind each such token is exactly the rest of the trees that begin with it. -/
theorem take (head : X → Token) (tail : X → List Token) (htokens : ∀ x, tokens x = head x :: tail x)
    (hhead : ∀ x, (head x).kind ∈ kinds ∧ ∃ b, check (head x) = .ok b)
    (hcheck : ∀ t reason, check t = .error reason → reason.Blames kinds t)
    (hend : Kind.endOfFile ∉ kinds) (hviable : Viable tokens [] kinds)
    (hg : ∀ t b, t.kind ∈ kinds → check t = .ok b → ∀ m, m + 1 ≤ n →
      Exact m (g t b) stop (fun x : { x // head x = t } => tail x) (fun x => value x)) :
    Exact n (Reader.take kinds check g) stop tokens value where
  sound := fun ts a rest hn h => sound_take htokens hg hn h
  complete := by
    intro x rest hn hstop
    obtain ⟨hkind, b, hb⟩ := hhead x
    rw [htokens, List.cons_append, List.length_cons] at hn
    rw [htokens, List.cons_append, Reader.take_of_ok _ hkind hb]
    exact (hg (head x) b hkind hb (n - 1) (by omega)).complete ⟨x, rfl⟩ rest
      (by simp only; omega) hstop
  unique := by
    intro x y rest rest' heq hn hstop hstop'
    rw [htokens x, htokens y, List.cons_append, List.cons_append] at heq
    rw [htokens, List.cons_append, List.length_cons] at hn
    obtain ⟨hxy, heq⟩ := List.cons.inj heq
    obtain ⟨hkind, b, hb⟩ := hhead x
    have hunique := (hg (head x) b hkind hb (n - 1) (by omega)).unique ⟨x, rfl⟩ ⟨y, hxy.symm⟩
      rest rest' heq (by simp only; omega) hstop hstop'
    exact congrArg Subtype.val hunique
  refuse := fun ts e hn h => refuse_take htokens hcheck hend hviable hg hn h

end Take

end Exact

/-! ## Any number of tokens -/

/-- Tokens are refused at the first place where no tree has the next one, whatever follows it. -/
inductive Refuses {ρ : Type} (f : List Token → Except Refusal ρ) (tokens : X → List Token) :
    List Token → Refusal → Prop where
  /-- the tokens ended -/
  | ended {before : List Token} {kinds : List Kind} (hviable : Viable tokens before kinds)
      (hend : ∀ t rest, t.kind = .endOfFile →
        f (before ++ t :: rest) = .error ⟨.unexpected kinds t, rest⟩) :
      Refuses f tokens before ⟨.ended kinds, []⟩
  /-- a token is of the wrong kind, or a literal does not fit -/
  | blamed {before rest : List Token} {kinds : List Kind} {reason : Rejection} {got : Token}
      (hviable : Viable tokens before kinds) (hreason : reason.Blames kinds got)
      (hlocal : ∀ rest', f (before ++ got :: rest') = .error ⟨reason, rest'⟩) :
      Refuses f tokens (before ++ got :: rest) ⟨reason, rest⟩

namespace Exact

variable {f : Reader α} {stop : List Kind} {tokens : X → List Token} {value : X → α}
  {ts rest : List Token}

/-- A reader that is exact on any number of tokens reads trees, and the front of what is left
decides where reading ends. -/
theorem exists_tree_of_ok (h : ∀ n, Exact n f stop tokens value) {a : α}
    (hf : f ts = .ok (a, rest)) :
    ∃ x, ts = tokens x ++ rest ∧ a = value x ∧
      ∀ rest', frontKind rest' = frontKind rest → f (tokens x ++ rest') = .ok (a, rest') := by
  obtain ⟨x, rfl, rfl, -⟩ := (h ts.length).sound ts a rest (Nat.le_refl _) hf
  refine ⟨x, rfl, rfl, fun rest' hfront => ?_⟩
  -- read once more with room for `rest'`; this may be another tree, but it has the same tokens
  obtain ⟨y, hy, -, hlocal⟩ :=
    (h ((tokens x ++ rest).length + (tokens x ++ rest').length)).sound _ _ rest (by omega) hf
  have htokens : tokens x = tokens y := List.append_cancel_right hy
  rw [htokens] at hlocal ⊢
  exact hlocal rest' hfront (by omega)

/-- A reader that is exact on any number of tokens refuses them at the first bad one. -/
theorem refuses_of_error (h : ∀ n, Exact n f stop tokens value) {e : Refusal}
    (hf : f ts = .error e) : Refuses f tokens ts e := by
  cases (h ts.length).refuse ts e (Nat.le_refl _) hf with
  | ended hviable hend =>
    refine .ended hviable fun t rest ht => ?_
    cases (h (ts ++ t :: rest).length).refuse ts _ (by simp) hf with
    | ended _ hend => exact hend t rest ht (Nat.le_refl _)
    | blamed _ hreason => cases hreason
  | @blamed before rest kinds reason got hviable hreason hlocal =>
    refine .blamed hviable hreason fun rest' => ?_
    have hrefuse := (h ((before ++ got :: rest).length + (before ++ got :: rest').length)).refuse
      _ _ (by omega) hf
    generalize hts : before ++ got :: rest = ts at hrefuse
    cases hrefuse with
    | ended => cases hreason
    | @blamed before' _ kinds' _ got' _ _ hlocal' =>
      -- both refusals leave the same tokens, so they blame the same one
      have hts' : before ++ [got] ++ rest = before' ++ [got'] ++ rest := by simpa using hts
      obtain ⟨rfl, hgot⟩ := List.append_inj' (List.append_cancel_right hts') rfl
      obtain rfl : got = got' := by simpa using hgot
      exact hlocal' rest' (by omega)

end Exact

end Parsing

end Adventure
