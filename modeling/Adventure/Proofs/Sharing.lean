import Adventure.Proofs.Growth

/-!
# Private variables and shared functions

The scopes of a family have variables of their own and functions in common. What operations on them
give is told three times here.

* `Family.step` are the operations of the family, which keeps its functions beside its scopes.
* `Storage.step` are the same operations on scopes as they lie in memory. There each scope knows the
  place of a table of functions, and a new scope is given the place that the scope it is made from
  knows. Nothing in these definitions says that all of them know the same place.
* `chronicle` knows nothing but the operations that have succeeded so far, and reads every answer
  off them: a variable is what was given to it last in the same scope, and a function is the first
  of its name that was defined in whichever scope.

All three give the same answers to all sequences of operations
(`Family.variables_private_and_functions_shared`).
-/

namespace Adventure

namespace Family

/-! ## Operations -/

/-- An operation on the scope of number `k`. -/
inductive Op where
  /-- declares a variable -/
  | declare (k : Nat) (name : String)
  /-- gives a variable a value -/
  | assign (k : Nat) (name : String) (v : Value)
  /-- asks for the value of a variable -/
  | get (k : Nat) (name : String)
  /-- defines a function -/
  | define (k : Nat) (f : Function)
  /-- asks for a function -/
  | lookup (k : Nat) (name : String)
  /-- makes a new scope, which has the next number -/
  | child (k : Nat)

/-- What an operation gives that succeeds. -/
inductive Result where
  | done
  | value (v : Value)
  | function (f : Function)

/-- What an operation gives. -/
abbrev Answer : Type := Except RuntimeError Result

/-- The answer that tells the outcome of a question. -/
def Answer.ofExcept {α : Type} (result : α → Result) : Except Fault α → Answer
  | .ok a => .ok (result a)
  | .error f => .error (.ofFault f)

namespace Op

/-- The number of the scope that the operation is on. -/
def scope : Op → Nat
  | declare k _ | assign k _ _ | get k _ | define k _ | lookup k _ | child k => k

/-- How many scopes there are after the operation if there were `count`. -/
def countAfter (count : Nat) : Op → Nat
  | child _ => count + 1
  | _ => count

/-- Whether the operation declares the variable in the scope of number `k`. -/
def adds (k : Nat) (name : String) : Op → Bool
  | declare j x => j == k && x == name
  | _ => false

/-- The value that the operation gives to the variable in the scope of number `k`. -/
def sets? (k : Nat) (name : String) : Op → Option Value
  | assign j x v => if j = k ∧ x = name then some v else none
  | _ => none

/-- The function of the given name that the operation defines, in whichever scope. -/
def defines? (name : String) : Op → Option Function
  | define _ f => if f.name == name then some f else none
  | _ => none

end Op

/-- Each operation is on a scope that is there, where there are `count` at first. -/
def numbered : (count : Nat) → List Op → Bool
  | _, [] => true
  | count, op :: ops => op.scope < count && numbered (op.countAfter count) ops

section

variable {σ : Type} (step : σ → Op → Answer × σ)

/-- What the operations give one after the other. -/
def transcript : σ → List Op → List Answer
  | _, [] => []
  | s, op :: ops => (step s op).1 :: transcript (step s op).2 ops

/-- Where the operations lead to. -/
def final : σ → List Op → σ
  | s, [] => s
  | s, op :: ops => final (step s op).2 ops

end

/-! ## By the family -/

/-- The family after a change that may have failed. -/
def changed (F : Family) : Except Fault Family → Answer × Family
  | .ok F' => (.ok .done, F')
  | .error f => (.error (.ofFault f), F)

/-- An operation on a scope of the family. -/
def step (F : Family) : Op → Answer × Family
  | .declare k name => F.changed (F.declare k name)
  | .assign k name v => F.changed (F.assign k name v)
  | .get k name => (.ofExcept .value (F.get k name), F)
  | .define _ f =>
    match F.define f with
    | .ok F' => (.ok .done, F')
    | .error e => (.error e, F)
  | .lookup _ name => (.ofExcept .function (F.function name), F)
  | .child _ => (.ok .done, F.child)

/-! ## By scopes in memory -/

/-- Scopes as they lie in memory. -/
structure Storage where
  /-- the tables of functions -/
  tables : List (List Function)
  /-- the variables of each scope, and the place of its table -/
  frames : List (Scope × Nat)

namespace Storage

/-- A single scope without variables, and its empty table. -/
def start : Storage := ⟨[[]], [(.empty, 0)]⟩

/-- The scope of number `k`. -/
def frame (s : Storage) (k : Nat) : Scope × Nat :=
  s.frames.getD k (.empty, 0)

/-- The table that the scope of number `k` knows. -/
def table (s : Storage) (k : Nat) : List Function :=
  s.tables.getD (s.frame k).2 []

/-- Keeps what has become of the variables of the scope of number `k`. -/
def keep (s : Storage) (k : Nat) : Except Fault Scope → Answer × Storage
  | .ok scope => (.ok .done, { s with frames := s.frames.set k (scope, (s.frame k).2) })
  | .error f => (.error (.ofFault f), s)

/-- An operation on a scope. -/
def step (s : Storage) : Op → Answer × Storage
  | .declare k name => s.keep k ((s.frame k).1.declare name)
  | .assign k name v => s.keep k ((s.frame k).1.assign name v)
  | .get k name => (.ofExcept .value ((s.frame k).1.get name), s)
  | .define k f =>
    match lookupFunction (s.table k) f.name with
    | some _ => (.error ⟨.alreadyDefined f.name, f.line, []⟩, s)
    | none => (.ok .done, { s with tables := s.tables.set (s.frame k).2 (s.table k ++ [f]) })
  | .lookup k name =>
    match lookupFunction (s.table k) name with
    | some f => (.ok (.function f), s)
    | none => (.error (.ofFault (.undefined name)), s)
  | .child k => (.ok .done, { s with frames := s.frames ++ [(.empty, (s.frame k).2)] })

/-- What cannot be done leaves everything as it is. -/
theorem keep_of_error {s : Storage} {k : Nat} {x : Except Fault Scope} {e : RuntimeError}
    (h : (s.keep k x).1 = .error e) : (s.keep k x).2 = s := by
  cases x with
  | ok scope => cases h
  | error f => rfl

/-- **What fails changes nothing.** -/
theorem step_of_error {s : Storage} {op : Op} {e : RuntimeError} (h : (s.step op).1 = .error e) :
    (s.step op).2 = s := by
  cases op with
  | declare k name => exact keep_of_error h
  | assign k name v => exact keep_of_error h
  | get k name => rfl
  | define k f =>
    cases hf : lookupFunction (s.table k) f.name with
    | none =>
      simp only [step, hf] at h
      cases h
    | some _ => simp only [step, hf]
  | lookup k name =>
    simp only [step]
    split <;> rfl
  | child k => cases h

end Storage

/-- The family as it lies in memory: all scopes know the place of the one table that there is. -/
def laidOut (F : Family) : Storage :=
  ⟨[F.functions], F.scopes.map fun scope => (scope, 0)⟩

/-- Each scope has its own frame. -/
theorem frame_laidOut (F : Family) (k : Nat) : F.laidOut.frame k = (F.scope k, 0) := by
  simp only [Storage.frame, laidOut, scope, List.getD_eq_getElem?_getD, List.getElem?_map]
  cases F.scopes[k]? <;> rfl

/-- All scopes have the same table of functions. -/
theorem table_laidOut (F : Family) (k : Nat) : F.laidOut.table k = F.functions := by
  rw [Storage.table, frame_laidOut]
  rfl

/-- A change of a scope is the change of its frame. -/
theorem keep_laidOut (F : Family) (k : Nat) (op : Scope → Except Fault Scope) :
    F.laidOut.keep k (op (F.laidOut.frame k).1) =
      ((F.changed (F.change k op)).1, (F.changed (F.change k op)).2.laidOut) := by
  rw [frame_laidOut]
  cases h : op (F.scope k) with
  | ok scope =>
    simp only [change, h, changed, Storage.keep, frame_laidOut]
    simp only [laidOut, List.map_set]
  | error f => simp only [change, h, changed, Storage.keep]

/-- **All scopes of a family know the same table:** in memory it goes on as the family does. -/
theorem step_laidOut (F : Family) (op : Op) :
    F.laidOut.step op = ((F.step op).1, (F.step op).2.laidOut) := by
  cases op with
  | declare k name => exact F.keep_laidOut k (·.declare name)
  | assign k name v => exact F.keep_laidOut k (·.assign name v)
  | get k name => simp only [Storage.step, step, frame_laidOut, get]
  | define k f =>
    simp only [Storage.step, step, table_laidOut, frame_laidOut, define]
    cases lookupFunction F.functions f.name <;> rfl
  | lookup k name =>
    simp only [Storage.step, step, table_laidOut, function]
    cases lookupFunction F.functions name <;> rfl
  | child k =>
    simp only [Storage.step, step, frame_laidOut, child]
    simp only [laidOut, List.map_append, List.map_cons, List.map_nil]

/-- The answers are the same. -/
theorem transcript_laidOut (F : Family) (ops : List Op) :
    transcript Storage.step F.laidOut ops = transcript step F ops := by
  induction ops generalizing F with
  | nil => rfl
  | cons op ops ih => simp only [transcript, step_laidOut, ih]

/-- What is left in the end is the same. -/
theorem final_laidOut (F : Family) (ops : List Op) :
    final Storage.step F.laidOut ops = (final step F ops).laidOut := by
  induction ops generalizing F with
  | nil => rfl
  | cons op ops ih => simp only [final, step_laidOut, ih]

/-! ## By the past -/

/-- Whether one of the operations has declared the variable in the scope of number `k`. -/
def added (past : List Op) (k : Nat) (name : String) : Bool :=
  past.any (·.adds k name)

/-- The value that was given to the variable in the scope of number `k` last. -/
def lastSet? (past : List Op) (k : Nat) (name : String) : Option Value :=
  (past.filterMap (·.sets? k name)).getLast?

/-- The first function of the given name that was defined. -/
def firstDefined? (past : List Op) (name : String) : Option Function :=
  past.findSome? (·.defines? name)

/-- The answer that an operation has to get after the operations `past` have succeeded. -/
def due (past : List Op) : Op → Answer
  | .declare k name =>
    if added past k name then .error (.ofFault (.alreadyDefined name)) else .ok .done
  | .assign k name _ =>
    if added past k name then .ok .done else .error (.ofFault (.undeclared name))
  | .get k name =>
    if added past k name then .ok (.value ((lastSet? past k name).getD .nothing))
    else .error (.ofFault (.undeclared name))
  | .define _ f =>
    if (firstDefined? past f.name).isSome then .error ⟨.alreadyDefined f.name, f.line, []⟩
    else .ok .done
  | .lookup _ name =>
    match firstDefined? past name with
    | some f => .ok (.function f)
    | none => .error (.ofFault (.undefined name))
  | .child _ => .ok .done

/-- The operations that have succeeded, and one more if it does. -/
def chronicle (past : List Op) (op : Op) : Answer × List Op :=
  match due past op with
  | .ok result => (.ok result, past ++ [op])
  | .error e => (.error e, past)

section

variable (past : List Op) (op : Op) (k : Nat) (name : String)

/-- A variable has been added if it was before or is now. -/
theorem added_concat : added (past ++ [op]) k name = (added past k name || op.adds k name) := by
  simp [added]

/-- The value that was set last is the one that is set now, if there is one. -/
theorem lastSet?_concat :
    lastSet? (past ++ [op]) k name = (op.sets? k name).or (lastSet? past k name) := by
  rw [lastSet?, List.filterMap_append, List.getLast?_append, lastSet?]
  cases h : op.sets? k name <;> simp [h]

/-- The function that was defined first stays the first. -/
theorem firstDefined?_concat :
    firstDefined? (past ++ [op]) name = (firstDefined? past name).or (op.defines? name) := by
  rw [firstDefined?, List.findSome?_append, firstDefined?]
  cases h : op.defines? name <;> simp [h]

end

/-- What the past says about a variable. -/
def known (past : List Op) (k : Nat) (name : String) : Option Value :=
  if added past k name then some ((lastSet? past k name).getD .nothing) else none

/-- The past tells all that there is to the variables. -/
structure TellsVariables (past : List Op) (scope : Nat → Scope) : Prop where
  get?_eq : ∀ k name, (scope k).get? name = known past k name
  /-- only what was added is set -/
  unset : ∀ k name, added past k name = false → lastSet? past k name = none
  distinct : ∀ k, ((scope k).vars.map (·.1)).Nodup

/-- The past tells all that there is to the functions. -/
def TellsFunctions (past : List Op) (functions : List Function) : Prop :=
  ∀ name, lookupFunction functions name = firstDefined? past name

/-- The past tells all that there is to the family. -/
structure Tells (past : List Op) (F : Family) : Prop where
  vars : TellsVariables past F.scope
  functions : TellsFunctions past F.functions

end Family

namespace Scope

variable {s s' : Scope} {name : String} {v : Value}

/-- A variable that is introduced is the only one that changes. -/
theorem get?_of_introduce (h : s.introduce name v = .ok s') (x : String) :
    s'.get? x = if x = name then some v else s.get? x := by
  unfold introduce at h
  split at h <;> cases h
  rw [get?, List.lookup_cons, get?]
  by_cases hx : x = name
  · simp [hx]
  · simp [hx, beq_eq_false_iff_ne.mpr hx]

/-- One entry is changed, and all others are found as before. -/
theorem lookup_map_of_entry (name : String) (v : Value) {f : String × Value → String × Value}
    (hf : ∀ p, f p = (p.1, if p.1 = name then v else p.2)) (vars : List (String × Value))
    (x : String) :
    (vars.map f).lookup x = (vars.lookup x).map fun w => if x = name then v else w := by
  induction vars with
  | nil => rfl
  | cons p vars ih =>
    obtain ⟨y, w⟩ := p
    rw [List.map_cons, hf, List.lookup_cons, List.lookup_cons, ih]
    by_cases hx : x = y
    · subst hx
      simp
    · simp [beq_eq_false_iff_ne.mpr hx]

/-- A variable that gets another value is the only one that changes. -/
theorem get?_of_assign (h : s.assign name v = .ok s') (x : String) :
    s'.get? x = if x = name then some v else s.get? x := by
  unfold assign at h
  split at h <;> cases h
  next w hw =>
  rw [get?, lookup_map_of_entry name v]
  · by_cases hx : x = name
    · rw [hx, ← get?, hw]
      simp
    · simp [hx, get?]
  · intro p
    simp only [beq_iff_eq]
    split <;> rfl

/-- No variable is there twice. -/
theorem nodup_of_introduce (h : s.introduce name v = .ok s') (hs : (s.vars.map (·.1)).Nodup) :
    (s'.vars.map (·.1)).Nodup := by
  unfold introduce at h
  split at h <;> cases h
  next hnone =>
  have hname : name ∉ s.vars.map (·.1) := by
    rw [← get?_isSome_iff, hnone]
    simp
  exact List.nodup_cons.mpr ⟨hname, hs⟩

end Scope

namespace Family

variable {past : List Op} {op : Op} {F : Family} {k : Nat} {name : String} {v : Value}

/-- Setting a scope changes no other. -/
theorem scope_set_eq (hk : k < F.scopes.length) (s : Scope) :
    scope { F with scopes := F.scopes.set k s } = fun j => if j = k then s else F.scope j := by
  funext j
  split
  · next h => rw [h, scope_set hk]
  · next h => simp only [scope, List.getD_eq_getElem?_getD, List.getElem?_set_ne (Ne.symm h)]

/-- A new scope is as empty as one that is not there. -/
theorem scope_child (F : Family) : F.child.scope = F.scope := by
  funext j
  simp only [scope, child, List.getD_eq_getElem?_getD]
  rcases Nat.lt_or_ge j F.scopes.length with hj | hj
  · rw [List.getElem?_append_left hj]
  · rw [List.getElem?_append_right hj, List.getElem?_eq_none hj]
    cases j - F.scopes.length <;> rfl

/-- What is known of a variable is known if it has been added. -/
theorem isSome_known (past : List Op) (k : Nat) (name : String) :
    (known past k name).isSome = added past k name := by
  unfold known
  cases added past k name <;> rfl

/-! ### What an operation adds to the past -/

namespace TellsVariables

variable {scope : Nat → Scope}

/-- A variable that has been added has the value that was set last. -/
theorem get?_of_added (h : TellsVariables past scope) (hadded : added past k name = true) :
    (scope k).get? name = some ((lastSet? past k name).getD .nothing) := by
  rw [h.get?_eq, known, hadded, if_pos rfl]

/-- A variable that has not been added is not found. -/
theorem get?_of_not_added (h : TellsVariables past scope) (hadded : added past k name = false) :
    (scope k).get? name = none := by
  rw [h.get?_eq, known, hadded, if_neg Bool.false_ne_true]

/-- An operation that neither adds nor sets a variable. -/
theorem idle (h : TellsVariables past scope) (hadds : ∀ k name, op.adds k name = false)
    (hsets : ∀ k name, op.sets? k name = none) : TellsVariables (past ++ [op]) scope where
  get?_eq := fun k name => by
    rw [h.get?_eq, known, known, added_concat, lastSet?_concat, hadds, hsets, Bool.or_false,
      Option.none_or]
  unset := fun k name hadded => by
    rw [added_concat, hadds, Bool.or_false] at hadded
    rw [lastSet?_concat, hsets, Option.none_or]
    exact h.unset k name hadded
  distinct := h.distinct

/-- An operation that makes one variable of the scope `k` be `v`. -/
theorem write (h : TellsVariables past scope) {s : Scope}
    (hget : ∀ x, s.get? x = if x = name then some v else (scope k).get? x)
    (hdistinct : (s.vars.map (·.1)).Nodup)
    (hknown : ∀ j x,
      known (past ++ [op]) j x = if j = k ∧ x = name then some v else known past j x)
    (hunset : ∀ j x, added (past ++ [op]) j x = false → lastSet? (past ++ [op]) j x = none) :
    TellsVariables (past ++ [op]) fun j => if j = k then s else scope j where
  get?_eq := fun j x => by
    rw [hknown]
    by_cases hj : j = k
    · subst hj
      by_cases hx : x = name <;> simp [hx, hget, h.get?_eq]
    · simp [hj, h.get?_eq]
  unset := hunset
  distinct := fun j => by
    split
    · exact hdistinct
    · exact h.distinct j

/-- Declaring a variable is told. -/
theorem declare (h : TellsVariables past scope) (hadded : added past k name = false) {s : Scope}
    (hs : (scope k).declare name = .ok s) :
    TellsVariables (past ++ [.declare k name]) fun j => if j = k then s else scope j := by
  refine h.write (Scope.get?_of_introduce hs) (Scope.nodup_of_introduce hs (h.distinct k)) ?_ ?_
  · intro j x
    by_cases hjx : j = k ∧ x = name
    · obtain ⟨rfl, rfl⟩ := hjx
      simp [known, added_concat, lastSet?_concat, Op.adds, Op.sets?, h.unset j x hadded]
    · have hadds : (Op.declare k name).adds j x = false := by
        refine Bool.eq_false_iff.mpr fun hsame => hjx ?_
        rw [Op.adds, Bool.and_eq_true, beq_iff_eq, beq_iff_eq] at hsame
        exact ⟨hsame.1.symm, hsame.2.symm⟩
      simp [known, added_concat, lastSet?_concat, hadds, Op.sets?, hjx]
  · intro j x hnot
    rw [added_concat, Bool.or_eq_false_iff] at hnot
    rw [lastSet?_concat]
    exact h.unset j x hnot.1

/-- Giving a variable another value is told. -/
theorem assign (h : TellsVariables past scope) (hadded : added past k name = true) {s : Scope}
    (hs : (scope k).assign name v = .ok s) :
    TellsVariables (past ++ [.assign k name v]) fun j => if j = k then s else scope j := by
  have hdistinct : (s.vars.map (·.1)).Nodup := by
    rw [Scope.map_fst_of_assign hs]
    exact h.distinct k
  refine h.write (Scope.get?_of_assign hs) hdistinct ?_ ?_
  · intro j x
    by_cases hjx : j = k ∧ x = name
    · obtain ⟨rfl, rfl⟩ := hjx
      simp [known, added_concat, lastSet?_concat, Op.adds, Op.sets?, hadded]
    · have hsets : (Op.assign k name v).sets? j x = none :=
        if_neg fun h => hjx ⟨h.1.symm, h.2.symm⟩
      simp [known, added_concat, lastSet?_concat, Op.adds, hsets, hjx]
  · intro j x hnot
    rw [added_concat, Bool.or_eq_false_iff] at hnot
    have hsets : (Op.assign k name v).sets? j x = none := if_neg fun hkx => by
      rw [← hkx.1, ← hkx.2, hadded] at hnot
      exact Bool.noConfusion hnot.1
    rw [lastSet?_concat, hsets]
    exact h.unset j x hnot.1

end TellsVariables

namespace TellsFunctions

variable {functions : List Function}

/-- An operation that defines no function. -/
theorem idle (h : TellsFunctions past functions) (hdefines : ∀ name, op.defines? name = none) :
    TellsFunctions (past ++ [op]) functions := by
  intro name
  rw [h name, firstDefined?_concat, hdefines, Option.or_none]

/-- A function that is defined is the first of its name, or comes behind it. -/
theorem define (h : TellsFunctions past functions) (k : Nat) (f : Function) :
    TellsFunctions (past ++ [.define k f]) (functions ++ [f]) := by
  intro name
  have hlast : lookupFunction [f] name = (Op.define k f).defines? name := by
    simp only [lookupFunction, List.find?_cons, List.find?_nil, Op.defines?]
    cases f.name == name <;> rfl
  rw [firstDefined?_concat, ← h name, ← hlast]
  exact List.find?_append

end TellsFunctions

namespace Tells

/-- At the start nothing is known. -/
theorem start : Tells [] .start where
  vars :=
    { get?_eq := fun k name => by cases k <;> rfl
      unset := fun k name _ => rfl
      distinct := fun k => by cases k <;> exact List.nodup_nil }
  functions := fun name => rfl

/-- An operation that changes nothing is told by what is there. -/
theorem idle (h : Tells past F) (hadds : ∀ k name, op.adds k name = false)
    (hsets : ∀ k name, op.sets? k name = none) (hdefines : ∀ name, op.defines? name = none) :
    Tells (past ++ [op]) F :=
  ⟨h.vars.idle hadds hsets, h.functions.idle hdefines⟩

/-- What becomes of a variable is told, if it is one of a scope that is there. -/
theorem set (hk : k < F.scopes.length) {s : Scope} (h : Tells past F)
    (h' : TellsVariables (past ++ [op]) fun j => if j = k then s else F.scope j)
    (hdefines : ∀ name, op.defines? name = none) :
    Tells (past ++ [op]) { F with scopes := F.scopes.set k s } where
  vars := by rwa [scope_set_eq hk]
  functions := h.functions.idle hdefines

end Tells

/-- The operation is answered as the past says, and the past tells all about the family afterwards
as well. -/
structure Answered (past : List Op) (F : Family) (op : Op) : Prop where
  answer_eq : (F.step op).1 = (chronicle past op).1
  tells : Tells (chronicle past op).2 (F.step op).2

namespace Answered

/-- An operation that succeeds is answered as it should be. -/
theorem of_ok {result : Result} {F' : Family} (hstep : F.step op = (.ok result, F'))
    (hdue : due past op = .ok result) (h : Tells (past ++ [op]) F') : Answered past F op := by
  have hchronicle : chronicle past op = (.ok result, past ++ [op]) := by rw [chronicle, hdue]
  constructor
  · rw [hstep, hchronicle]
  · rwa [hstep, hchronicle]

/-- An operation that fails is answered as it should be. -/
theorem of_error {e : RuntimeError} (hstep : F.step op = (.error e, F))
    (hdue : due past op = .error e) (h : Tells past F) : Answered past F op := by
  have hchronicle : chronicle past op = (.error e, past) := by rw [chronicle, hdue]
  constructor
  · rw [hstep, hchronicle]
  · rwa [hstep, hchronicle]

/-- Declarations are answered from what happened before. -/
theorem declare (h : Tells past F) (hk : k < F.scopes.length) (name : String) :
    Answered past F (.declare k name) := by
  cases hadded : added past k name with
  | true =>
    have hget := h.vars.get?_of_added hadded
    refine of_error ?_ (by rw [due, hadded, if_pos rfl]) h
    simp only [step, Family.declare, change, Scope.declare, Scope.introduce, hget, changed]
  | false =>
    have hget := h.vars.get?_of_not_added hadded
    have hscope : (F.scope k).declare name = .ok ⟨(name, .nothing) :: (F.scope k).vars⟩ := by
      simp only [Scope.declare, Scope.introduce, hget]
    refine of_ok ?_ (by rw [due, hadded, if_neg Bool.false_ne_true])
      (h.set hk (h.vars.declare hadded hscope) fun _ => rfl)
    simp only [step, Family.declare, change, hscope, changed]

/-- Assignments are answered from what happened before. -/
theorem assign (h : Tells past F) (hk : k < F.scopes.length) (name : String) (v : Value) :
    Answered past F (.assign k name v) := by
  cases hadded : added past k name with
  | true =>
    have hget := h.vars.get?_of_added hadded
    obtain ⟨s, hscope⟩ : ∃ s, (F.scope k).assign name v = .ok s := by
      simp only [Scope.assign, hget, Except.ok.injEq, exists_eq']
    refine of_ok ?_ (by rw [due, hadded, if_pos rfl])
      (h.set hk (h.vars.assign hadded hscope) fun _ => rfl)
    simp only [step, Family.assign, change, hscope, changed]
  | false =>
    have hget := h.vars.get?_of_not_added hadded
    refine of_error ?_ (by rw [due, hadded, if_neg Bool.false_ne_true]) h
    simp only [step, Family.assign, change, Scope.assign, hget, changed]

/-- Variables are read from what happened before. -/
theorem get (h : Tells past F) (k : Nat) (name : String) : Answered past F (.get k name) := by
  cases hadded : added past k name with
  | true =>
    have hget := h.vars.get?_of_added hadded
    refine of_ok ?_ (by rw [due, hadded, if_pos rfl])
      (h.idle (fun _ _ => rfl) (fun _ _ => rfl) fun _ => rfl)
    simp only [step, Family.get, Scope.get, hget, Answer.ofExcept]
  | false =>
    have hget := h.vars.get?_of_not_added hadded
    refine of_error ?_ (by rw [due, hadded, if_neg Bool.false_ne_true]) h
    simp only [step, Family.get, Scope.get, hget, Answer.ofExcept]

/-- Definitions are answered from what happened before, in any scope. -/
theorem define (h : Tells past F) (k : Nat) (f : Function) : Answered past F (.define k f) := by
  have hlookup := h.functions f.name
  cases hfirst : firstDefined? past f.name with
  | some g =>
    rw [hfirst] at hlookup
    refine of_error ?_ (by rw [due, hfirst]; rfl) h
    simp only [step, Family.define, hlookup]
  | none =>
    rw [hfirst] at hlookup
    have hdefined : Tells (past ++ [.define k f]) { F with functions := F.functions ++ [f] } :=
      ⟨h.vars.idle (fun _ _ => rfl) fun _ _ => rfl, h.functions.define k f⟩
    refine of_ok ?_ (by rw [due, hfirst]; rfl) hdefined
    simp only [step, Family.define, hlookup]

/-- Functions are looked up in what happened before, in any scope. -/
theorem lookup (h : Tells past F) (k : Nat) (name : String) : Answered past F (.lookup k name) := by
  have hlookup := h.functions name
  cases hfirst : firstDefined? past name with
  | some f =>
    rw [hfirst] at hlookup
    refine of_ok ?_ (by rw [due, hfirst]) (h.idle (fun _ _ => rfl) (fun _ _ => rfl) fun _ => rfl)
    simp only [step, function, hlookup, Answer.ofExcept]
  | none =>
    rw [hfirst] at hlookup
    refine of_error ?_ (by rw [due, hfirst]) h
    simp only [step, function, hlookup, Answer.ofExcept]

/-- A new scope has no variables. -/
theorem child (h : Tells past F) (k : Nat) : Answered past F (.child k) := by
  have hchild : Tells past F.child := ⟨by rw [scope_child]; exact h.vars, h.functions⟩
  exact of_ok rfl rfl (hchild.idle (fun _ _ => rfl) (fun _ _ => rfl) fun _ => rfl)

/-- **One operation** is answered as the past says. -/
theorem of_tells (h : Tells past F) (hop : op.scope < F.scopes.length) : Answered past F op := by
  cases op with
  | declare k name => exact declare h hop name
  | assign k name v => exact assign h hop name v
  | get k name => exact get h k name
  | define k f => exact define h k f
  | lookup k name => exact lookup h k name
  | child k => exact child h k

end Answered

/-- Changes make no scopes. -/
theorem length_scopes_change (F : Family) (k : Nat) (op : Scope → Except Fault Scope) :
    (F.changed (F.change k op)).2.scopes.length = F.scopes.length := by
  unfold change
  cases op (F.scope k) <;> simp [changed]

/-- Only new scopes change the number of scopes. -/
theorem length_scopes_step (F : Family) (op : Op) :
    (F.step op).2.scopes.length = op.countAfter F.scopes.length := by
  cases op with
  | declare k name => exact F.length_scopes_change k (·.declare name)
  | assign k name v => exact F.length_scopes_change k (·.assign name v)
  | get k name => rfl
  | define k f =>
    simp only [step, Family.define]
    cases lookupFunction F.functions f.name <;> rfl
  | lookup k name => rfl
  | child k => simp [step, child, Op.countAfter]

/-- **All operations** are answered as the past says. -/
theorem transcript_eq_chronicle {ops : List Op} (h : Tells past F)
    (hops : numbered F.scopes.length ops = true) :
    transcript step F ops = transcript chronicle past ops ∧
      Tells (final chronicle past ops) (final step F ops) := by
  induction ops generalizing past F with
  | nil => exact ⟨rfl, h⟩
  | cons op ops ih =>
    rw [numbered, Bool.and_eq_true, decide_eq_true_eq, ← length_scopes_step] at hops
    have hfirst := Answered.of_tells h hops.1
    obtain ⟨htranscript, hfinal⟩ := ih hfirst.tells hops.2
    exact ⟨by rw [transcript, transcript, hfirst.answer_eq, htranscript], hfinal⟩

end Family

/-! ## Names -/

namespace Scope

variable {s : Scope}

/-- The names of a scope are those of its variables. -/
theorem mem_names (s : Scope) (name : String) :
    name ∈ s.names ↔ (s.get? name).isSome = true := by
  rw [get?_isSome_iff, names, (List.mergeSort_perm _ _).mem_iff]

/-- The names are in order, and none comes twice. -/
theorem pairwise_names (h : (s.vars.map (·.1)).Nodup) : s.names.Pairwise (· < ·) := by
  have hsorted : s.names.Pairwise fun a b => (!decide (b < a)) = true := by
    refine List.pairwise_mergeSort (fun a b c hab hbc => ?_) (fun a b => ?_) _
    · simp only [Bool.not_eq_true', decide_eq_false_iff_not, String.not_lt] at hab hbc ⊢
      exact String.le_trans hab hbc
    · simp only [Bool.or_eq_true, Bool.not_eq_true', decide_eq_false_iff_not, String.not_lt]
      exact String.le_total a b
  have hnodup : s.names.Nodup := (List.mergeSort_perm _ _).nodup_iff.mpr h
  refine (hsorted.and hnodup).imp fun {a b} hab => ?_
  simp only [Bool.not_eq_true', decide_eq_false_iff_not, String.not_lt] at hab
  by_contra hnot
  exact hab.2 (String.le_antisymm hab.1 (String.not_lt.mp hnot))

end Scope

namespace Family

/-- **Variables are private to a scope, and functions are shared by the family.** Let operations be
made on the scopes of a family, each on one that is there by then, in any order.

* They are answered as the operations say that have succeeded before: to declare a variable fails if
  it was declared in the same scope, to set it or to ask for it fails if it was not, and it is worth
  what it was set to last in the same scope, or nothing; to define a function fails if one of its
  name was defined in any scope, and to ask for it gives the first one, or fails if there is none.
* So they are where each scope knows the place of a table by itself. All scopes turn out to know the
  same place, and an operation that fails changes nothing.
* The names of a scope are in order, none of them comes twice, and they are those that were declared
  in it. -/
theorem variables_private_and_functions_shared (ops : List Op) (hops : numbered 1 ops = true) :
    transcript step .start ops = transcript chronicle [] ops ∧
      transcript Storage.step .start ops = transcript chronicle [] ops ∧
      final Storage.step .start ops = (final step .start ops).laidOut ∧
      (∀ op e, ((final Storage.step .start ops).step op).1 = .error e →
        ((final Storage.step .start ops).step op).2 = final Storage.step .start ops) ∧
      ∀ k, ((final step .start ops).scope k).names.Pairwise (· < ·) ∧
        ∀ name, name ∈ ((final step .start ops).scope k).names ↔
          added (final chronicle [] ops) k name = true := by
  obtain ⟨htranscript, htells⟩ := transcript_eq_chronicle Tells.start hops
  refine ⟨htranscript, (transcript_laidOut .start ops).trans htranscript, final_laidOut .start ops,
    fun op e => Storage.step_of_error, fun k => ⟨?_, fun name => ?_⟩⟩
  · exact Scope.pairwise_names (htells.vars.distinct k)
  · rw [Scope.mem_names, htells.vars.get?_eq, isSome_known]

/-- A function that is defined in one of three scopes, and a variable of the same name in two. -/
def gathering : List Op :=
  [.declare 0 "gold", .child 0, .define 1 ⟨1, "greet", [], none⟩, .get 1 "gold", .declare 1 "gold",
    .assign 1 "gold" (.int 5), .get 0 "gold", .lookup 0 "greet", .child 1,
    .define 2 ⟨9, "greet", ["name"], none⟩, .lookup 2 "greet", .get 1 "gold", .declare 1 "bow",
    .declare 0 "gold"]

theorem gathering_transcript :
    numbered 1 gathering = true ∧
      transcript step .start gathering =
        [.ok .done, .ok .done, .ok .done, .error (.ofFault (.undeclared "gold")), .ok .done,
          .ok .done, .ok (.value .nothing), .ok (.function ⟨1, "greet", [], none⟩), .ok .done,
          .error ⟨.alreadyDefined "greet", 9, []⟩, .ok (.function ⟨1, "greet", [], none⟩),
          .ok (.value (.int 5)), .ok .done, .error (.ofFault (.alreadyDefined "gold"))] :=
  ⟨rfl, (variables_private_and_functions_shared gathering rfl).1.trans rfl⟩

end Family

end Adventure
