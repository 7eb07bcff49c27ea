import AskarOdbc.Tables

/-! How a call of the backend runs in the model. The backend and its sessions run on a `World`:
the tables, the `KeyCache` they share, the backend's `active_profile`, and the environment's
answers to the external calls still to come. Every statement the backend sends to the database,
and every task it offloads (key derivation, wrapping, encryption), is an external call, and the
environment may fail it. A call of the backend is an `Op`, an `EStateM` program: when it stops with
an error or a panic, the world it stops in keeps every write made before, as the backend runs its
statements one at a time outside any transaction. Each primitive has one lemma that says what it
does, so that the proofs about the backend never unfold it. -/

namespace AskarOdbc

/-- The state the backend runs on. `faults` holds the environment's answers to the next external
calls: `none` lets a call succeed, `some e` fails it with `e`; once the list is empty every call
succeeds. -/
structure World where
  db : Db
  keyCache : KeyCache
  activeProfile : String
  faults : List (Option Error)

/-- The world after one external call took its answer. -/
def World.pop (w : World) : World := { w with faults := w.faults.tail }

/-- The answer the next external call takes. -/
def World.fault (w : World) : Option Error := w.faults.head?.join

@[simp] theorem World.pop_db (w : World) : w.pop.db = w.db := rfl
@[simp] theorem World.pop_faults (w : World) : w.pop.faults = w.faults.tail := rfl
@[simp] theorem World.pop_keyCache (w : World) : w.pop.keyCache = w.keyCache := rfl
@[simp] theorem World.pop_activeProfile (w : World) : w.pop.activeProfile = w.activeProfile := rfl

/-- Once the environment has no failure left to give, a call takes no answer. -/
theorem World.pop_of_faults_nil {w : World} (h : w.faults = []) : w.pop = w := by
  cases w; cases h; rfl

theorem World.fault_of_faults_nil {w : World} (h : w.faults = []) : w.fault = none := by
  simp [World.fault, h]

/-- A call of the backend. -/
abbrev Op := EStateM Fault World

/-- The world a call ends in, with a value or a fault. -/
def Op.final {α : Type} : EStateM.Result Fault World α → World
  | .ok _ w => w
  | .error _ w => w

namespace Op

variable {α β : Type}

/-- An external call whose failure the code passes up with `?`. -/
def attempt : Op Unit := fun w =>
  match w.fault with
  | some e => .error (.error e) w.pop
  | none => .ok () w.pop

/-- An external call whose result the code unwraps: a failure panics. -/
def attemptOrPanic : Op Unit := fun w =>
  match w.fault with
  | some _ => .error .panic w.pop
  | none => .ok () w.pop

/-- `.unwrap()` of an `Option`. -/
def unwrapSome : Option α → Op α
  | some a => pure a
  | none => throw .panic

/-- `?` on a `Result`. -/
def check : Except Error α → Op α
  | .ok a => pure a
  | .error e => throw (.error e)

/-- A statement that writes the tables, passed up with `?`: the environment may fail it, and the
database refuses one that breaks a constraint. -/
def execute (f : Db → Except Error Db) : Op Unit := do
  attempt
  let db ← check (f (← get).db)
  modify fun w => { w with db }

/-- A `SELECT` passed up with `?`. -/
def select (f : Db → α) : Op α := do
  attempt
  return f (← get).db

/-- A `SELECT` whose execution the code unwraps. -/
def selectOrPanic (f : Db → α) : Op α := do
  attemptOrPanic
  return f (← get).db

/-- A `SELECT` whose `Result` the code matches on itself. -/
def selectResult (f : Db → α) : Op (Except Error α) := fun w =>
  .ok (match w.fault with
    | some e => .error e
    | none => .ok (f w.db)) w.pop

/-- The first row of a `SELECT`, read as
`execute(..).unwrap().unwrap().next_row().unwrap().unwrap().get_data(..)?` reads it: a failed
execution or fetch panics, so does a result with no row, and a failed read of the column is
passed up. -/
def selectFirstOrPanic (f : Db → List α) : Op α := do
  let rows ← selectOrPanic f
  attemptOrPanic
  let row ← unwrapSome rows.head?
  attempt
  return row

/-- A write to the shared `KeyCache`, under its lock. -/
def modifyCache (f : KeyCache → KeyCache) : Op Unit :=
  modify fun w => { w with keyCache := f w.keyCache }

/-! ### What each primitive does -/

theorem bind_apply (x : Op α) (f : α → Op β) (w : World) :
    (x >>= f) w = match x w with
      | .ok a w' => f a w'
      | .error e w' => .error e w' := by
  show EStateM.bind x f w = _
  unfold EStateM.bind
  cases x w <;> rfl

@[simp] theorem pure_apply (a : α) (w : World) : (pure a : Op α) w = .ok a w := rfl
@[simp] theorem throw_apply (e : Fault) (w : World) : (throw e : Op α) w = .error e w := rfl
@[simp] theorem throw_bind (e : Fault) (f : α → Op β) : (throw e : Op α) >>= f = throw e := rfl
@[simp] theorem get_apply (w : World) : (get : Op World) w = .ok w w := rfl
@[simp] theorem modify_apply (g : World → World) (w : World) :
    (modify g : Op Unit) w = .ok () (g w) := rfl

theorem attempt_apply (w : World) : attempt w = match w.fault with
    | some e => .error (.error e) w.pop
    | none => .ok () w.pop := rfl

theorem attemptOrPanic_apply (w : World) : attemptOrPanic w = match w.fault with
    | some _ => .error .panic w.pop
    | none => .ok () w.pop := rfl

theorem execute_apply (f : Db → Except Error Db) (w : World) : execute f w =
    match w.fault with
    | some e => .error (.error e) w.pop
    | none => match f w.db with
      | .ok db => .ok () { w.pop with db }
      | .error e => .error (.error e) w.pop := by
  simp only [execute, bind_apply, attempt_apply]
  cases w.fault with
  | some e => rfl
  | none => simp only [get_apply, World.pop_db]; cases f w.db <;> rfl

theorem select_apply (f : Db → α) (w : World) : select f w =
    match w.fault with
    | some e => .error (.error e) w.pop
    | none => .ok (f w.db) w.pop := by
  simp only [select, bind_apply, attempt_apply]
  cases w.fault <;> rfl

theorem selectOrPanic_apply (f : Db → α) (w : World) : selectOrPanic f w =
    match w.fault with
    | some _ => .error .panic w.pop
    | none => .ok (f w.db) w.pop := by
  simp only [selectOrPanic, bind_apply, attemptOrPanic_apply]
  cases w.fault <;> rfl

theorem selectResult_apply (f : Db → α) (w : World) : selectResult f w =
    .ok (match w.fault with
      | some e => .error e
      | none => .ok (f w.db)) w.pop := rfl

@[simp] theorem modifyCache_apply (f : KeyCache → KeyCache) (w : World) :
    modifyCache f w = .ok () { w with keyCache := f w.keyCache } := rfl

@[simp] theorem unwrapSome_some (a : α) (w : World) : unwrapSome (some a) w = .ok a w := rfl
@[simp] theorem unwrapSome_none (w : World) : (unwrapSome none : Op α) w = .error .panic w := rfl
@[simp] theorem check_ok (a : α) (w : World) : (check (.ok a) : Op α) w = .ok a w := rfl
@[simp] theorem check_error (e : Error) (w : World) :
    (check (.error e) : Op α) w = .error (.error e) w := rfl

/-! ### Running calls one after another -/

/-- `x` then `f` ends with a value exactly when both do. -/
theorem bind_eq_ok {x : Op α} {f : α → Op β} {w w'' : World} {b : β} :
    (x >>= f) w = .ok b w'' ↔ ∃ a w', x w = .ok a w' ∧ f a w' = .ok b w'' := by
  rw [bind_apply]
  constructor
  · intro h
    split at h
    · exact ⟨_, _, ‹_›, h⟩
    · cases h
  · rintro ⟨a, w', hx, hf⟩
    rw [hx]; exact hf

/-- `x` then `f` stops with a fault when `x` does, or when `x` returns and `f` stops. -/
theorem bind_eq_error {x : Op α} {f : α → Op β} {w w'' : World} {e : Fault} :
    (x >>= f) w = .error e w'' ↔
      x w = .error e w'' ∨ ∃ a w', x w = .ok a w' ∧ f a w' = .error e w'' := by
  rw [bind_apply]
  constructor
  · intro h
    split at h
    · exact .inr ⟨_, _, ‹_›, h⟩
    · cases h; exact .inl ‹_›
  · rintro (hx | ⟨a, w', hx, hf⟩)
    · rw [hx]
    · rw [hx]; exact hf

theorem execute_eq_ok {f : Db → Except Error Db} {w w' : World} {u : Unit}
    (h : execute f w = .ok u w') : ∃ db, f w.db = .ok db ∧ w' = { w.pop with db } := by
  rw [execute_apply] at h
  split at h
  · cases h
  · split at h
    · cases h; exact ⟨_, ‹_›, rfl⟩
    · cases h

theorem select_eq_ok {f : Db → α} {w w' : World} {a : α} (h : select f w = .ok a w') :
    a = f w.db ∧ w' = w.pop := by
  rw [select_apply] at h
  cases hf : w.fault <;> rw [hf] at h <;> cases h
  exact ⟨rfl, rfl⟩

theorem selectResult_eq_ok {f : Db → α} {w w' : World} {a : α}
    (h : selectResult f w = .ok (.ok a) w') : a = f w.db ∧ w' = w.pop := by
  rw [selectResult_apply] at h
  cases hf : w.fault <;> simp_all

/-! ### Calls that only read -/

/-- `w'` has the tables and the cache of `w`: only the environment's answers moved on. -/
structure Unchanged (w w' : World) : Prop where
  db : w'.db = w.db
  keyCache : w'.keyCache = w.keyCache

theorem Unchanged.refl (w : World) : Unchanged w w := ⟨rfl, rfl⟩

theorem Unchanged.trans {w₁ w₂ w₃ : World} (h₁ : Unchanged w₁ w₂) (h₂ : Unchanged w₂ w₃) :
    Unchanged w₁ w₃ := ⟨h₂.db.trans h₁.db, h₂.keyCache.trans h₁.keyCache⟩

theorem Unchanged.pop (w : World) : Unchanged w w.pop := ⟨rfl, rfl⟩

/-- `x` writes neither the tables nor the cache, however it ends. -/
def ReadsOnly (x : Op α) : Prop := ∀ w, Unchanged w (final (x w))

theorem ReadsOnly.bind {x : Op α} {f : α → Op β} (hx : ReadsOnly x) (hf : ∀ a, ReadsOnly (f a)) :
    ReadsOnly (x >>= f) := by
  intro w
  rw [bind_apply]
  have := hx w
  revert this
  cases x w with
  | ok a w₁ => exact fun h => h.trans (hf a w₁)
  | error e w₁ => exact id

theorem ReadsOnly.of_ok {x : Op α} (hx : ReadsOnly x) {w w' : World} {a : α}
    (h : x w = .ok a w') : Unchanged w w' := by
  have := hx w; rwa [h] at this

theorem ReadsOnly.of_error {x : Op α} (hx : ReadsOnly x) {w w' : World} {e : Fault}
    (h : x w = .error e w') : Unchanged w w' := by
  have := hx w; rwa [h] at this

theorem readsOnly_pure (a : α) : ReadsOnly (pure a : Op α) := Unchanged.refl
theorem readsOnly_throw (e : Fault) : ReadsOnly (throw e : Op α) := Unchanged.refl
theorem readsOnly_get : ReadsOnly (get : Op World) := Unchanged.refl

theorem readsOnly_attempt : ReadsOnly attempt := by
  intro w; rw [attempt_apply]; cases w.fault <;> exact Unchanged.pop w

theorem readsOnly_attemptOrPanic : ReadsOnly attemptOrPanic := by
  intro w; rw [attemptOrPanic_apply]; cases w.fault <;> exact Unchanged.pop w

theorem readsOnly_unwrapSome (o : Option α) : ReadsOnly (unwrapSome o) := by
  cases o <;> exact Unchanged.refl

theorem readsOnly_check (r : Except Error α) : ReadsOnly (check r) := by
  cases r <;> exact Unchanged.refl

theorem readsOnly_select (f : Db → α) : ReadsOnly (select f) :=
  readsOnly_attempt.bind fun _ => readsOnly_get.bind fun _ => readsOnly_pure _

theorem readsOnly_selectOrPanic (f : Db → α) : ReadsOnly (selectOrPanic f) :=
  readsOnly_attemptOrPanic.bind fun _ => readsOnly_get.bind fun _ => readsOnly_pure _

theorem readsOnly_selectResult (f : Db → α) : ReadsOnly (selectResult f) :=
  fun w => Unchanged.pop w

theorem execute_eq_error {f : Db → Except Error Db} {w w' : World} {e : Fault}
    (h : execute f w = .error e w') : Unchanged w w' := by
  rw [execute_apply] at h
  split at h
  · cases h; exact Unchanged.pop w
  · split at h
    · cases h
    · cases h; exact Unchanged.pop w

theorem selectFirstOrPanic_eq_ok {f : Db → List α} {w w' : World} {a : α}
    (h : selectFirstOrPanic f w = .ok a w') : (f w.db).head? = some a ∧ Unchanged w w' := by
  obtain ⟨rows, w₁, h₁, h⟩ := bind_eq_ok.1 h
  obtain ⟨_, w₂, h₂, h⟩ := bind_eq_ok.1 h
  obtain ⟨row, w₃, h₃, h⟩ := bind_eq_ok.1 h
  obtain ⟨_, w₄, h₄, h⟩ := bind_eq_ok.1 h
  cases h
  rw [selectOrPanic_apply] at h₁
  cases hf : w.fault <;> rw [hf] at h₁ <;> cases h₁
  have hu₂ := readsOnly_attemptOrPanic.of_ok h₂
  have hu₄ := readsOnly_attempt.of_ok h₄
  cases hr : (f w.db).head? <;> rw [hr] at h₃ <;> cases h₃
  exact ⟨rfl, (Unchanged.pop w).trans (hu₂.trans hu₄)⟩

/-- With no failure left to come, the first row is read, and a result without one panics. -/
theorem selectFirstOrPanic_of_faults_nil (f : Db → List α) {w : World} (h : w.faults = []) :
    selectFirstOrPanic f w = match (f w.db).head? with
      | some a => .ok a w
      | none => .error .panic w := by
  have hp := World.pop_of_faults_nil h
  have hf := World.fault_of_faults_nil h
  simp only [selectFirstOrPanic, bind_apply, selectOrPanic_apply, attemptOrPanic_apply,
    attempt_apply, hf, hp]
  cases (f w.db).head? <;> simp only [unwrapSome_some, unwrapSome_none, hf, hp, pure_apply]

theorem attempt_of_faults_nil {w : World} (h : w.faults = []) : attempt w = .ok () w := by
  rw [attempt_apply, World.fault_of_faults_nil h, World.pop_of_faults_nil h]

theorem attemptOrPanic_of_faults_nil {w : World} (h : w.faults = []) :
    attemptOrPanic w = .ok () w := by
  rw [attemptOrPanic_apply, World.fault_of_faults_nil h, World.pop_of_faults_nil h]

/-- With no failure left to come, a statement the database admits is written. -/
theorem execute_of_faults_nil {f : Db → Except Error Db} {w : World} {db : Db}
    (h : w.faults = []) (hf : f w.db = .ok db) : execute f w = .ok () { w with db } := by
  rw [execute_apply, World.fault_of_faults_nil h, World.pop_of_faults_nil h, hf]

/-- With no failure left to come, a statement the database refuses stops the call with its
error. -/
theorem execute_error_of_faults_nil {f : Db → Except Error Db} {w : World} {e : Error}
    (h : w.faults = []) (hf : f w.db = .error e) : execute f w = .error (.error e) w := by
  rw [execute_apply, World.fault_of_faults_nil h, World.pop_of_faults_nil h, hf]

theorem execute_ok_of_faults_nil (g : Db → Db) {w : World} (h : w.faults = []) :
    execute (fun db => .ok (g db)) w = .ok () { w with db := g w.db } :=
  execute_of_faults_nil h rfl

theorem readsOnly_selectFirstOrPanic (f : Db → List α) : ReadsOnly (selectFirstOrPanic f) :=
  (readsOnly_selectOrPanic f).bind fun _ => readsOnly_attemptOrPanic.bind fun _ =>
    (readsOnly_unwrapSome _).bind fun _ => readsOnly_attempt.bind fun _ => readsOnly_pure _

end Op

end AskarOdbc
