import ForkAgent.Migrations.Loader

/-!
# Applying migrations

A script is run statement by statement: `executescript` commits what is open and then leaves every
statement to itself, unless the script opens a transaction of its own. The record of a migration is
inserted in a transaction after its script. A commit may be refused; the transaction then stays open,
and so does the connection, which every context of the runner uses.
-/

namespace ForkAgent.Migrations

variable {S : Type}

/-- A row of `_migrations`. -/
structure MigrationRecord where
  version : Nat
  name : String
  appliedAt : String
  deriving DecidableEq, Repr

/-- The schema and the data, and the table in which the runner keeps track. -/
structure Database (S : Type) where
  content : S
  migrations : List MigrationRecord

/-- `get_applied_versions`. -/
def Database.versions (db : Database S) : List Nat := db.migrations.map (·.version)

/-- How a statement ends. One that fails may leave some of its changes, as `INSERT OR FAIL` does, and
may roll the open transaction back, as `INSERT OR ROLLBACK` does. -/
inductive Outcome (S : Type) where
  | done (db : Database S)
  | failed (e : Exn) (left : Database S)
  | aborted (e : Exn)

/-- A statement of a script. -/
inductive Statement (S : Type) where
  | begin
  | commit
  | rollback
  | run (effect : Database S → Outcome S)

/-- What is committed, and an open transaction. -/
structure Connection (S : Type) where
  saved : Database S
  working : Option (Database S) := none

def Connection.view (conn : Connection S) : Database S := conn.working.getD conn.saved

def Connection.write (conn : Connection S) (db : Database S) : Connection S :=
  match conn.working with
  | none => { saved := db }
  | some _ => { conn with working := some db }

def Connection.commit (conn : Connection S) : Connection S := { saved := conn.view }

def Connection.rollback (conn : Connection S) : Connection S := { saved := conn.saved }

/-- What the database engine makes of the text of a script, and when it refuses a record or a commit. -/
structure Sqlite (S : Type) where
  statements : String → List (Statement S)
  refuses : Database S → MigrationRecord → Option Exn
  refusesCommit : Connection S → Option Exn := fun _ => none

/-- A commit of what is open, if anything is. -/
def Sqlite.commit (sqlite : Sqlite S) (conn : Connection S) : Connection S × Except Exn Unit :=
  match conn.working with
  | none => (conn, .ok ())
  | some _ =>
    match sqlite.refusesCommit conn with
    | some e => (conn, .error e)
    | none => (conn.commit, .ok ())

def Sqlite.execute (sqlite : Sqlite S) (conn : Connection S) : Statement S → Connection S × Except Exn Unit
  | .begin =>
    match conn.working with
    | none => ({ conn with working := some conn.saved }, .ok ())
    | some _ => (conn, .error (.operationalError "cannot start a transaction within a transaction"))
  | .commit =>
    match conn.working with
    | none => (conn, .error (.operationalError "cannot commit - no transaction is active"))
    | some _ => sqlite.commit conn
  | .rollback =>
    match conn.working with
    | none => (conn, .error (.operationalError "cannot rollback - no transaction is active"))
    | some _ => (conn.rollback, .ok ())
  | .run effect =>
    match effect conn.view with
    | .done db => (conn.write db, .ok ())
    | .failed e left => (conn.write left, .error e)
    | .aborted e => (conn.rollback, .error e)

/-- Statement by statement, up to the first that fails. -/
def Sqlite.runStatements (sqlite : Sqlite S) :
    List (Statement S) → Connection S → Connection S × Except Exn Unit
  | [], conn => (conn, .ok ())
  | statement :: statements, conn =>
    match sqlite.execute conn statement with
    | (conn, .ok ()) => sqlite.runStatements statements conn
    | (conn, .error e) => (conn, .error e)

/-- The largest integer that the database stores. -/
def MAX_INTEGER : Nat := 2 ^ 63 - 1

/-- `INSERT INTO _migrations`, in a transaction that is opened where none is open. -/
def Sqlite.insertRecord (sqlite : Sqlite S) (record : MigrationRecord) (conn : Connection S) :
    Except Exn (Connection S) :=
  if MAX_INTEGER < record.version then
    .error (.overflowError "Python int too large to convert to SQLite INTEGER")
  else if record.version ∈ conn.view.versions then
    .error (.integrityError "UNIQUE constraint failed: _migrations.version")
  else match sqlite.refuses conn.view record with
    | some e => .error e
    | none =>
      .ok { conn with working := some { conn.view with migrations := conn.view.migrations ++ [record] } }

/-- `DatabaseConnection.__exit__`; what it raises takes the place of the result. -/
def Sqlite.exit (sqlite : Sqlite S) (conn : Connection S) : Except Exn Unit → Connection S × Except Exn Unit
  | .ok _ => sqlite.commit conn
  | .error e => (conn.rollback, .error e)

/-- One call of `apply_migration`, and whether it came to `executescript`. -/
structure Application (S : Type) where
  migration : Migration
  before : Connection S
  executed : Bool
  result : Except Exn Unit
  after : Connection S

/-- The body of `apply_migration` under its connection. -/
def Sqlite.applyScript (sqlite : Sqlite S) (timestamp : String) (migration : Migration)
    (conn : Connection S) : Connection S × Except Exn Unit :=
  match sqlite.runStatements (sqlite.statements migration.sql) conn with
  | (conn, .error e) => (conn, .error e)
  | (conn, .ok ()) =>
    match sqlite.insertRecord ⟨migration.version, migration.name, timestamp⟩ conn with
    | .error e => (conn, .error e)
    | .ok conn => (conn, .ok ())

/-- `apply_migration`; the versions are looked up under a connection of their own, with its commit. -/
def Sqlite.applyMigration (sqlite : Sqlite S) (timestamp : String) (migration : Migration)
    (conn : Connection S) : Application S :=
  match sqlite.commit conn with
  | (looked, .error e) => { migration, before := conn, executed := false, result := .error e, after := looked }
  | (looked, .ok ()) =>
    if migration.version ∈ looked.saved.versions then
      { migration, before := conn, executed := false, after := looked,
        result := .error (.migrationAlreadyAppliedError
          s!"Migration version {migration.version} already applied") }
    else
      let (left, result) := sqlite.applyScript timestamp migration looked
      let (closed, raised) := sqlite.exit left result
      { migration, before := conn, executed := true, result := raised, after := closed }

/-- The errors that `run_migrations` suppresses. -/
def suppressed : Exn → Bool
  | .migrationAlreadyAppliedError _ | .integrityError _ => true
  | _ => false

/-- What `run_migrations` has done. -/
structure Log (S : Type) where
  applications : List (Application S)
  result : Except Exn Unit

/-- The loop of `run_migrations`; the clock is read before each script. -/
def Sqlite.runPending (sqlite : Sqlite S) (clock : Nat → String) :
    Nat → List Migration → Connection S → Log S
  | _, [], _ => ⟨[], .ok ()⟩
  | n, migration :: rest, conn =>
    let application := sqlite.applyMigration (clock n) migration conn
    match application.result with
    | .error e =>
      if suppressed e then
        let log := sqlite.runPending clock (n + 1) rest application.after
        { log with applications := application :: log.applications }
      else ⟨[application], .error e⟩
    | .ok () =>
      let log := sqlite.runPending clock (n + 1) rest application.after
      { log with applications := application :: log.applications }

/-- The migrations that are loaded and not applied. -/
def pendingMigrations (dir : Option (List DirEntry)) (db : Database S) : Except Exn (List Migration) := do
  let migrations ← loadMigrations dir
  return migrations.filter fun migration => migration.version ∉ db.versions

def Sqlite.runMigrations (sqlite : Sqlite S) (clock : Nat → String) (dir : Option (List DirEntry))
    (db : Database S) : Log S :=
  match pendingMigrations dir db with
  | .error e => ⟨[], .error e⟩
  | .ok pending => sqlite.runPending clock 0 pending { saved := db }

/-- The migrations whose scripts were run, in order. -/
def Log.executed (log : Log S) : List Migration :=
  (log.applications.filter (·.executed)).map (·.migration)

section Runs

variable {sqlite : Sqlite S} {clock : Nat → String} {timestamp : String} {migration : Migration}
  {rest : List Migration} {conn : Connection S} {db : Database S} {n : Nat}

theorem commit_of_closed (h : conn.working = none) : sqlite.commit conn = (conn, .ok ()) := by
  rw [Sqlite.commit, h]

theorem commit_eq_error {left : Connection S} {e : Exn} (h : sqlite.commit conn = (left, .error e)) :
    left = conn ∧ sqlite.commit conn = (conn, .error e) := by
  have hrefused := h
  unfold Sqlite.commit at h
  split at h
  · cases h
  · split at h
    · cases h
      exact ⟨rfl, hrefused⟩
    · cases h

theorem commit_eq_ok {left : Connection S} (h : sqlite.commit conn = (left, .ok ())) :
    left = { saved := conn.view } := by
  obtain ⟨saved, working⟩ := conn
  unfold Sqlite.commit at h
  cases working with
  | none =>
    cases h
    rfl
  | some db =>
    simp only at h
    split at h
    · cases h
    · cases h
      rfl

@[simp] theorem applyMigration_migration :
    (sqlite.applyMigration timestamp migration conn).migration = migration := by
  unfold Sqlite.applyMigration
  split
  · rfl
  · split_ifs <;> rfl

@[simp] theorem applyMigration_before : (sqlite.applyMigration timestamp migration conn).before = conn := by
  unfold Sqlite.applyMigration
  split
  · rfl
  · split_ifs <;> rfl

theorem applyScript_cases (sqlite : Sqlite S) (timestamp : String) (migration : Migration)
    (start : Connection S) :
    (∃ conn e, sqlite.runStatements (sqlite.statements migration.sql) start = (conn, .error e) ∧
      sqlite.applyScript timestamp migration start = (conn, .error e)) ∨
    (∃ conn e, sqlite.runStatements (sqlite.statements migration.sql) start = (conn, .ok ()) ∧
      sqlite.insertRecord ⟨migration.version, migration.name, timestamp⟩ conn = .error e ∧
      sqlite.applyScript timestamp migration start = (conn, .error e)) ∨
    ∃ conn conn', sqlite.runStatements (sqlite.statements migration.sql) start = (conn, .ok ()) ∧
      sqlite.insertRecord ⟨migration.version, migration.name, timestamp⟩ conn = .ok conn' ∧
      sqlite.applyScript timestamp migration start = (conn', .ok ()) := by
  unfold Sqlite.applyScript
  split
  · next conn e hrun => exact .inl ⟨conn, e, hrun, rfl⟩
  · next conn hrun =>
    right
    cases hinsert : sqlite.insertRecord ⟨migration.version, migration.name, timestamp⟩ conn with
    | error e => exact .inl ⟨conn, e, hrun, hinsert, rfl⟩
    | ok conn' => exact .inr ⟨conn, conn', hrun, hinsert, rfl⟩

theorem applyMigration_of_refused {e : Exn} (h : sqlite.commit conn = (conn, .error e)) :
    sqlite.applyMigration timestamp migration conn =
      { migration, before := conn, executed := false, result := .error e, after := conn } := by
  rw [Sqlite.applyMigration, h]

theorem applyMigration_of_applied (h : migration.version ∈ db.versions) :
    sqlite.applyMigration timestamp migration { saved := db } =
      { migration, before := { saved := db }, executed := false, after := { saved := db },
        result := .error (.migrationAlreadyAppliedError
          s!"Migration version {migration.version} already applied") } := by
  rw [Sqlite.applyMigration, commit_of_closed rfl]
  exact if_pos h

theorem applyMigration_of_fresh (h : migration.version ∉ db.versions) :
    sqlite.applyMigration timestamp migration { saved := db } =
      { migration, before := { saved := db }, executed := true,
        result := (sqlite.exit (sqlite.applyScript timestamp migration { saved := db }).1
          (sqlite.applyScript timestamp migration { saved := db }).2).2,
        after := (sqlite.exit (sqlite.applyScript timestamp migration { saved := db }).1
          (sqlite.applyScript timestamp migration { saved := db }).2).1 } := by
  rw [Sqlite.applyMigration, commit_of_closed rfl]
  exact if_neg h

theorem applyMigration_executed (timestamp : String) :
    (sqlite.applyMigration timestamp migration { saved := db }).executed = true ↔
      migration.version ∉ db.versions := by
  by_cases h : migration.version ∈ db.versions
  · rw [applyMigration_of_applied h]
    simp [h]
  · rw [applyMigration_of_fresh h]
    simp [h]

/-- A run goes on after an application that succeeds or raises what is suppressed. -/
def Application.passes (application : Application S) : Bool :=
  match application.result with
  | .ok () => true
  | .error e => suppressed e

theorem runPending_of_passes (h : (sqlite.applyMigration (clock n) migration conn).passes = true) :
    sqlite.runPending clock n (migration :: rest) conn =
      { sqlite.runPending clock (n + 1) rest (sqlite.applyMigration (clock n) migration conn).after with
        applications := sqlite.applyMigration (clock n) migration conn ::
          (sqlite.runPending clock (n + 1) rest
            (sqlite.applyMigration (clock n) migration conn).after).applications } := by
  unfold Application.passes at h
  rw [Sqlite.runPending]
  split at h
  · next hresult => simp only [hresult]
  · next e hresult => simp only [hresult, h, if_true]

theorem runPending_of_not_passes (rest : List Migration)
    (h : (sqlite.applyMigration (clock n) migration conn).passes = false) :
    ∃ e, (sqlite.applyMigration (clock n) migration conn).result = .error e ∧
      sqlite.runPending clock n (migration :: rest) conn =
        ⟨[sqlite.applyMigration (clock n) migration conn], .error e⟩ := by
  unfold Application.passes at h
  rw [Sqlite.runPending]
  split at h
  · cases h
  · next e hresult =>
    refine ⟨e, hresult, ?_⟩
    simp [hresult, h]

end Runs

end ForkAgent.Migrations
