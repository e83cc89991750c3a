import ForkAgent.Migrations.Runner

/-!
# Which scripts are run

The loader takes every file with a version and a name, so also the scripts that undo a migration;
and of the files of one version it runs those up to the first that succeeds.
-/

namespace ForkAgent.Migrations

variable {S : Type}

def Statement.LeavesRecords : Statement S → Prop
  | .run effect => ∀ db, match effect db with
    | .done db' | .failed _ db' => db'.migrations = db.migrations
    | .aborted _ => True
  | _ => True

/-- No script touches the table in which the runner keeps track, or opens a transaction that cannot be
committed. -/
structure Sqlite.LeavesRecords (sqlite : Sqlite S) : Prop where
  statements : ∀ sql, ∀ statement ∈ sqlite.statements sql, statement.LeavesRecords
  commits : ∀ conn, sqlite.refusesCommit conn = none

/-- The forward scripts of the versions that are not applied. -/
def pendingScripts (dir : Option (List DirEntry)) (applied : List Nat) : List Migration :=
  (forwardScripts dir).filter fun migration => migration.version ∉ applied

/-- The scripts that were run are the pending forward scripts, each once and in the order of their
versions, unless an error is raised; and one is raised where two forward scripts have one version. -/
structure ForwardOnce (dir : Option (List DirEntry)) (applied : List Nat) (log : Log S) : Prop where
  increasing : log.executed.Pairwise (·.version < ·.version)
  forward : log.executed.Subperm (pendingScripts dir applied)
  complete : log.result = .ok () → log.executed.Perm (pendingScripts dir applied)
  reported : ¬ ((forwardScripts dir).map (·.version)).Nodup → ∃ e, log.result = .error e

/-- Whatever the scripts do and the database holds. -/
def RunsForwardOnce (dir : Option (List DirEntry)) (applied : List MigrationRecord) : Prop :=
  ∀ (S : Type) (sqlite : Sqlite S) (clock : Nat → String) (content : S), sqlite.LeavesRecords →
    ForwardOnce dir (applied.map (·.version)) (sqlite.runMigrations clock dir ⟨content, applied⟩)

section Records

variable {sqlite : Sqlite S} {clock : Nat → String} {timestamp : String} {migration : Migration}
  {db : Database S} {conn : Connection S} {n : Nat}

/-- What is committed and what is under way have these records. -/
def Connection.Records (records : List MigrationRecord) (conn : Connection S) : Prop :=
  conn.saved.migrations = records ∧ conn.view.migrations = records

theorem commit_of_leavesRecords (hleaves : sqlite.LeavesRecords) (conn : Connection S) :
    sqlite.commit conn = (conn.commit, .ok ()) := by
  obtain ⟨saved, working⟩ := conn
  cases working with
  | none => rfl
  | some db => simp [Sqlite.commit, hleaves.commits]

theorem records_write {records : List MigrationRecord} (hdb : db.migrations = records)
    (hconn : conn.Records records) : (conn.write db).Records records := by
  obtain ⟨saved, working⟩ := conn
  cases working with
  | none => exact ⟨hdb, hdb⟩
  | some db' => exact ⟨hconn.1, hdb⟩

theorem records_execute {statement : Statement S} {records : List MigrationRecord}
    (hleaves : sqlite.LeavesRecords) (hstatement : statement.LeavesRecords) (hconn : conn.Records records) :
    (sqlite.execute conn statement).1.Records records := by
  cases statement with
  | begin =>
    obtain ⟨saved, working⟩ := conn
    cases working with
    | none => exact ⟨hconn.1, hconn.1⟩
    | some db => exact hconn
  | commit =>
    obtain ⟨saved, working⟩ := conn
    cases working with
    | none => exact hconn
    | some db =>
      rw [Sqlite.execute, commit_of_leavesRecords hleaves]
      exact ⟨hconn.2, hconn.2⟩
  | rollback =>
    obtain ⟨saved, working⟩ := conn
    cases working with
    | none => exact hconn
    | some db => exact ⟨hconn.1, hconn.1⟩
  | run effect =>
    have heffect := hstatement conn.view
    rw [Sqlite.execute]
    cases houtcome : effect conn.view with
    | done db =>
      rw [houtcome] at heffect
      exact records_write (heffect.trans hconn.2) hconn
    | failed e db =>
      rw [houtcome] at heffect
      exact records_write (heffect.trans hconn.2) hconn
    | aborted e => exact ⟨hconn.1, hconn.1⟩

theorem records_runStatements {statements : List (Statement S)} (conn : Connection S)
    {records : List MigrationRecord} (hleaves : sqlite.LeavesRecords)
    (hstatements : ∀ statement ∈ statements, statement.LeavesRecords)
    (hconn : conn.Records records) : (sqlite.runStatements statements conn).1.Records records := by
  induction statements generalizing conn with
  | nil => exact hconn
  | cons statement statements ih =>
    have hfirst := records_execute hleaves (hstatements statement List.mem_cons_self) hconn
    rw [Sqlite.runStatements]
    split
    · next conn' hexecute =>
      rw [hexecute] at hfirst
      exact ih conn' (fun other hother => hstatements other (List.mem_cons_of_mem _ hother)) hfirst
    · next conn' e hexecute =>
      rw [hexecute] at hfirst
      exact hfirst

theorem insertRecord_ok {record : MigrationRecord} {conn conn' : Connection S}
    (h : sqlite.insertRecord record conn = .ok conn') :
    conn'.view.migrations = conn.view.migrations ++ [record] := by
  unfold Sqlite.insertRecord at h
  split_ifs at h
  split at h
  · cases h
  · cases h
    rfl

theorem after_applyMigration (timestamp : String) (migration : Migration) (db : Database S)
    (hleaves : sqlite.LeavesRecords) :
    ∃ after, (sqlite.applyMigration timestamp migration { saved := db }).after = { saved := after } ∧
      ∀ version ∈ after.versions, version ∈ db.versions ∨ version = migration.version := by
  by_cases happlied : migration.version ∈ db.versions
  · rw [applyMigration_of_applied happlied]
    exact ⟨db, rfl, fun _ => .inl⟩
  · rw [applyMigration_of_fresh happlied]
    have hrecords := records_runStatements { saved := db } hleaves (hleaves.statements migration.sql) ⟨rfl, rfl⟩
    obtain ⟨conn, e, hrun, hscript⟩ | ⟨conn, e, hrun, -, hscript⟩ | ⟨conn, conn', hrun, hinsert, hscript⟩ :=
      applyScript_cases sqlite timestamp migration { saved := db }
    · rw [hrun] at hrecords
      rw [hscript]
      refine ⟨conn.saved, rfl, fun version hversion => .inl ?_⟩
      rwa [Database.versions, hrecords.1] at hversion
    · rw [hrun] at hrecords
      rw [hscript]
      refine ⟨conn.saved, rfl, fun version hversion => .inl ?_⟩
      rwa [Database.versions, hrecords.1] at hversion
    · rw [hrun] at hrecords
      rw [hscript]
      refine ⟨conn'.view, congrArg Prod.fst (commit_of_leavesRecords hleaves conn'), fun version hversion => ?_⟩
      rw [Database.versions, insertRecord_ok hinsert, hrecords.2] at hversion
      simpa [Database.versions] using hversion

/-- A run of fresh versions in increasing order runs them one after the other, up to an error. -/
theorem executed_runPending (clock : Nat → String) (n : Nat) (db : Database S)
    (hleaves : sqlite.LeavesRecords) {pending : List Migration}
    (hincreasing : pending.Pairwise (·.version < ·.version))
    (hfresh : ∀ migration ∈ pending, migration.version ∉ db.versions) :
    (sqlite.runPending clock n pending { saved := db }).executed <+: pending ∧
      ((sqlite.runPending clock n pending { saved := db }).result = .ok () →
        (sqlite.runPending clock n pending { saved := db }).executed = pending) := by
  induction pending generalizing n db with
  | nil => exact ⟨List.nil_prefix, fun _ => rfl⟩
  | cons migration rest ih =>
    have hexecuted : (sqlite.applyMigration (clock n) migration { saved := db }).executed = true :=
      (applyMigration_executed (clock n)).mpr (hfresh migration List.mem_cons_self)
    by_cases hpasses : (sqlite.applyMigration (clock n) migration { saved := db }).passes = true
    · obtain ⟨after, hafter, hversions⟩ := after_applyMigration (clock n) migration db hleaves
      have hrest : ∀ later ∈ rest, later.version ∉ after.versions := by
        intro later hlater hmem
        obtain hold | hnew := hversions _ hmem
        · exact hfresh later (List.mem_cons_of_mem _ hlater) hold
        · have hlt := (List.pairwise_cons.mp hincreasing).1 later hlater
          omega
      obtain ⟨hstart, hall⟩ := ih (n + 1) after (List.pairwise_cons.mp hincreasing).2 hrest
      rw [runPending_of_passes hpasses, hafter]
      simp only [Log.executed, List.filter_cons, hexecuted, if_true, List.map_cons,
        applyMigration_migration]
      constructor
      · exact (List.prefix_cons_inj migration).mpr hstart
      · intro hresult
        exact congrArg _ (hall hresult)
    · obtain ⟨e, -, hstops⟩ := runPending_of_not_passes rest (Bool.not_eq_true _ ▸ hpasses)
      rw [hstops]
      constructor
      · simp [Log.executed, hexecuted]
      · intro hresult
        cases hresult

end Records

section Loading

variable {dir : Option (List DirEntry)} {migrations : List Migration}

/-- The migrations of a list of files. -/
def scriptsOf (entries : List DirEntry) : List Migration :=
  entries.filterMap (·.migration.toOption)

theorem scriptsOf_of_mapM {entries : List DirEntry} (h : entries.mapM (·.migration) = .ok migrations) :
    migrations = scriptsOf entries ∧ ∀ entry ∈ entries, ∃ migration, entry.migration = .ok migration := by
  induction entries generalizing migrations with
  | nil =>
    cases h
    exact ⟨rfl, by simp⟩
  | cons entry entries ih =>
    rw [List.mapM_cons] at h
    obtain ⟨migration, hmigration, hrest⟩ := bind_eq_ok.mp h
    obtain ⟨others, hothers, hall⟩ := bind_eq_ok.mp hrest
    cases hall
    obtain ⟨rfl, hloaded⟩ := ih hothers
    constructor
    · show migration :: scriptsOf entries = scriptsOf (entry :: entries)
      simp [scriptsOf, hmigration, Except.toOption]
    · intro other hother
      obtain rfl | hother := List.mem_cons.mp hother
      · exact ⟨migration, hmigration⟩
      · exact hloaded other hother

/-- What is loaded: a migration for each file, in the order of the versions. -/
theorem loaded (hload : loadMigrations dir = .ok migrations) :
    migrations.Perm (scriptsOf (sqlFiles (dir.getD []))) ∧
      migrations.Pairwise (·.version ≤ ·.version) ∧
      ∀ entry ∈ sqlFiles (dir.getD []), ∃ migration, entry.migration = .ok migration := by
  cases dir with
  | none =>
    cases hload
    exact ⟨.refl _, .nil, by simp [sqlFiles]⟩
  | some dir =>
    obtain ⟨unsorted, hunsorted, hsorted⟩ := bind_eq_ok.mp hload
    cases hsorted
    obtain ⟨rfl, hall⟩ := scriptsOf_of_mapM hunsorted
    have : Std.Total fun m other : Migration => m.version ≤ other.version :=
      ⟨fun m other => le_total m.version other.version⟩
    have : IsTrans Migration fun m other => m.version ≤ other.version := ⟨fun _ _ _ => le_trans⟩
    exact ⟨List.perm_insertionSort _ _, List.pairwise_insertionSort _ _, hall⟩

theorem scriptsOf_perm (dir : Option (List DirEntry)) :
    (scriptsOf (sqlFiles (dir.getD []))).Perm
      (scriptsOf ((sqlFiles (dir.getD [])).filter (·.isRollback)) ++ forwardScripts dir) := by
  unfold scriptsOf forwardScripts
  rw [← List.filterMap_append]
  exact (List.filter_append_perm (fun entry : DirEntry => entry.isRollback) _).symm.filterMap _

variable {applied : List Nat}

theorem pending_perm (applied : List Nat) (hload : loadMigrations dir = .ok migrations) :
    (migrations.filter fun migration => migration.version ∉ applied).Perm
      ((scriptsOf ((sqlFiles (dir.getD [])).filter (·.isRollback))).filter
        (fun migration => migration.version ∉ applied) ++ pendingScripts dir applied) := by
  rw [pendingScripts, ← List.filter_append]
  exact ((loaded hload).1.trans (scriptsOf_perm dir)).filter _

/-- There are no pending scripts that undo a migration. -/
def NoRollback (dir : Option (List DirEntry)) (applied : List Nat) : Prop :=
  ∀ entry ∈ sqlFiles (dir.getD []), entry.isRollback = true →
    ∀ migration, entry.migration = .ok migration → migration.version ∈ applied

theorem noRollback_iff : NoRollback dir applied ↔
    (scriptsOf ((sqlFiles (dir.getD [])).filter (·.isRollback))).filter
      (fun migration => migration.version ∉ applied) = [] := by
  rw [List.filter_eq_nil_iff]
  constructor
  · intro h migration hmigration
    obtain ⟨entry, hentry, hread⟩ := List.mem_filterMap.mp hmigration
    obtain ⟨hentry, hrollback⟩ := List.mem_filter.mp hentry
    have hok : entry.migration = .ok migration := by
      cases hcase : entry.migration with
      | ok m =>
        rw [hcase] at hread
        cases hread
        rfl
      | error e =>
        rw [hcase] at hread
        cases hread
    simpa using h entry hentry hrollback migration hok
  · intro h entry hentry hrollback migration hread
    have hmem : migration ∈ scriptsOf ((sqlFiles (dir.getD [])).filter (·.isRollback)) := by
      apply List.mem_filterMap.mpr
      exact ⟨entry, List.mem_filter.mpr ⟨hentry, hrollback⟩, by rw [hread]; rfl⟩
    simpa using h migration hmem

end Loading

section Refusing

/-- A database engine in which every statement violates a constraint. -/
def refusing : Sqlite Unit where
  statements _ := [.run fun db => .failed (.integrityError "") db]
  refuses _ _ := none

theorem refusing_leavesRecords : refusing.LeavesRecords := by
  refine ⟨fun sql statement hstatement => ?_, fun _ => rfl⟩
  cases List.mem_singleton.mp hstatement
  exact fun db => rfl

theorem refusing_applyMigration (timestamp : String) {migration : Migration} {db : Database Unit}
    (h : migration.version ∉ db.versions) :
    refusing.applyMigration timestamp migration { saved := db } =
      { migration, before := { saved := db }, executed := true, result := .error (.integrityError ""),
        after := { saved := db } } := by
  rw [applyMigration_of_fresh h]
  rfl

theorem refusing_runPending (clock : Nat → String) (n : Nat) (pending : List Migration)
    (db : Database Unit) (hfresh : ∀ migration ∈ pending, migration.version ∉ db.versions) :
    (refusing.runPending clock n pending { saved := db }).executed = pending ∧
      (refusing.runPending clock n pending { saved := db }).result = .ok () := by
  induction pending generalizing n with
  | nil => exact ⟨rfl, rfl⟩
  | cons migration rest ih =>
    have happly := refusing_applyMigration (clock n) (hfresh migration List.mem_cons_self)
    have hpasses : (refusing.applyMigration (clock n) migration { saved := db }).passes = true := by
      rw [happly]
      rfl
    obtain ⟨hexecuted, hresult⟩ := ih (n + 1) fun later hlater =>
      hfresh later (List.mem_cons_of_mem _ hlater)
    rw [runPending_of_passes hpasses, happly]
    exact ⟨congrArg _ hexecuted, hresult⟩

end Refusing

section Theorem

variable {dir : Option (List DirEntry)} {migrations : List Migration}

theorem runMigrations_of_load {S : Type} {sqlite : Sqlite S} {clock : Nat → String} {db : Database S}
    (hload : loadMigrations dir = .ok migrations) :
    sqlite.runMigrations clock dir db =
      sqlite.runPending clock 0 (migrations.filter fun m => m.version ∉ db.versions) { saved := db } := by
  rw [Sqlite.runMigrations, pendingMigrations, hload]
  rfl

/-- In every directory that can be loaded, the forward scripts of the unapplied versions are run, each
once and in order, whatever the scripts do, if and only if no script that undoes a migration belongs
to an unapplied version and no two forward scripts have one version. -/
theorem runs_forward_once_iff (hload : loadMigrations dir = .ok migrations)
    (applied : List MigrationRecord) :
    RunsForwardOnce dir applied ↔ NoRollback dir (applied.map (·.version)) ∧
      ((forwardScripts dir).map (·.version)).Nodup := by
  have hpending := pending_perm (applied.map (·.version)) hload
  constructor
  · intro h
    have hall := h Unit refusing (fun _ => "") () refusing_leavesRecords
    rw [runMigrations_of_load hload] at hall
    obtain ⟨hexecuted, hresult⟩ := refusing_runPending (fun _ => "") 0
      (migrations.filter fun m => m.version ∉ (⟨(), applied⟩ : Database Unit).versions)
      ⟨(), applied⟩ (by simp)
    constructor
    · rw [noRollback_iff, ← List.length_eq_zero_iff]
      have hlength := (hall.complete hresult).length_eq
      rw [hexecuted] at hlength
      have hsum := hpending.length_eq
      rw [List.length_append, ← hlength] at hsum
      exact Nat.right_eq_add.mp hsum
    · by_contra htwice
      obtain ⟨e, he⟩ := hall.reported htwice
      rw [hresult] at he
      cases he
  · intro ⟨hnone, hnodup⟩ S sqlite clock content hleaves
    rw [noRollback_iff.mp hnone, List.nil_append] at hpending
    rw [runMigrations_of_load hload]
    have hincreasing : (migrations.filter fun m =>
        m.version ∉ (⟨content, applied⟩ : Database S).versions).Pairwise (·.version < ·.version) := by
      have hdistinct : (migrations.filter fun m =>
          m.version ∉ (⟨content, applied⟩ : Database S).versions).Pairwise (·.version ≠ ·.version) := by
        rw [← List.pairwise_map (f := Migration.version)]
        apply (hpending.map Migration.version).nodup_iff.mpr
        exact hnodup.sublist (List.filter_sublist.map _)
      have hsorted := (loaded hload).2.1.sublist (List.filter_sublist (l := migrations)
        (p := fun m => m.version ∉ (⟨content, applied⟩ : Database S).versions))
      exact hsorted.imp₂ (fun _ _ hle hne => lt_of_le_of_ne hle hne) hdistinct
    obtain ⟨hstart, hcomplete⟩ := executed_runPending clock 0 ⟨content, applied⟩ hleaves hincreasing
      (by simp)
    constructor
    · exact hincreasing.sublist hstart.sublist
    · exact hstart.sublist.subperm.trans hpending.subperm
    · intro hresult
      rw [hcomplete hresult]
      exact hpending
    · intro htwice
      exact absurd hnodup htwice

def script (name text : String) : DirEntry := { name, text := .ok text }

/-- A script that undoes a version that is applied does no harm. -/
theorem runs_forward_once_iff_applied : RunsForwardOnce (some [script "002_b.sql" "B",
    script "001_rollback.sql" "DROP", script "001_seed.sql" "A"]) [⟨1, "seed", ""⟩] := by
  have hload : loadMigrations (some [script "002_b.sql" "B", script "001_rollback.sql" "DROP",
      script "001_seed.sql" "A"]) = .ok [⟨1, "rollback", "DROP"⟩, ⟨1, "seed", "A"⟩, ⟨2, "b", "B"⟩] := by rfl
  apply (runs_forward_once_iff hload [⟨1, "seed", ""⟩]).mpr
  constructor
  · apply noRollback_iff.mpr
    decide
  · decide

/-- A directory in which the script that undoes version 1 comes before the one that leads there: it
is run in its place. -/
theorem rollback_runs_instead :
    ¬ ∀ dir migrations, loadMigrations dir = .ok migrations → ∀ applied, RunsForwardOnce dir applied := by
  intro h
  have hall := h (some [script "001_rollback.sql" "DROP", script "001_seed.sql" "CREATE"])
    [⟨1, "rollback", "DROP"⟩, ⟨1, "seed", "CREATE"⟩] (by rfl) [] Unit
    { statements := fun _ => [], refuses := fun _ _ => none } (fun _ => "") ()
    ⟨nofun, fun _ => rfl⟩
  have hforward := hall.forward.subset (List.mem_singleton.mpr rfl : (⟨1, "rollback", "DROP"⟩ : Migration) ∈ _)
  revert hforward
  decide

end Theorem

end ForkAgent.Migrations
