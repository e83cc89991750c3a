import ForkAgent.Migrations.Runner

/-!
# Failing migrations

The context of the connection rolls back what is open when a script fails. What its statements have
committed by then stays, and the violation of a constraint is taken for a version that is applied
already. A commit that is refused leaves the transaction open, and the lookup of the next migration is
refused, too.
-/

namespace ForkAgent.Migrations

variable {S : Type}

/-- If the application fails, it changes nothing in the database, and none follows as if its version were
applied. -/
def AtomicAt (application : Application S) (rest : List (Application S)) : Prop :=
  (∃ e, application.result = .error e) → application.after.saved = application.before.saved ∧
    (rest ≠ [] → application.migration.version ∈ application.after.saved.versions)

def Atomic (applications : List (Application S)) : Prop :=
  ∀ first application rest, applications = first ++ application :: rest → AtomicAt application rest

/-- The lookup of the versions, a statement of the script, the insert of the record or the commit raises an
error, and leaves the connection so. A script is run on a connection without a transaction, if its
version is not recorded. -/
inductive FailsAt (sqlite : Sqlite S) (timestamp : String) (migration : Migration) :
    Connection S → Connection S → Exn → Prop where
  | lookup {conn e} (refused : sqlite.commit conn = (conn, .error e)) :
      FailsAt sqlite timestamp migration conn conn e
  | statement {db before statement after reached left e} (fresh : migration.version ∉ db.versions)
      (script : sqlite.statements migration.sql = before ++ statement :: after)
      (reaches : sqlite.runStatements before { saved := db } = (reached, .ok ()))
      (raises : sqlite.execute reached statement = (left, .error e)) :
      FailsAt sqlite timestamp migration { saved := db } left e
  | record {db left e} (fresh : migration.version ∉ db.versions)
      (reaches : sqlite.runStatements (sqlite.statements migration.sql) { saved := db } = (left, .ok ()))
      (raises : sqlite.insertRecord ⟨migration.version, migration.name, timestamp⟩ left = .error e) :
      FailsAt sqlite timestamp migration { saved := db } left e
  | commit {db reached left e} (fresh : migration.version ∉ db.versions)
      (reaches : sqlite.runStatements (sqlite.statements migration.sql) { saved := db } = (reached, .ok ()))
      (inserts : sqlite.insertRecord ⟨migration.version, migration.name, timestamp⟩ reached = .ok left)
      (refused : sqlite.commit left = (left, .error e)) :
      FailsAt sqlite timestamp migration { saved := db } left e

/-- Whatever fails leaves nothing committed, and violates no constraint unless it is the last migration or
one that is recorded already. -/
def Harmless (sqlite : Sqlite S) (timestamp : String) (migration : Migration) (conn : Connection S)
    (rest : List Migration) : Prop :=
  ∀ left e, FailsAt sqlite timestamp migration conn left e → left.saved = conn.saved ∧
    (suppressed e = true → rest ≠ [] → migration.version ∈ conn.saved.versions)

section Step

variable {sqlite : Sqlite S} {timestamp : String} {migration : Migration} {db : Database S}
  {conn left : Connection S} {e : Exn}

/-- The connection has no transaction open, or one whose commit is refused. -/
def Settled (sqlite : Sqlite S) (conn : Connection S) : Prop :=
  (∃ db, conn = { saved := db }) ∨ ∃ e, sqlite.commit conn = (conn, .error e)

theorem runStatements_error_iff {statements : List (Statement S)} {start : Connection S} :
    sqlite.runStatements statements start = (left, .error e) ↔ ∃ before statement after reached,
      statements = before ++ statement :: after ∧ sqlite.runStatements before start = (reached, .ok ()) ∧
        sqlite.execute reached statement = (left, .error e) := by
  induction statements generalizing start with
  | nil => simp [Sqlite.runStatements]
  | cons first statements ih =>
    rw [Sqlite.runStatements]
    constructor
    · intro h
      split at h
      · next start' hfirst =>
        obtain ⟨before, statement, after, reached, rfl, hbefore, hraises⟩ := ih.mp h
        refine ⟨first :: before, statement, after, reached, rfl, ?_, hraises⟩
        rw [Sqlite.runStatements, hfirst]
        exact hbefore
      · next start' e' hfirst =>
        cases h
        exact ⟨[], first, statements, start, rfl, rfl, hfirst⟩
    · rintro ⟨before, statement, after, reached, hsplit, hbefore, hraises⟩
      cases before with
      | nil =>
        cases hsplit
        cases hbefore
        rw [hraises]
      | cons other before =>
        cases hsplit
        rw [Sqlite.runStatements] at hbefore
        split at hbefore
        · next start' hfirst =>
          exact ih.mpr ⟨before, statement, after, reached, rfl, hbefore, hraises⟩
        · cases hbefore

theorem FailsAt.result (h : FailsAt sqlite timestamp migration conn left e) :
    (sqlite.applyMigration timestamp migration conn).result = .error e ∧
      (sqlite.applyMigration timestamp migration conn).after.saved = left.saved := by
  cases h with
  | lookup refused =>
    rw [applyMigration_of_refused refused]
    exact ⟨rfl, rfl⟩
  | statement fresh script reaches raises =>
    have hrun := runStatements_error_iff.mpr ⟨_, _, _, _, script, reaches, raises⟩
    rw [applyMigration_of_fresh fresh, Sqlite.applyScript, hrun]
    exact ⟨rfl, rfl⟩
  | record fresh reaches raises =>
    rw [applyMigration_of_fresh fresh, Sqlite.applyScript, reaches]
    simp only [raises]
    exact ⟨rfl, rfl⟩
  | commit fresh reaches inserts refused =>
    rw [applyMigration_of_fresh fresh, Sqlite.applyScript, reaches]
    simp only [inserts, Sqlite.exit, refused, and_self]

/-- An application that raises has failed somewhere, or comes to a version that is recorded. -/
theorem result_cases (sqlite : Sqlite S) (timestamp : String) (migration : Migration) (h : Settled sqlite conn) :
    (sqlite.applyMigration timestamp migration conn).result = .ok () ∨
    (∃ left e, (sqlite.applyMigration timestamp migration conn).result = .error e ∧
      FailsAt sqlite timestamp migration conn left e) ∨
    migration.version ∈ conn.saved.versions ∧ (sqlite.applyMigration timestamp migration conn).after = conn := by
  obtain ⟨db, rfl⟩ | ⟨e, hrefused⟩ := h
  · by_cases happlied : migration.version ∈ db.versions
    · rw [applyMigration_of_applied happlied]
      exact .inr (.inr ⟨happlied, rfl⟩)
    · have hfails : ∀ left e, FailsAt sqlite timestamp migration { saved := db } left e →
          ∃ left e, (sqlite.applyMigration timestamp migration { saved := db }).result = .error e ∧
            FailsAt sqlite timestamp migration { saved := db } left e :=
        fun left e h => ⟨left, e, h.result.1, h⟩
      obtain ⟨left, e, hrun, -⟩ | ⟨left, e, hrun, hinsert, -⟩ | ⟨reached, left, hrun, hinsert, hscript⟩ :=
        applyScript_cases sqlite timestamp migration { saved := db }
      · obtain ⟨before, statement, after, reached, hsplit, hbefore, hraises⟩ := runStatements_error_iff.mp hrun
        exact .inr (.inl (hfails left e (.statement happlied hsplit hbefore hraises)))
      · exact .inr (.inl (hfails left e (.record happlied hrun hinsert)))
      · cases hcommit : sqlite.commit left with
        | mk closed raised =>
          cases raised with
          | ok u =>
            rw [applyMigration_of_fresh happlied, hscript]
            exact .inl (congrArg Prod.snd hcommit)
          | error e =>
            obtain ⟨-, hrefused⟩ := commit_eq_error hcommit
            exact .inr (.inl (hfails left e (.commit happlied hrun hinsert hrefused)))
  · exact .inr (.inl ⟨conn, e, (FailsAt.lookup hrefused).result.1, .lookup hrefused⟩)

theorem settled_exit (sqlite : Sqlite S) (conn : Connection S) (result : Except Exn Unit) :
    Settled sqlite (sqlite.exit conn result).1 := by
  cases result with
  | error e => exact .inl ⟨conn.saved, rfl⟩
  | ok u =>
    cases hcommit : sqlite.commit conn with
    | mk closed raised =>
      rw [Sqlite.exit, hcommit]
      cases raised with
      | ok u => exact .inl ⟨conn.view, commit_eq_ok hcommit⟩
      | error e =>
        obtain ⟨rfl, hrefused⟩ := commit_eq_error hcommit
        exact .inr ⟨e, hrefused⟩

theorem settled_after (timestamp : String) (migration : Migration) (h : Settled sqlite conn) :
    Settled sqlite (sqlite.applyMigration timestamp migration conn).after := by
  obtain ⟨db, rfl⟩ | ⟨e, hrefused⟩ := h
  · by_cases happlied : migration.version ∈ db.versions
    · rw [applyMigration_of_applied happlied]
      exact .inl ⟨db, rfl⟩
    · rw [applyMigration_of_fresh happlied]
      exact settled_exit sqlite _ _
  · rw [applyMigration_of_refused hrefused]
    exact .inr ⟨e, hrefused⟩

/-- One application: what it has to do to be atomic, and when it does that. -/
theorem applyMigration_atomic_iff (timestamp : String) (migration : Migration) (h : Settled sqlite conn)
    (rest : List Migration) :
    ((∃ e, (sqlite.applyMigration timestamp migration conn).result = .error e) →
      (sqlite.applyMigration timestamp migration conn).after.saved = conn.saved ∧
        ((sqlite.applyMigration timestamp migration conn).passes = true → rest ≠ [] →
          migration.version ∈ (sqlite.applyMigration timestamp migration conn).after.saved.versions)) ↔
      Harmless sqlite timestamp migration conn rest := by
  constructor
  · intro hatomic left e hfails
    obtain ⟨hresult, hafter⟩ := hfails.result
    obtain ⟨hsame, hrecorded⟩ := hatomic ⟨e, hresult⟩
    rw [hafter] at hsame hrecorded
    refine ⟨hsame, fun hsuppressed hrest => ?_⟩
    rw [← hsame]
    exact hrecorded (by rw [Application.passes, hresult]; exact hsuppressed) hrest
  · rintro hharmless ⟨e, hraised⟩
    obtain hok | ⟨left, e', hresult, hfails⟩ | ⟨happlied, hafter⟩ := result_cases sqlite timestamp migration h
    · rw [hok] at hraised
      cases hraised
    · obtain ⟨hsame, hrecorded⟩ := hharmless left e' hfails
      rw [hfails.result.2, hsame]
      refine ⟨rfl, fun hpasses hrest => hrecorded ?_ hrest⟩
      rwa [Application.passes, hresult] at hpasses
    · rw [hafter]
      exact ⟨rfl, fun _ _ => happlied⟩

end Step

section Run

variable {sqlite : Sqlite S} {clock : Nat → String}

theorem forall_split_cons {α : Type} {a : α} {l : List α} {P : Nat → α → List α → Prop} :
    (∀ first x rest, a :: l = first ++ x :: rest → P first.length x rest) ↔
      P 0 a l ∧ ∀ first x rest, l = first ++ x :: rest → P (first.length + 1) x rest := by
  constructor
  · intro h
    refine ⟨h [] a l rfl, ?_⟩
    intro first x rest hl
    exact h (a :: first) x rest (by rw [hl]; rfl)
  · intro ⟨hhead, htail⟩ first x rest hl
    cases first with
    | nil =>
      cases hl
      exact hhead
    | cons b first =>
      cases hl
      exact htail first x rest rfl

theorem applications_ne_nil {n : Nat} {pending : List Migration} {conn : Connection S} :
    (sqlite.runPending clock n pending conn).applications ≠ [] ↔ pending ≠ [] := by
  cases pending with
  | nil => simp [Sqlite.runPending]
  | cons migration rest =>
    by_cases hpasses : (sqlite.applyMigration (clock n) migration conn).passes = true
    · rw [runPending_of_passes hpasses]
      simp
    · obtain ⟨e, -, hstops⟩ := runPending_of_not_passes rest (Bool.not_eq_true _ ▸ hpasses)
      rw [hstops]
      simp

/-- Every application of the run is harmless, in the state and with the rest that it finds. -/
def HarmlessRun (sqlite : Sqlite S) (clock : Nat → String) (pending : List Migration)
    (applications : List (Application S)) : Prop :=
  ∀ first application rest, applications = first ++ application :: rest →
    Harmless sqlite (clock first.length) application.migration application.before
      (pending.drop (first.length + 1))

theorem atomic_cons {application : Application S} {rest : List (Application S)} :
    Atomic (application :: rest) ↔ AtomicAt application rest ∧ Atomic rest :=
  forall_split_cons (P := fun _ application rest => AtomicAt application rest)

theorem harmlessRun_cons {migration : Migration} {later : List Migration} {application : Application S}
    {rest : List (Application S)} :
    HarmlessRun sqlite clock (migration :: later) (application :: rest) ↔
      Harmless sqlite (clock 0) application.migration application.before later ∧
        HarmlessRun sqlite (fun i => clock (i + 1)) later rest :=
  forall_split_cons (P := fun i (application : Application S) _ => Harmless sqlite (clock i) application.migration
    application.before ((migration :: later).drop (i + 1)))

theorem atomic_nil : Atomic ([] : List (Application S)) := by
  intro first application rest h
  simp at h

theorem harmlessRun_nil {pending : List Migration} : HarmlessRun sqlite clock pending [] := by
  intro first application rest h
  simp at h

theorem atomic_runPending_iff (clock : Nat → String) (n : Nat) (pending : List Migration)
    {conn : Connection S} (h : Settled sqlite conn) :
    Atomic (sqlite.runPending clock n pending conn).applications ↔
      HarmlessRun sqlite (fun i => clock (n + i)) pending
        (sqlite.runPending clock n pending conn).applications := by
  induction pending generalizing n conn with
  | nil => exact ⟨fun _ => harmlessRun_nil, fun _ => atomic_nil⟩
  | cons migration later ih =>
    have hstep := applyMigration_atomic_iff (clock n) migration h later
    by_cases hpasses : (sqlite.applyMigration (clock n) migration conn).passes = true
    · have hlater := ih (n + 1) (settled_after (clock n) migration h)
      rw [runPending_of_passes hpasses]
      show Atomic (_ :: _) ↔ HarmlessRun _ _ (_ :: _) (_ :: _)
      rw [atomic_cons, harmlessRun_cons, AtomicAt, applications_ne_nil, applyMigration_before,
        applyMigration_migration]
      simp only [hpasses, true_imp_iff] at hstep
      simp only [Nat.add_right_comm n 1, Nat.add_assoc] at hlater
      rw [hstep, hlater]
      rfl
    · obtain ⟨e, hresult, hstops⟩ :=
        runPending_of_not_passes later (Bool.not_eq_true _ ▸ hpasses)
      rw [hstops]
      show Atomic [_] ↔ HarmlessRun _ _ (_ :: _) [_]
      rw [atomic_cons, harmlessRun_cons, AtomicAt, applyMigration_before, applyMigration_migration,
        Nat.add_zero, ← hstep]
      simp [hpasses, atomic_nil, harmlessRun_nil]

end Run

/-- In every run, an application that fails changes nothing and the run does not go on past it, if and
only if every application is harmless in the state in which it comes. -/
theorem migrations_atomic_iff (sqlite : Sqlite S) (clock : Nat → String)
    (dir : Option (List DirEntry)) (db : Database S) :
    Atomic (sqlite.runMigrations clock dir db).applications ↔
      HarmlessRun sqlite clock ((pendingMigrations dir db).toOption.getD [])
        (sqlite.runMigrations clock dir db).applications := by
  unfold Sqlite.runMigrations
  cases hpending : pendingMigrations dir db with
  | error e => exact ⟨fun _ => harmlessRun_nil, fun _ => atomic_nil⟩
  | ok pending =>
    have hrun := atomic_runPending_iff clock 0 pending (.inl ⟨db, rfl⟩ : Settled sqlite { saved := db })
    simp only [Nat.zero_add] at hrun
    exact hrun

/-- A script that adds to the data and then fails. -/
def failing : Sqlite Nat where
  statements _ := [.run fun db => .done { db with content := db.content + 1 },
    .run fun db => .failed (.operationalError "no such table") db]
  refuses _ _ := none

/-- What the first statement has done stays, and the version is not recorded. -/
theorem failing_changes : ¬ ∀ (sqlite : Sqlite Nat) clock dir db,
    Atomic (sqlite.runMigrations clock dir db).applications := by
  intro h
  obtain ⟨hafter, -⟩ := h failing (fun _ => "") (some [{ name := "001_a.sql", text := .ok "" }]) ⟨0, []⟩ []
    (failing.applyMigration "" ⟨1, "a", ""⟩ { saved := ⟨0, []⟩ }) [] (by rfl) ⟨_, rfl⟩
  have hcontent := congrArg Database.content hafter
  revert hcontent
  decide

end ForkAgent.Migrations
