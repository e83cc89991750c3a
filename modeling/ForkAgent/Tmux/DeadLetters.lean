import Mathlib.Data.List.Induction
import ForkAgent.Tmux.DeadLetterQueue

/-!
# What becomes of a dead letter

Equal items are told apart by a mark that each `add` and each `requeue` sets anew, and that a file
keeps with the item. Without its marks, a marked run is the run of the queue. A letter is owed until
it has been handed out. `persist` overwrites the file whatever it holds, so that letters which only
the file holds are lost by it.
-/

namespace ForkAgent.Tmux

/-- An item with its mark, if it was put into the queue in the run. -/
abbrev Marked (Item : Type) := Item × Option Nat

variable {Item Data : Type}

/-- The mark is written beside the item. -/
def ItemCodec.marked (codec : ItemCodec Item Data) : ItemCodec (Marked Item) (Marked Data) where
  dump entry := (codec.dump entry.1, entry.2)
  load entry := (codec.load entry.1).map (·, entry.2)
  load_dump entry := by rw [codec.load_dump]; rfl

def Command.mark (n : Nat) : Command Item → Command (Marked Item)
  | .add item => .add (item, some n)
  | .requeue item => .requeue (item, some n)
  | .get => .get
  | .getAll => .getAll
  | .persist path writing => .persist path writing
  | .load path => .load path

def PersistFile.erase : PersistFile (Marked Data) → PersistFile Data
  | .missing => .missing
  | .damaged => .damaged
  | .json data => .json (data.map (·.1))

def PersistFile.marks : PersistFile (Marked Data) → List (Option Nat)
  | .json data => data.map (·.2)
  | _ => []

def Queue.erase (q : Queue (Marked Item)) : Queue Item := ⟨q.maxsize, q.items.map (·.1)⟩

def Queue.marks (q : Queue (Marked Item)) : List (Option Nat) := q.items.map (·.2)

def DeadLetterQueue.erase (d : DeadLetterQueue (Marked Item) (Marked Data)) :
    DeadLetterQueue Item Data :=
  { queue := d.queue.erase, persistPath := d.persistPath, files := fun p => (d.files p).erase }

/-- A queue whose items and files are there from before. -/
def DeadLetterQueue.unmarked (d : DeadLetterQueue Item Data) :
    DeadLetterQueue (Marked Item) (Marked Data) where
  queue := ⟨d.queue.maxsize, d.queue.items.map (·, none)⟩
  persistPath := d.persistPath
  files p := match d.files p with
    | .missing => .missing
    | .damaged => .damaged
    | .json data => .json (data.map (·, none))

section Erasure

variable (codec : ItemCodec Item Data)

theorem Queue.full_erase (q : Queue (Marked Item)) : q.erase.full = q.full := by
  simp [Queue.full, Queue.erase]

theorem Queue.putNowait_erase (q : Queue (Marked Item)) (entry : Marked Item) :
    q.erase.putNowait entry.1 = (q.putNowait entry).map Queue.erase := by
  unfold Queue.putNowait
  rw [Queue.full_erase]
  by_cases hfull : q.full
  · simp [hfull]
  · simp [hfull, Queue.erase]

theorem DeadLetterQueue.put_erase (d : DeadLetterQueue (Marked Item) (Marked Data))
    (entry : Marked Item) : (d.put entry).erase = d.erase.put entry.1 := by
  have hput := Queue.putNowait_erase d.queue entry
  unfold DeadLetterQueue.put
  simp only [DeadLetterQueue.erase, hput]
  cases hq : d.queue.putNowait entry with
  | none => rfl
  | some q => rfl

theorem loadItems_erase (data : List (Marked Data)) (q : Queue (Marked Item)) :
    DeadLetterQueue.loadItems codec (data.map (·.1)) q.erase =
      ((DeadLetterQueue.loadItems codec.marked data q).1,
        (DeadLetterQueue.loadItems codec.marked data q).2.erase) := by
  induction data generalizing q with
  | nil => rfl
  | cons entry rest ih =>
    simp only [List.map_cons, DeadLetterQueue.loadItems, ItemCodec.marked]
    cases hload : codec.load entry.1 with
    | error e => rfl
    | ok item =>
      have hput := Queue.putNowait_erase q (item, entry.2)
      simp only [Except.map]
      rw [show q.erase.putNowait item = _ from hput]
      cases hq : q.putNowait (item, entry.2) with
      | none => rfl
      | some q' =>
        simp only [Option.map_some]
        rw [ih q']
        rfl

theorem erase_update (files : String → PersistFile (Marked Data)) (p : String)
    (file : PersistFile (Marked Data)) :
    (fun path => (Function.update files p file path).erase) =
      Function.update (fun path => (files path).erase) p file.erase := by
  funext path
  by_cases hpath : path = p
  · subst hpath
    simp
  · simp [hpath]

/-- Without its marks, a marked command is the command. -/
theorem run_erase (d : DeadLetterQueue (Marked Item) (Marked Data)) (n : Nat) (c : Command Item) :
    c.run codec d.erase =
      (((c.mark n).run codec.marked d).1.map (·.1), ((c.mark n).run codec.marked d).2.erase) := by
  cases c with
  | add item | requeue item =>
    exact Prod.ext rfl (DeadLetterQueue.put_erase d (item, some n)).symm
  | get =>
    obtain ⟨⟨maxsize, items⟩, persistPath, files⟩ := d
    cases items with
    | nil => rfl
    | cons entry items => rfl
  | getAll => rfl
  | persist path writing =>
    simp only [Command.mark, Command.run, DeadLetterQueue.persist, DeadLetterQueue.erase]
    cases hpath : path.or d.persistPath with
    | none => rfl
    | some p =>
      cases writing with
      | done =>
        simp only [DeadLetterQueue.getAll, erase_update]
        simp [Queue.erase, PersistFile.erase, ItemCodec.marked, Function.comp_def]
      | notOpened e => rfl
      | interrupted e =>
        simp only [DeadLetterQueue.getAll, erase_update]
        rfl
  | load path =>
    simp only [Command.mark, Command.run, DeadLetterQueue.load, DeadLetterQueue.erase]
    cases hpath : path.or d.persistPath with
    | none => rfl
    | some p =>
      cases hfile : d.files p with
      | missing => simp [hfile, PersistFile.erase]
      | damaged => simp [hfile, PersistFile.erase]
      | json data => simp [hfile, PersistFile.erase, loadItems_erase]

end Erasure

/-- A run so far: the queue, the next mark and the marks that have been handed out. -/
structure Ledger (Item Data : Type) where
  dlq : DeadLetterQueue (Marked Item) (Marked Data)
  next : Nat := 0
  handed : List (Option Nat) := []

namespace Ledger

variable (codec : ItemCodec Item Data)

def step (l : Ledger Item Data) (c : Command Item) : Ledger Item Data where
  dlq := ((c.mark l.next).run codec.marked l.dlq).2
  next := if c.puts.isSome then l.next + 1 else l.next
  handed := l.handed ++ ((c.mark l.next).run codec.marked l.dlq).1.map (·.2)

def run (l : Ledger Item Data) (cs : List (Command Item)) : Ledger Item Data := cs.foldl (step codec) l

def start (d : DeadLetterQueue Item Data) : Ledger Item Data := { dlq := d.unmarked }

/-- The letter was put into the queue and has not been handed out. -/
def Owed (l : Ledger Item Data) (n : Nat) : Prop := n < l.next ∧ some n ∉ l.handed

def Queued (l : Ledger Item Data) (n : Nat) : Prop := some n ∈ l.dlq.queue.marks

def Filed (p : String) (l : Ledger Item Data) (n : Nat) : Prop := some n ∈ (l.dlq.files p).marks

/-- Every letter that is owed is in the queue or in the file. -/
def Kept (p : String) (l : Ledger Item Data) : Prop := ∀ n, l.Owed n → l.Queued n ∨ Filed p l n

/-- A command that puts an item finds room for it. -/
def Fits (l : Ledger Item Data) (c : Command Item) : Prop :=
  c.puts.isSome → l.dlq.queue.full = false

/-- Nothing is owed that only the file holds, where the file is overwritten; that only the queue
holds, where the file cannot be opened; and nothing at all, where the writing is interrupted. -/
def Safe (p : String) (l : Ledger Item Data) : Command Item → Prop
  | .persist _ .done => ∀ n, l.Owed n → Filed p l n → l.Queued n
  | .persist _ (.notOpened _) => ∀ n, l.Owed n → l.Queued n → Filed p l n
  | .persist _ (.interrupted _) => ∀ n, ¬ l.Owed n
  | _ => True

/-- The condition is met before each command of a run. -/
def Throughout (condition : Ledger Item Data → Command Item → Prop) (l : Ledger Item Data)
    (cs : List (Command Item)) : Prop :=
  ∀ before c after, cs = before ++ c :: after → condition (l.run codec before) c

/-- What is wanted of a run: at every moment the letters that are owed are in the queue or in the
file, and after a second `persist` with no `get` since the first they are all in the file. -/
structure LettersKept (p : String) (l : Ledger Item Data) (cs : List (Command Item)) : Prop where
  kept : ∀ before after, cs = before ++ after → Kept p (l.run codec before)
  filed : ∀ before path writing between path' writing' after,
    cs = before ++ .persist path writing :: between ++ .persist path' writing' :: after →
      (∀ c ∈ between, ¬ c.Gets) → ∀ n,
        (l.run codec (before ++ .persist path writing :: between ++ [.persist path' writing'])).Owed n →
          Filed p (l.run codec
            (before ++ .persist path writing :: between ++ [.persist path' writing'])) n

variable {codec} {l : Ledger Item Data} {c : Command Item} {cs : List (Command Item)} {p : String}

@[simp] theorem run_nil : l.run codec [] = l := rfl

@[simp] theorem run_concat : l.run codec (cs ++ [c]) = (l.run codec cs).step codec c := by
  simp [run]

/-- The ledger follows the queue: without its marks, it holds what the queue holds. -/
theorem erase_step : (l.step codec c).dlq.erase = (c.run codec l.dlq.erase).2 := by
  rw [run_erase codec l.dlq l.next c]
  rfl

theorem erase_start (d : DeadLetterQueue Item Data) : (start d).dlq.erase = d := by
  obtain ⟨⟨maxsize, items⟩, persistPath, files⟩ := d
  simp only [start, DeadLetterQueue.unmarked, DeadLetterQueue.erase, Queue.erase]
  congr 1
  · simp [Function.comp_def]
  · funext path
    cases hfile : files path with
    | missing => rfl
    | damaged => rfl
    | json data => simp [PersistFile.erase, Function.comp_def]

theorem persistPath_step : (l.step codec c).dlq.persistPath = l.dlq.persistPath := by
  have hput : ∀ (d : DeadLetterQueue (Marked Item) (Marked Data)) entry,
      (d.put entry).persistPath = d.persistPath := by
    intro d entry
    unfold DeadLetterQueue.put
    cases d.queue.putNowait entry <;> rfl
  cases c with
  | add item | requeue item => exact hput _ _
  | get =>
    simp only [step, Command.mark, Command.run, DeadLetterQueue.get]
    split <;> rfl
  | getAll => rfl
  | persist path writing =>
    simp only [step, Command.mark, Command.run, DeadLetterQueue.persist]
    cases path.or l.dlq.persistPath with
    | none => rfl
    | some q => cases writing <;> rfl
  | load path =>
    simp only [step, Command.mark, Command.run, DeadLetterQueue.load]
    cases path.or l.dlq.persistPath with
    | none => rfl
    | some q =>
      simp only
      cases l.dlq.files q <;> rfl

theorem persistPath_run : (l.run codec cs).dlq.persistPath = l.dlq.persistPath := by
  induction cs generalizing l with
  | nil => rfl
  | cons c cs ih =>
    show ((l.step codec c).run codec cs).dlq.persistPath = _
    rw [ih, persistPath_step]

theorem mem_loadItems (data : List (Marked Data)) (q : Queue (Marked Item)) {m : Option Nat}
    (h : m ∈ q.marks) : m ∈ (DeadLetterQueue.loadItems codec.marked data q).2.marks := by
  induction data generalizing q with
  | nil => exact h
  | cons entry rest ih =>
    unfold DeadLetterQueue.loadItems
    cases codec.marked.load entry with
    | error e => exact h
    | ok item =>
      simp only
      cases hput : q.putNowait item with
      | none => exact h
      | some q' =>
        apply ih q'
        unfold Queue.putNowait at hput
        by_cases hfull : q.full
        · simp [hfull] at hput
        · simp only [hfull, if_false, Bool.false_eq_true, Option.some.injEq] at hput
          subst hput
          simp only [Queue.marks, List.map_append, List.mem_append] at h ⊢
          exact .inl h

/-- Room for one more: the new letter is queued and everything else stays. -/
theorem put_of_fits {d : DeadLetterQueue (Marked Item) (Marked Data)} {entry : Marked Item}
    (h : d.queue.full = false) :
    d.put entry = { d with queue := { d.queue with items := d.queue.items ++ [entry] } } := by
  simp [DeadLetterQueue.put, Queue.putNowait, h]

theorem marks_json_dump (items : List (Marked Item)) :
    (PersistFile.json (items.map codec.marked.dump)).marks = items.map (·.2) := by
  simp [PersistFile.marks, ItemCodec.marked, Function.comp_def]

section Step

variable (hpath : c.OnPath l.dlq.persistPath p)

theorem kept_put {item : Item} (hputs : c.puts = some item) (hfits : l.Fits c) (hkept : l.Kept p)
    (hdlq : (l.step codec c).dlq = l.dlq.put (item, some l.next))
    (hhanded : (l.step codec c).handed = l.handed) : (l.step codec c).Kept p := by
  have hroom : l.dlq.queue.full = false := hfits (by rw [hputs]; rfl)
  have hnext : (l.step codec c).next = l.next + 1 := by simp [step, hputs]
  rw [put_of_fits hroom] at hdlq
  intro n howed
  simp only [Owed, hnext, hhanded] at howed
  simp only [Queued, Filed, hdlq, Queue.marks, List.map_append, List.mem_append]
  by_cases hnew : n = l.next
  · subst hnew
    simp
  · have hold : l.Owed n := ⟨by omega, howed.2⟩
    obtain hqueued | hfiled := hkept n hold
    · exact .inl (.inl hqueued)
    · exact .inr hfiled

include hpath in
theorem Kept.step (hkept : l.Kept p) (hfits : l.Fits c) (hsafe : l.Safe p c) :
    (l.step codec c).Kept p := by
  cases c with
  | add item =>
    exact kept_put (show Command.puts (.add item) = some item from rfl) hfits hkept rfl (by simp [Ledger.step, Command.mark, Command.run])
  | requeue item =>
    exact kept_put (show Command.puts (.requeue item) = some item from rfl) hfits hkept rfl (by simp [Ledger.step, Command.mark, Command.run])
  | get =>
    intro n howed
    cases hitems : l.dlq.queue.items with
    | nil =>
      simp only [Ledger.step, Owed, Queued, Filed, Command.mark, Command.run, DeadLetterQueue.get, hitems,
        Command.puts] at howed ⊢
      simpa [Queued, Filed] using hkept n ⟨by simpa using howed.1, by simpa using howed.2⟩
    | cons entry items =>
      simp only [Ledger.step, Owed, Queued, Filed, Command.mark, Command.run, DeadLetterQueue.get, hitems,
        Command.puts, Queue.marks] at howed ⊢
      simp only [Option.isSome_none, Bool.false_eq_true, if_false, Option.toList_some, List.map_cons,
        List.map_nil, List.mem_append, List.mem_singleton, not_or] at howed
      obtain hqueued | hfiled := hkept n ⟨howed.1, howed.2.1⟩
      · simp only [Queued, Queue.marks, hitems, List.map_cons, List.mem_cons] at hqueued
        obtain hhead | htail := hqueued
        · exact absurd hhead howed.2.2
        · exact .inl htail
      · exact .inr hfiled
  | getAll =>
    intro n howed
    simp only [Ledger.step, Owed, Command.mark, Command.run, DeadLetterQueue.getAll, Command.puts,
      Option.isSome_none, Bool.false_eq_true, if_false, List.mem_append, not_or] at howed
    obtain hqueued | hfiled := hkept n ⟨howed.1, howed.2.1⟩
    · exact absurd hqueued howed.2.2
    · exact .inr hfiled
  | persist path writing =>
    intro n howed
    have hold : l.Owed n := by
      simpa [Ledger.step, Owed, Command.mark, Command.run, Command.puts] using howed
    right
    cases writing with
    | done =>
      have hqueued : l.Queued n := by
        obtain hqueued | hfiled := hkept n hold
        · exact hqueued
        · exact hsafe n hold hfiled
      simp only [Ledger.step, Filed, Command.mark, Command.run, DeadLetterQueue.persist,
        show path.or l.dlq.persistPath = some p from hpath, DeadLetterQueue.getAll,
        Function.update_self, marks_json_dump]
      exact hqueued
    | notOpened e =>
      have hfiled : Filed p l n := by
        obtain hqueued | hfiled := hkept n hold
        · exact hsafe n hold hqueued
        · exact hfiled
      simp only [Ledger.step, Filed, Command.mark, Command.run, DeadLetterQueue.persist,
        show path.or l.dlq.persistPath = some p from hpath, DeadLetterQueue.getAll]
      exact hfiled
    | interrupted e => exact absurd hold (hsafe n)
  | load path =>
    intro n howed
    have hold : l.Owed n := by
      simpa [Ledger.step, Owed, Command.mark, Command.run, Command.puts] using howed
    simp only [Ledger.step, Queued, Filed, Command.mark, Command.run, DeadLetterQueue.load,
      show path.or l.dlq.persistPath = some p from hpath]
    cases hfile : l.dlq.files p with
    | missing => exact hkept n hold
    | damaged => exact hkept n hold
    | json data =>
      obtain hqueued | hfiled := hkept n hold
      · exact .inl (mem_loadItems data _ hqueued)
      · exact .inr hfiled

theorem filed_of_persist {path : Option String} {writing : Writing} {n : Nat}
    (hkept : ((l.step codec (.persist path writing)).Kept p))
    (hpath : path.or l.dlq.persistPath = some p)
    (howed : (l.step codec (.persist path writing)).Owed n) :
    Filed p (l.step codec (.persist path writing)) n := by
  obtain hqueued | hfiled := hkept n howed
  · exfalso
    revert hqueued
    cases writing <;>
      simp [Ledger.step, Queued, Command.mark, Command.run, DeadLetterQueue.persist, hpath,
        DeadLetterQueue.getAll, Queue.marks]
  · exact hfiled

include hpath in
/-- Where nothing was lost by it, a `persist` was safe. -/
theorem safe_of_kept (hkept : (l.step codec c).Kept p) : l.Safe p c := by
  cases c with
  | persist path writing =>
    have howed : ∀ n, l.Owed n → (l.step codec (.persist path writing)).Owed n := by
      intro n hold
      simpa [Ledger.step, Owed, Command.mark, Command.run, Command.puts] using hold
    cases writing with
    | done =>
      intro n hold _
      have hfiled := filed_of_persist hkept hpath (howed n hold)
      simp only [Ledger.step, Filed, Command.mark, Command.run, DeadLetterQueue.persist,
        show path.or l.dlq.persistPath = some p from hpath, DeadLetterQueue.getAll,
        Function.update_self, marks_json_dump] at hfiled
      exact hfiled
    | notOpened e =>
      intro n hold _
      have hfiled := filed_of_persist hkept hpath (howed n hold)
      simp only [Ledger.step, Filed, Command.mark, Command.run, DeadLetterQueue.persist,
        show path.or l.dlq.persistPath = some p from hpath, DeadLetterQueue.getAll] at hfiled
      exact hfiled
    | interrupted e =>
      intro n hold
      have hfiled := filed_of_persist hkept hpath (howed n hold)
      simp [Ledger.step, Filed, Command.mark, Command.run, DeadLetterQueue.persist,
        show path.or l.dlq.persistPath = some p from hpath, DeadLetterQueue.getAll,
        PersistFile.marks] at hfiled
  | _ => trivial

end Step

section Runs

theorem Throughout.of_append {condition : Ledger Item Data → Command Item → Prop}
    {cs' : List (Command Item)} (h : Throughout codec condition l (cs ++ cs')) :
    Throughout codec condition l cs := by
  intro before c after hcs
  apply h before c (after ++ cs')
  rw [hcs]
  simp

theorem Kept.run (hstart : l.Kept p) (hpath : ∀ c ∈ cs, c.OnPath l.dlq.persistPath p)
    (hfits : Throughout codec Fits l cs) (hsafe : Throughout codec (Safe p) l cs) :
    (l.run codec cs).Kept p := by
  induction cs using List.reverseRecOn with
  | nil => exact hstart
  | append_singleton cs c ih =>
    have hbefore := ih (fun c hc => hpath c (List.mem_append_left _ hc)) hfits.of_append hsafe.of_append
    rw [run_concat]
    apply hbefore.step
    · rw [persistPath_run]
      exact hpath c (by simp)
    · exact hfits cs c [] rfl
    · exact hsafe cs c [] rfl

/-- In a run that never finds the queue full, the letters are kept exactly when each `persist` was
safe. -/
theorem lettersKept_iff (hstart : l.Kept p) (hpath : ∀ c ∈ cs, c.OnPath l.dlq.persistPath p)
    (hfits : Throughout codec Fits l cs) :
    LettersKept codec p l cs ↔ Throughout codec (Safe p) l cs := by
  have on_path : ∀ {before c after}, cs = before ++ c :: after →
      c.OnPath (l.run codec before).dlq.persistPath p := by
    intro before c after hcs
    rw [persistPath_run]
    apply hpath
    simp [hcs]
  constructor
  · intro h before c after hcs
    have hkept : ((l.run codec before).step codec c).Kept p := by
      rw [← run_concat]
      exact h.kept (before ++ [c]) after (by simp [hcs])
    exact safe_of_kept (on_path hcs) hkept
  · intro hsafe
    have hkept : ∀ before after, cs = before ++ after → (l.run codec before).Kept p := by
      intro before after hcs
      subst hcs
      exact hstart.run (fun c hc => hpath c (List.mem_append_left _ hc)) hfits.of_append hsafe.of_append
    refine ⟨hkept, ?_⟩
    intro before path writing between path' writing' after hcs _ n howed
    have hend := hkept (before ++ .persist path writing :: between ++ [.persist path' writing']) after
      (by simpa using hcs)
    rw [run_concat] at hend howed ⊢
    apply filed_of_persist hend _ howed
    exact on_path hcs

end Runs

end Ledger

section Claim

open Ledger

theorem kept_start (d : DeadLetterQueue Item Data) (p : String) : (start d).Kept p := by
  intro n howed
  exact absurd howed.1 (Nat.not_lt_zero n)

/-- A run of the queue that never exceeds its size loses no letter exactly when each `persist` finds
in the queue what is owed of the file, and can write the file. -/
theorem dead_letters_kept_iff (d : DeadLetterQueue DeadLetterItem Json) (p : String)
    (cs : List (Command DeadLetterItem)) (hpath : ∀ c ∈ cs, c.OnPath d.persistPath p)
    (hfits : Throughout DeadLetterItem.codec Fits (start d) cs) :
    LettersKept DeadLetterItem.codec p (start d) cs ↔
      Throughout DeadLetterItem.codec (Safe p) (start d) cs :=
  lettersKept_iff (kept_start d p) hpath hfits

/-- A queue with nothing in it and no file. -/
def emptyDeadLetters : DeadLetterQueue DeadLetterItem Json :=
  { queue := { maxsize := 1000 }, persistPath := some "dlq.json", files := fun _ => .missing }

/-- Two letters, each persisted as it comes. -/
def persistedTwice : List (Command DeadLetterItem) :=
  [.add letterA, .persist none .done, .add letterB, .persist none .done]

theorem fits_of_few (cs : List (Command DeadLetterItem))
    (h : ∀ n ≤ cs.length, ((start emptyDeadLetters).run DeadLetterItem.codec (cs.take n)).dlq.queue.full =
      false) : Throughout DeadLetterItem.codec Fits (start emptyDeadLetters) cs := by
  intro before c after hcs _
  have hbefore := h before.length (by simp [hcs])
  rwa [hcs, List.take_left] at hbefore

/-- Two letters, where the first is loaded again before the second is persisted. -/
def loadedBetween : List (Command DeadLetterItem) :=
  [.add letterA, .persist none .done, .load none, .add letterB, .persist none .done]

theorem safe_of_filed {l : Ledger DeadLetterItem Json} {k : Nat} (hnext : l.next = k)
    (h : ∀ n < k, Filed "dlq.json" l n → Queued l n) : Safe "dlq.json" l (.persist none .done) := by
  rintro n ⟨hn, -⟩
  exact h n (hnext ▸ hn)

theorem loadedBetween_safe :
    Throughout DeadLetterItem.codec (Safe "dlq.json") (start emptyDeadLetters) loadedBetween := by
  intro before c after hcs
  have hlength : before.length < 5 := by
    have hall := congrArg List.length hcs
    simp [loadedBetween] at hall
    omega
  have htake : loadedBetween.take before.length = before := by simp [hcs]
  have hget : loadedBetween[before.length]? = some c := by simp [hcs]
  rw [← htake]
  generalize before.length = n at hlength hget
  obtain rfl | rfl | rfl | rfl | rfl : n = 0 ∨ n = 1 ∨ n = 2 ∨ n = 3 ∨ n = 4 := by omega
  all_goals cases hget
  · trivial
  · exact safe_of_filed (k := 1) rfl (by unfold Filed Queued; decide)
  · trivial
  · trivial
  · exact safe_of_filed (k := 2) rfl (by unfold Filed Queued; decide)

theorem dead_letters_kept_iff_twice :
    LettersKept DeadLetterItem.codec "dlq.json" (start emptyDeadLetters) loadedBetween ∧
      ¬ LettersKept DeadLetterItem.codec "dlq.json" (start emptyDeadLetters) persistedTwice := by
  constructor
  · rw [dead_letters_kept_iff]
    · exact loadedBetween_safe
    · simp [loadedBetween, Command.OnPath, emptyDeadLetters]
    · exact fits_of_few _ (by decide)
  · rw [dead_letters_kept_iff]
    · intro hsafe
      have hqueued := hsafe [.add letterA, .persist none .done, .add letterB] (.persist none .done) []
        rfl 0 ⟨by decide, by decide⟩ (by unfold Filed; decide)
      exact absurd hqueued (by unfold Queued; decide)
    · simp [persistedTwice, Command.OnPath, emptyDeadLetters]
    · exact fits_of_few _ (by decide)
/-- The second `persist` overwrites the first letter. -/
theorem persisted_twice_loses :
    ¬ ∀ (d : DeadLetterQueue DeadLetterItem Json) (p : String) (cs : List (Command DeadLetterItem)),
      (∀ c ∈ cs, c.OnPath d.persistPath p) → Throughout DeadLetterItem.codec Fits (start d) cs →
        LettersKept DeadLetterItem.codec p (start d) cs := by
  intro h
  have hkept := h emptyDeadLetters "dlq.json" persistedTwice
    (by simp [persistedTwice, Command.OnPath, emptyDeadLetters]) (fits_of_few _ (by decide))
  obtain hqueued | hfiled := hkept.kept persistedTwice [] (by simp) 0 ⟨by decide, by decide⟩
  · exact absurd hqueued (by unfold Queued; decide)
  · exact absurd hfiled (by unfold Filed; decide)

end Claim

end ForkAgent.Tmux
